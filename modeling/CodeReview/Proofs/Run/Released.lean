import CodeReview.Proofs.Run.Trace
import CodeReview.Sink.Watch
/-!
# Released sinks

A run that has begun closes its sink once, as its last call, however it ends; a run whose listing fails has not begun and
leaves its sink open (`sink_released_iff_listed`).  What the sink has become when it is closed is up to the observers, who
keep it open until then (`Observers.Keeps`).
-/
namespace CodeReview.Run

def Call.closes : Call → Bool
  | .close _ _ => true
  | _ => false

theorem closes_bare (c : Call) : c.bare.closes = c.closes := by cases c <;> rfl

theorem countP_closes_bare (cs : List Call) : (cs.map Call.bare).countP Call.closes = cs.countP Call.closes := by
  rw [List.countP_map]
  exact List.countP_congr fun c _ => by rw [Function.comp_apply, closes_bare]

theorem entryCalls_closes (total : Nat) (e : Entry) (c : Contribution) (place : Nat) :
    ∀ x ∈ entryCalls total e c place, x.closes = false := by
  intro x hx
  simp only [entryCalls, List.cons_append, List.mem_cons, List.mem_append, List.mem_map, List.not_mem_nil, or_false] at hx
  rcases hx with rfl | (hread | ⟨r, -, rfl⟩) | rfl
  · rfl
  · split at hread
    · rw [List.mem_singleton.1 hread]
      rfl
    · cases hread
  · rfl
  · rfl

theorem entriesCalls_closes (total n : Nat) (xs : List (Entry × Contribution)) :
    (entriesCalls total n xs).countP Call.closes = 0 := by
  refine List.countP_eq_zero.2 fun x hx => ?_
  obtain ⟨y, -, hxy⟩ := List.mem_flatMap.1 hx
  simp [entryCalls_closes _ _ _ _ x hxy]

theorem lastLook_closes (how : Except Failure RunState) : (lastLook how).countP Call.closes = 0 := by
  unfold lastLook
  split <;> rfl

theorem lastReport_closes (total k : Nat) (how : Except Failure RunState) :
    (lastReport total k how).countP Call.closes = 0 := by
  cases how <;> rfl

/-! ## Observers until they are closed -/

/-- That observers keep a property of their state, whatever they are told but that the run is over. -/
structure Observers.Keeps {σ : Type} (o : Observers σ) (P : σ → Prop) : Prop where
  now : ∀ s, P s → P (o.now s).2
  progress : ∀ s processed total phase, P s → P (o.progress s processed total phase).state
  write : ∀ s r, P s → P (o.write s r).state

section

variable {σ : Type} {o : Observers σ} {P : σ → Prop} {analyze : Analyze} {token : Token} {total : Nat}

namespace Work

theorem hear_state (w : Work σ) (reply : Reply σ) (told : Failure → Log.Record) (component : String)
    (filePath : Option String) : (w.hear reply told component filePath).state = reply.state := by
  rw [hear]
  cases reply.failure <;> rfl

theorem report_keeps (ho : o.Keeps P) {w : Work σ} (hw : P w.state) (phase : String) : P (w.report o total phase).state := by
  rw [report, hear_state]
  exact ho.progress _ _ _ _ hw

/-- An entry is given to the sink, as a file that has been added, or it changes neither the files nor the observers. -/
theorem analyzeEntry_cases (o : Observers σ) (analyze : Analyze) (e : Entry) (w : Work σ) :
    (∃ a, w.analyzeEntry o analyze e = ((w.note (.read e.path)).fold a).hand o e.path a.result) ∨
      ((w.analyzeEntry o analyze e).result.files = w.result.files ∧ (w.analyzeEntry o analyze e).state = w.state) := by
  unfold analyzeEntry
  split
  · exact .inr ⟨rfl, rfl⟩
  dsimp only
  split
  · exact .inr ⟨rfl, rfl⟩
  unfold analyzeText
  split
  · exact .inr ⟨rfl, rfl⟩
  · exact .inl ⟨_, rfl⟩

theorem analyzeEntry_keeps (ho : o.Keeps P) {w : Work σ} (hw : P w.state) (e : Entry) :
    P (w.analyzeEntry o analyze e).state := by
  rcases analyzeEntry_cases o analyze e w with ⟨a, ha⟩ | ⟨-, hstate⟩
  · rw [ha, hand, hear_state]
    exact ho.write _ _ hw
  · rw [hstate]
    exact hw

theorem process_keeps (ho : o.Keeps P) {w : Work σ} (hw : P w.state) (e : Entry) :
    P (w.process o analyze total e).state :=
  report_keeps ho (analyzeEntry_keeps ho (w := { w with processed := w.processed + 1 }) hw e) analyzing

/-- **Observers keep a property over all entries** that they keep with each call. -/
theorem processAll_keeps (ho : o.Keeps P) : ∀ (entries : List Entry) (w : Work σ), P w.state →
    P (processAll o analyze token total entries w).2.state
  | [], _, hw => hw
  | e :: rest, w, hw => by
    unfold processAll
    dsimp only
    split
    · exact hw
    · exact hw
    · exact processAll_keeps ho rest _ (process_keeps ho (w := w.note .look) hw e)

theorem settled_keeps (ho : o.Keeps P) {w : Work σ} (hw : P w.state) (how : Except Failure RunState) :
    P (w.settled o total how).state := by
  cases how with
  | error why => exact hw
  | ok state =>
    rw [settled, conclude]
    exact report_keeps ho (ho.now w.state hw) state.name

end Work

theorem end_state (o : Observers σ) (total : Nat) (how : Except Failure RunState) (w : Work σ) :
    (end_ o total (how, w)).state = (o.close (w.settled o total how).state (w.settled o total how).result).state := by
  cases how with
  | error why => exact Work.hear_state _ _ _ _ _
  | ok state => exact Work.hear_state _ _ _ _ _

/-- **A run that has begun leaves its observers as closing the sink does**, with what they have kept until then. -/
theorem repository_closes (ho : o.Keeps P) (analyze : Analyze) (token : Token) (selection : Selection) {listing : Listing}
    {state : σ} (hs : P state) (hl : listing.failure = none) :
    ∃ s r, P s ∧ (repository analyze o token selection listing state).state = (o.close s r).state := by
  let total := (selected selection listing.entries).length
  have hstart : P (begin_ o listing total state).state := ho.now state hs
  have hend : P (Work.processAll o analyze token total (selected selection listing.entries)
      (begin_ o listing total state)).2.state :=
    Work.processAll_keeps ho _ _ hstart
  rw [repository_of_listed hl]
  exact ⟨_, _, Work.settled_keeps ho hend _, end_state o total _ _⟩

end

end Run

/-! ## Files of findings -/

namespace Sink

def Watch.HasOpen (path : String) (w : Watch) : Prop :=
  ∃ sink, w.findings = some sink ∧ sink.path = path ∧ sink.isOpen = true

/-- **A file of findings stays open while a run is watched.** -/
theorem Watch.observers_keep (path : String) : Watch.observers.Keeps (Watch.HasOpen path) where
  now _ h := h
  progress _ _ _ _ h := h
  write w r h := by
    obtain ⟨sink, hfindings, hpath, hopen⟩ := h
    refine ⟨(sink.append w.clock (JsonLines.fileEntries r)).1, ?_, hpath, hopen⟩
    simp only [Watch.observers, hfindings, Watch.wrote, JsonLines.write, if_pos hopen]

theorem Watch.close_open {path : String} {w : Watch} (h : w.HasOpen path) (r : RepositoryResult) :
    ∃ sink, (Watch.observers.close w r).state.findings = some sink ∧ sink.path = path ∧ sink.isOpen = false := by
  obtain ⟨sink, hfindings, hpath, hopen⟩ := h
  refine ⟨{ (sink.append w.clock (JsonLines.summaryEntries r)).1 with isOpen := false }, ?_, hpath, rfl⟩
  simp only [Watch.observers, hfindings, Watch.wrote, JsonLines.close, if_pos hopen]

end Sink

namespace Run

/-- **A run closes its sink exactly once, as its last call, unless its listing fails.**  It does so whether it is completed,
called off, or ended by a failure of its token.  If the listing fails, after however many entries, the sink is not closed,
and a file of findings stays open. -/
theorem sink_released_iff_listed {σ : Type} (analyze : Analyze) (o : Observers σ) (token : Token) (selection : Selection)
    (listing : Listing) (state : σ) :
    let out := repository analyze o token selection listing state
    out.calls.countP Call.closes = (if listing.failure.isNone = true then 1 else 0) ∧
    (listing.failure = none → ∃ before r failed, out.calls = before ++ [.close r failed]) ∧
    ∀ (watch : Sink.Watch) (path : String), watch.HasOpen path →
      ∃ sink, (repository analyze Sink.Watch.observers token selection listing watch).state.findings = some sink ∧
        sink.path = path ∧ sink.isOpen = listing.failure.isSome := by
  intro out
  cases hl : listing.failure with
  | some why =>
    have hout : out = ⟨.error why, state, {}, [], listing.log⟩ := repository_of_failure hl
    refine ⟨by rw [hout]; rfl, fun h => (by cases h), fun watch path hw => ?_⟩
    rw [repository_of_failure hl]
    exact hw
  | none =>
    let entries := selected selection listing.entries
    obtain ⟨xs, hxs⟩ := Work.processAll_went o analyze token entries.length entries (begin_ o listing entries.length state)
    rcases hp : Work.processAll o analyze token entries.length entries (begin_ o listing entries.length state) with ⟨how, w⟩
    have hout : out = end_ o entries.length (how, w) := by rw [← hp]; exact repository_of_listed hl
    rw [hp] at hxs
    refine ⟨?_, fun _ => ?_, fun watch path hw => ?_⟩
    · rw [hout, ← countP_closes_bare, end_calls, hxs.calls_bare.2]
      simp only [List.countP_append, entriesCalls_closes, lastLook_closes, lastReport_closes]
      rfl
    · rw [hout]
      cases how with
      | error why => exact ⟨w.calls, w.result, _, w.close_calls⟩
      | ok st => exact ⟨_, _, _, (w.conclude o entries.length st).close_calls⟩
    · have hcloses := repository_closes (Sink.Watch.observers_keep path) analyze token selection hw hl
      obtain ⟨s, r, hopen, hstate⟩ := hcloses
      rw [hstate]
      exact Sink.Watch.close_open hopen r

/-- A listing that breaks off behind its first entry. -/
def brokenOff : Listing :=
  { entries := [.ofText "a.js" "let x = 1;"], failure := some (.raised "RuntimeError" "listing broke off") }

/-- A run over a listing that breaks off fails with its failure and leaves a file of findings open. -/
theorem broken_listing_unreleased :
    let out := repository ({ parse := hostParse .bare false } : FileAnalyzer).known Sink.Watch.observers Token.never {}
      brokenOff { findings := some { path := "findings.jsonl" }, clock := .ticking ⟨0⟩ 0 }
    out.calls.countP Call.closes = 0 ∧ out.state.HasOpen "findings.jsonl" :=
  ⟨rfl, _, rfl, rfl, rfl⟩

end Run
end CodeReview
