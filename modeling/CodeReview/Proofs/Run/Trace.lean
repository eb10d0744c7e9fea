import CodeReview.Proofs.Run.Calls
import CodeReview.Proofs.Run.Reordered
/-!
# The trace of a run

Which calls a run makes, and in which order, is up to its token and to what its entries contribute (`run_calls_in_order`).
Whether calls of observers fail makes no difference to it, so a trace is compared call by call without that (`Call.bare`).
-/
namespace CodeReview

theorem RepositoryResult.Finished.ofAddErrors {r : RepositoryResult} {es : List RunError} (h : (r.addErrors es).Finished) :
    r.Finished where
  toCounted := ⟨h.analyzed, h.findings, h.tally, h.lines⟩
  score := h.score
  complexity := h.complexity

namespace Run

/-- A call, whether it has failed or not. -/
def Call.bare : Call → Call
  | .write r _ => .write r false
  | .progress processed total phase _ => .progress processed total phase false
  | .close r _ => .close r false
  | c => c

/-- The calls of an entry with what it contributes, at a place that is counted from one. -/
def entryCalls (total : Nat) (e : Entry) (c : Contribution) (place : Nat) : List Call :=
  .look :: (if e.isAnalyzed = true then [.read e.path] else []) ++ c.files.map (fun r => .write r false) ++
    [.progress place total Work.analyzing false]

def entriesCalls (total n : Nat) (xs : List (Entry × Contribution)) : List Call :=
  (xs.zipIdx (n + 1)).flatMap fun x => entryCalls total x.1.1 x.1.2 x.2

/-- The last report of progress, which a run makes that has not failed. -/
def lastReport (total k : Nat) : Except Failure RunState → List Call
  | .ok state => [.progress k total state.name false]
  | .error _ => []

theorem contribution_calls_bare {analyze : Analyze} {e : Entry} {c : Contribution} (h : c.Of analyze e) (failed : Bool) :
    (c.calls e.path failed).map Call.bare =
      (if e.isAnalyzed = true then [.read e.path] else []) ++ c.files.map (fun r => .write r false) := by
  unfold Entry.isAnalyzed
  cases h with
  | skipped hl => rw [hl]; rfl
  | unread hl _ => rw [hl]; rfl
  | crashed hl _ _ => rw [hl]; rfl
  | added hl _ _ => rw [hl]; rfl

theorem Account.calls_bare {analyze : Analyze} (x : Account) (h : x.contribution.Of analyze x.entry) (total n : Nat) :
    (x.calls total n).map Call.bare = entryCalls total x.entry x.contribution (n + 1) := by
  rw [Account.calls, entryCalls, List.map_append, List.map_cons, contribution_calls_bare h]
  rfl

theorem callsOf_bare {analyze : Analyze} (total : Nat) : ∀ (xs : List Account) (n : Nat),
    (∀ x ∈ xs, x.contribution.Of analyze x.entry) →
    (callsOf total n xs).map Call.bare = entriesCalls total n (xs.map fun x => (x.entry, x.contribution))
  | [], _, _ => rfl
  | x :: xs, n, h => by
    have hx := x.calls_bare (h x (by simp)) total n
    have ih := callsOf_bare total xs (n + 1) fun y hy => h y (by simp [hy])
    rw [callsOf, List.map_append, hx, ih, List.map_cons]
    simp only [entriesCalls, List.zipIdx_cons, List.flatMap_cons]

theorem lastLook_bare (how : Except Failure RunState) : (lastLook how).map Call.bare = lastLook how := by
  unfold lastLook
  split <;> rfl

/-! ## How far a run goes -/

/-- How far a token lets a run go, and how it ends there: with all entries done, or before the first entry at which the
token calls the run off or fails. -/
structure Token.Stops (token : Token) (entries done : List Entry) (how : Except Failure RunState) : Prop where
  initial : done <+: entries
  before : ∀ i < done.length, token (i + 1) = .ok false
  ended : (how = .ok .completed ∧ done = entries) ∨
    (done.length < entries.length ∧
      ((how = .ok .cancelled ∧ token (done.length + 1) = .ok true) ∨
        ∃ why, how = .error why ∧ token (done.length + 1) = .error why))

theorem course_before (token : Token) : ∀ (n : Nat) (es : List Entry), ∀ i < (token.course n es).1.length,
    token (n + i + 1) = .ok false
  | _, [], i, hi => absurd hi (Nat.not_lt_zero i)
  | n, e :: rest, i, hi => by
    unfold Token.course at hi
    split at hi
    · exact absurd hi (Nat.not_lt_zero i)
    · exact absurd hi (Nat.not_lt_zero i)
    · rename_i ht
      cases i with
      | zero => exact ht
      | succ i =>
        have h := course_before token (n + 1) rest i (Nat.lt_of_succ_lt_succ hi)
        rwa [Nat.add_right_comm n 1 i] at h

theorem course_ended (token : Token) : ∀ (n : Nat) (es : List Entry),
    ((token.course n es).2 = .ok .completed ∧ (token.course n es).1 = es) ∨
      ((token.course n es).1.length < es.length ∧
        (((token.course n es).2 = .ok .cancelled ∧ token (n + (token.course n es).1.length + 1) = .ok true) ∨
          ∃ why, (token.course n es).2 = .error why ∧ token (n + (token.course n es).1.length + 1) = .error why))
  | _, [] => .inl ⟨rfl, rfl⟩
  | n, e :: rest => by
    unfold Token.course
    split
    · rename_i why ht
      exact .inr ⟨Nat.succ_pos _, .inr ⟨why, rfl, ht⟩⟩
    · rename_i ht
      exact .inr ⟨Nat.succ_pos _, .inl ⟨rfl, ht⟩⟩
    · have hplace : n + ((token.course (n + 1) rest).1.length + 1) + 1 =
          n + 1 + (token.course (n + 1) rest).1.length + 1 := by omega
      rcases course_ended token (n + 1) rest with ⟨hhow, hall⟩ | ⟨hlt, hhow⟩
      · exact .inl ⟨hhow, by rw [hall]⟩
      · refine .inr ⟨Nat.succ_lt_succ hlt, ?_⟩
        rw [List.length_cons, hplace]
        exact hhow

theorem course_stops (token : Token) (entries : List Entry) :
    token.Stops entries (token.course 0 entries).1 (token.course 0 entries).2 where
  initial := course_initial token 0 entries
  before i hi := by
    have h := course_before token 0 entries i hi
    rwa [Nat.zero_add] at h
  ended := by
    have h := course_ended token 0 entries
    rwa [Nat.zero_add] at h

/-! ## The end of a run -/

namespace Work

variable {σ : Type} {o : Observers σ} {total : Nat}

theorem close_calls (w : Work σ) :
    (w.close o).calls = w.calls ++ [.close w.result (o.close w.state w.result).failure.isSome] :=
  hear_calls _ _ _ _ _

theorem conclude_calls (o : Observers σ) (total : Nat) (state : RunState) (w : Work σ) :
    (w.conclude o total state).calls.map Call.bare =
      w.calls.map Call.bare ++ [.progress w.processed total state.name false] := by
  let w₁ : Work σ := { w with result := w.result.finalize state (o.now w.state).1, state := (o.now w.state).2 }
  have h : (w.conclude o total state).calls = _ := report_calls w₁ state.name
  rw [h, List.map_append]
  rfl

def settled (o : Observers σ) (total : Nat) : Except Failure RunState → Work σ → Work σ
  | .ok state, w => w.conclude o total state
  | .error _, w => w

end Work

variable {σ : Type}

theorem end_calls (o : Observers σ) (total : Nat) (how : Except Failure RunState) (w : Work σ) :
    (end_ o total (how, w)).calls.map Call.bare = w.calls.map Call.bare ++ lastReport total w.processed how ++
      [.close (w.settled o total how).result false] := by
  cases how with
  | error why =>
    have h : (end_ o total (.error why, w)).calls = _ := w.close_calls
    rw [h, List.map_append, lastReport, List.append_nil]
    rfl
  | ok state =>
    have h : (end_ o total (.ok state, w)).calls = _ := (w.conclude o total state).close_calls
    rw [h, List.map_append, Work.conclude_calls]
    rfl

/-- A run that has gone through its entries returns the result that its sink is closed with, but for an error of closing
it. -/
theorem end_returns (o : Observers σ) (total : Nat) (state : RunState) (w : Work σ) :
    ∃ failure, (end_ o total (.ok state, w)).result =
      .ok ((w.settled o total (.ok state)).result.addErrors (heardErrors "sink" none failure)) :=
  ⟨_, congrArg Except.ok (Work.close_result (w.conclude o total state))⟩

/-! ## Whole runs -/

theorem Work.Went.calls_bare {o : Observers σ} {analyze : Analyze} {token : Token} {total : Nat} {entries : List Entry}
    {listing : Listing} {state : σ} {xs : List Account} {out : Except Failure RunState × Work σ}
    (h : Went o analyze token total entries (begin_ o listing total state) xs out) :
    let done := (token.course 0 entries).1
    out.2.processed = done.length ∧ out.2.calls.map Call.bare =
      entriesCalls total 0 (done.zip (Run.contributions analyze {} done)) ++ lastLook out.1 := by
  intro done
  have hdone : xs.map (·.entry) = done := h.course
  have hcontributions : xs.map (·.contribution) = Run.contributions analyze {} (xs.map (·.entry)) := h.contributions
  have hcalls : out.2.calls = callsOf total 0 xs ++ lastLook out.1 := h.calls
  have hof : ∀ x ∈ xs, x.contribution.Of analyze x.entry := fun x hx => by
    obtain ⟨n, hn⟩ := h.holds x hx
    exact hn.contribution
  constructor
  · rw [← hdone, List.length_map, ← Nat.zero_add xs.length]
    exact h.processed
  · rw [hcalls, List.map_append, callsOf_bare total xs 0 hof, lastLook_bare, ← hdone, ← hcontributions, List.zip_map']

/-- **A run makes its calls in order.**  For each entry that it comes to it looks at the token, reads the entry if its
language is one that is analyzed, hands the file to the sink if the entry has made one, and reports progress; then it
reports progress once more and closes the sink with the finished result.  If the token fails there is no last report, and
the sink is closed all the same.  A listing that fails ends a run before any call. -/
theorem run_calls_in_order {σ : Type} (analyze : Analyze) (o : Observers σ) (token : Token) (selection : Selection)
    (listing : Listing) (state : σ) :
    let entries := selected selection listing.entries
    let out := repository analyze o token selection listing state
    (∀ why, listing.failure = some why → out.result = .error why ∧ out.calls = []) ∧
    (listing.failure = none → ∃ done how r, token.Stops entries done how ∧
      out.calls.map Call.bare = entriesCalls entries.length 0 (done.zip (contributions analyze {} done)) ++
        lastLook how ++ lastReport entries.length done.length how ++ [.close r false] ∧
      (∀ why, how = .error why → out.result = .error why) ∧
      ∀ st, how = .ok st → r.state = st ∧ r.finishedAt.isSome = true ∧ r.Finished ∧
        ∃ failure r', out.result = .ok r' ∧ r' = r.addErrors (heardErrors "sink" none failure) ∧
          out.calls.filterMap Call.written? = r'.files) := by
  intro entries out
  refine ⟨fun why hwhy => ?_, fun hl => ?_⟩
  · have hout : out = ⟨.error why, state, {}, [], listing.log⟩ := repository_of_failure hwhy
    rw [hout]
    exact ⟨rfl, rfl⟩
  let start := begin_ o listing entries.length state
  have hout : out = end_ o entries.length (Work.processAll o analyze token entries.length entries start) :=
    repository_of_listed hl
  obtain ⟨xs, hxs⟩ := Work.processAll_went o analyze token entries.length entries start
  rcases hp : Work.processAll o analyze token entries.length entries start with ⟨how, w⟩
  rw [hp] at hxs hout
  obtain ⟨hlength, hcalls⟩ := hxs.calls_bare
  have hhow : how = (token.course 0 entries).2 := hxs.ended
  refine ⟨(token.course 0 entries).1, how, (w.settled o entries.length how).result, hhow ▸ course_stops token entries,
    ?_, ?_, ?_⟩
  · rw [hout, end_calls, hcalls, hlength]
  · rintro why rfl
    rw [hout]
    rfl
  · rintro st rfl
    obtain ⟨r', progress, sink, hran⟩ := hxs.ran
    obtain ⟨failure, hreturned⟩ := end_returns o entries.length st w
    obtain ⟨reported, hconcluded⟩ := Work.conclude_result o entries.length w st
    have hr' : r' = (w.settled o entries.length (.ok st)).result.addErrors (heardErrors "sink" none failure) :=
      Except.ok.inj (hran.returned.symm.trans hreturned)
    have hsettled : (w.settled o entries.length (.ok st)).result = _ := hconcluded
    have hfinished : ((w.settled o entries.length (.ok st)).result.addErrors (heardErrors "sink" none failure)).Finished :=
      hr' ▸ hran.finished
    have hwritten := hran.writes
    refine ⟨by rw [hsettled]; rfl, by rw [hsettled]; rfl, hfinished.ofAddErrors, failure, r', ?_, hr', ?_⟩
    · rw [hout]
      exact hran.returned
    · rw [hout]
      exact hwritten

end Run
end CodeReview
