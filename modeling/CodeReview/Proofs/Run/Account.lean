import CodeReview.Proofs.Result.Sums
import CodeReview.Proofs.Run.Moments
/-!
# The account of a run

Each entry that a run has processed is accounted for (`Account`): it has added nothing, one error, or one file with its
errors (`Contribution`), and after that at most the errors of the sink and of progress.  What it adds is up to the
analysis and to the grammars that are loaded (`contribute`), not to the observers.  `process_accounted` extends the account
of the entries so far by one, so the result of a run adds up at each of its moments (`Moment.accounted`) and where it ends
(`repository_settled`).
-/
namespace CodeReview.Run

open RepositoryResult (Counted)

/-! ## Contributions -/

/-- What an entry adds to a result. -/
inductive Contribution where
  | skipped
  | refused (e : RunError)
  | added (r : FileResult)

namespace Contribution

def files : Contribution → List FileResult
  | added r => [r]
  | _ => []

/-- The errors that are added, without those of the sink and of progress. -/
def errors : Contribution → List RunError
  | skipped => []
  | refused e => [e]
  | added r => r.errors

/-- The contributions that an entry can make. -/
inductive Of (analyze : Analyze) (e : Entry) : Contribution → Prop
  | skipped : Language.ofPath? e.path = none → Of analyze e .skipped
  | unread {l : Language} {u : Unreadable} : Language.ofPath? e.path = some l → e.read = .error u →
    Of analyze e (.refused { component := "provider", message := u.message, filePath := some e.path })
  | crashed {l : Language} {text : String} {session : Grammar.Session} {why : Failure} :
    Language.ofPath? e.path = some l → e.read = .ok text → analyze session e.path text l.name = .error why →
    Of analyze e (.refused { component := "engine", message := why.message, filePath := some e.path })
  | added {l : Language} {text : String} {session : Grammar.Session} {a : Analyzed} :
    Language.ofPath? e.path = some l → e.read = .ok text → analyze session e.path text l.name = .ok a →
    Of analyze e (.added a.result)

def calls (path : String) (failed : Bool) : Contribution → List Call
  | skipped => []
  | refused _ => [.read path]
  | added r => [.read path, .write r failed]

def addTo (c : Contribution) (r : RepositoryResult) : RepositoryResult :=
  (c.files.foldl RepositoryResult.addFile r).addErrors c.errors

theorem addTo_files (c : Contribution) (r : RepositoryResult) : (c.addTo r).files = r.files ++ c.files := by
  cases c with
  | added f => rfl
  | _ => exact (List.append_nil r.files).symm

theorem addTo_errors (c : Contribution) (r : RepositoryResult) : (c.addTo r).errors = r.errors ++ c.errors := by
  cases c <;> rfl

theorem addTo_counted (c : Contribution) {r : RepositoryResult} (h : r.Counted) : (c.addTo r).Counted := by
  cases c with
  | added f => exact (h.addFile f).addErrors f.errors
  | _ => exact h.addErrors _

end Contribution

/-- What an entry adds to a result, given what has been loaded, and what is loaded after it. -/
def contribute (analyze : Analyze) (session : Grammar.Session) (e : Entry) : Contribution × Grammar.Session :=
  match Language.ofPath? e.path with
  | none => (.skipped, session)
  | some l =>
    match e.read with
    | .error u => (.refused { component := "provider", message := u.message, filePath := some e.path }, session)
    | .ok text =>
      match analyze session e.path text l.name with
      | .error why => (.refused { component := "engine", message := why.message, filePath := some e.path }, session)
      | .ok a => (.added a.result, a.session)

theorem contribute_of (analyze : Analyze) (session : Grammar.Session) (e : Entry) :
    Contribution.Of analyze e (contribute analyze session e).1 := by
  unfold contribute
  cases hl : Language.ofPath? e.path with
  | none => exact .skipped hl
  | some l =>
    dsimp only
    cases hr : e.read with
    | error u => exact .unread hl hr
    | ok text =>
      dsimp only
      cases ha : analyze session e.path text l.name with
      | error why => exact .crashed hl hr ha
      | ok a => exact .added hl hr ha

/-! ## What observers add -/

def heardErrors (component : String) (filePath : Option String) (failure : Option Failure) : List RunError :=
  failure.toList.map fun why => { component, message := why.message, filePath }

@[simp] theorem heardErrors_none (component : String) (filePath : Option String) :
    heardErrors component filePath none = [] := rfl

namespace Work

variable {σ : Type} {o : Observers σ} {analyze : Analyze} {token : Token} {total : Nat}

theorem hear_result (w : Work σ) (reply : Reply σ) (told : Failure → Log.Record) (component : String)
    (filePath : Option String) :
    (w.hear reply told component filePath).result =
      w.result.addErrors (heardErrors component filePath reply.failure) := by
  rw [hear]
  cases reply.failure with
  | none => rw [heardErrors_none, RepositoryResult.addErrors_nil]
  | some why => rfl

theorem hear_processed (w : Work σ) (reply : Reply σ) (told : Failure → Log.Record) (component : String)
    (filePath : Option String) : (w.hear reply told component filePath).processed = w.processed := by
  rw [hear]
  cases reply.failure <;> rfl

theorem hear_calls (w : Work σ) (reply : Reply σ) (told : Failure → Log.Record) (component : String)
    (filePath : Option String) : (w.hear reply told component filePath).calls = w.calls := by
  rw [hear]
  cases reply.failure <;> rfl

theorem hear_session (w : Work σ) (reply : Reply σ) (told : Failure → Log.Record) (component : String)
    (filePath : Option String) : (w.hear reply told component filePath).session = w.session := by
  rw [hear]
  cases reply.failure <;> rfl

theorem report_result (w : Work σ) (phase : String) :
    (w.report o total phase).result =
      w.result.addErrors (heardErrors "progress" none (o.progress w.state w.processed total phase).failure) :=
  hear_result _ _ _ _ _

theorem report_processed (w : Work σ) (phase : String) : (w.report o total phase).processed = w.processed :=
  hear_processed _ _ _ _ _

theorem report_calls (w : Work σ) (phase : String) :
    (w.report o total phase).calls =
      w.calls ++ [.progress w.processed total phase (o.progress w.state w.processed total phase).failure.isSome] :=
  hear_calls _ _ _ _ _

theorem report_session (w : Work σ) (phase : String) : (w.report o total phase).session = w.session :=
  hear_session _ _ _ _ _

theorem close_result (w : Work σ) :
    (w.close o).result = w.result.addErrors (heardErrors "sink" none (o.close w.state w.result).failure) :=
  hear_result _ _ _ _ _

theorem hand_result (w : Work σ) (path : String) (r : FileResult) :
    (w.hand o path r).result = w.result.addErrors (heardErrors "sink" (some path) (o.write w.state r).failure) :=
  hear_result _ _ _ _ _

/-! ## One entry -/

/-- What a sink makes of a contribution: it fails only where a file has been added, and as it does at some state. -/
def SinkGives (o : Observers σ) : Contribution → Option Failure → Prop
  | .added r, failure => ∃ s, (o.write s r).failure = failure
  | _, failure => failure = none

theorem fold_result (w : Work σ) (a : Analyzed) : (w.fold a).result = (Contribution.added a.result).addTo w.result :=
  RepositoryResult.foldl_addError _ _

/-- That an entry has been handled which contributes `c`, the sink having replied as it does at some state. -/
structure Handled (o : Observers σ) (e : Entry) (w : Work σ) (c : Contribution × Grammar.Session)
    (failure : Option Failure) (w' : Work σ) : Prop where
  sink : SinkGives o c.1 failure
  result : w'.result = (c.1.addTo w.result).addErrors (heardErrors "sink" (some e.path) failure)
  processed : w'.processed = w.processed
  session : w'.session = c.2
  calls : w'.calls = w.calls ++ c.1.calls e.path failure.isSome

/-- **An entry makes its contribution**, after which only the sink adds an error. -/
theorem analyzeEntry_handled (o : Observers σ) (analyze : Analyze) (e : Entry) (w : Work σ) :
    ∃ failure, Handled o e w (contribute analyze w.session e) failure (w.analyzeEntry o analyze e) := by
  unfold analyzeEntry contribute
  cases hl : Language.ofPath? e.path with
  | none =>
    have hresult : w.result = (Contribution.skipped.addTo w.result).addErrors [] :=
      (RepositoryResult.addErrors_nil w.result).symm.trans (RepositoryResult.addErrors_nil _).symm
    exact ⟨none, rfl, hresult, rfl, rfl, (List.append_nil w.calls).symm⟩
  | some l =>
    dsimp only
    cases hr : e.read with
    | error u => exact ⟨none, rfl, (RepositoryResult.addErrors_nil _).symm, rfl, rfl, rfl⟩
    | ok text =>
      have hs : (w.note (.read e.path)).session = w.session := rfl
      dsimp only [analyzeText]
      rw [hs]
      cases ha : analyze w.session e.path text l.name with
      | error why => exact ⟨none, rfl, (RepositoryResult.addErrors_nil _).symm, rfl, rfl, rfl⟩
      | ok a =>
        let w₁ : Work σ := (w.note (.read e.path)).fold a
        refine ⟨(o.write w₁.state a.result).failure, ⟨w₁.state, rfl⟩, ?_, hear_processed _ _ _ _ _,
          hear_session _ _ _ _ _, (hear_calls _ _ _ _ _).trans (List.append_assoc w.calls _ _)⟩
        exact (hand_result w₁ e.path a.result).trans (by rw [fold_result]; rfl)

/-! ## Entries one after the other -/

end Work

/-- What a run has made of one entry: what it has added, and how the sink and progress have failed after that. -/
structure Account where
  entry : Entry
  contribution : Contribution
  sink : Option Failure
  progress : Option Failure

namespace Account

def errors (x : Account) : List RunError :=
  x.contribution.errors ++ heardErrors "sink" (some x.entry.path) x.sink ++ heardErrors "progress" none x.progress

def heard (x : Account) : List RunError :=
  heardErrors "sink" (some x.entry.path) x.sink ++ heardErrors "progress" none x.progress

theorem errors_eq (x : Account) : x.errors = x.contribution.errors ++ x.heard := List.append_assoc _ _ _

def addTo (x : Account) (r : RepositoryResult) : RepositoryResult := (x.contribution.addTo r).addErrors x.heard

/-- The calls of an account: `n` entries have been processed before. -/
def calls (total n : Nat) (x : Account) : List Call :=
  .look :: x.contribution.calls x.entry.path x.sink.isSome ++
    [.progress (n + 1) total Work.analyzing x.progress.isSome]

theorem addTo_files (x : Account) (r : RepositoryResult) : (x.addTo r).files = r.files ++ x.contribution.files :=
  x.contribution.addTo_files r

theorem addTo_errors (x : Account) (r : RepositoryResult) : (x.addTo r).errors = r.errors ++ x.errors := by
  rw [addTo, RepositoryResult.addErrors_errors, Contribution.addTo_errors, errors_eq, List.append_assoc]

theorem addTo_counted (x : Account) {r : RepositoryResult} (h : r.Counted) : (x.addTo r).Counted :=
  (x.contribution.addTo_counted h).addErrors _

/-- Whether an account is one of an analysis, with observers: `n` entries have been processed before. -/
structure Holds {σ : Type} (o : Observers σ) (analyze : Analyze) (total n : Nat) (x : Account) : Prop where
  contribution : x.contribution.Of analyze x.entry
  sink : Work.SinkGives o x.contribution x.sink
  progress : ∃ s, (o.progress s (n + 1) total Work.analyzing).failure = x.progress

end Account

namespace Work

/-- That a run has processed entries with certain accounts, and that its result is what they add up to. -/
structure Accounted (o : Observers σ) (analyze : Analyze) (total : Nat) (xs : List Account) (w : Work σ) : Prop where
  holds : ∀ n (h : n < xs.length), xs[n].Holds o analyze total n
  processed : w.processed = xs.length
  files : w.result.files = xs.flatMap (·.contribution.files)
  errors : w.result.errors = xs.flatMap (·.errors)
  counted : w.result.Counted

/-- That an entry has been processed, with an account of it. -/
structure Processed (o : Observers σ) (analyze : Analyze) (total : Nat) (e : Entry) (w : Work σ) (x : Account)
    (w' : Work σ) : Prop where
  entry : x.entry = e
  contribution : x.contribution = (contribute analyze w.session e).1
  holds : x.Holds o analyze total w.processed
  result : w'.result = x.addTo w.result
  processed : w'.processed = w.processed + 1
  session : w'.session = (contribute analyze w.session e).2
  calls : w'.calls = w.calls ++ x.calls total w.processed

/-- **Each entry that is processed has an account.** -/
theorem process_processed (o : Observers σ) (analyze : Analyze) (total : Nat) (e : Entry) (w : Work σ) :
    ∃ x, Processed o analyze total e w x ((w.note .look).process o analyze total e) := by
  let w₁ : Work σ := { w.note .look with processed := w.processed + 1 }
  obtain ⟨failure, h⟩ := analyzeEntry_handled o analyze e w₁
  let w₂ := w₁.analyzeEntry o analyze e
  have hn : w₂.processed = w.processed + 1 := h.processed
  have hw : (w.note .look).process o analyze total e = w₂.report o total analyzing := rfl
  let failure' := (o.progress w₂.state w₂.processed total analyzing).failure
  rw [hw]
  refine ⟨⟨e, (contribute analyze w.session e).1, failure, failure'⟩, rfl, rfl, ?_, ?_, ?_, ?_, ?_⟩
  · exact ⟨contribute_of analyze w.session e, h.sink, w₂.state, by rw [← hn]⟩
  -- the sink is heard before progress, and both after the errors of the file
  · rw [report_result, h.result, RepositoryResult.addErrors_addErrors]
    rfl
  · rw [report_processed, hn]
  · rw [report_session]
    exact h.session
  · rw [report_calls, h.calls, hn, Account.calls, ← hn]
    simp only [w₁, note, List.append_assoc, List.cons_append, List.nil_append]
    rfl

/-- **Processing an entry extends the account of a run by one.** -/
theorem process_accounted {xs : List Account} {w : Work σ} (h : Accounted o analyze total xs w) (e : Entry) :
    ∃ x : Account, x.entry = e ∧ Accounted o analyze total (xs ++ [x]) ((w.note .look).process o analyze total e) := by
  obtain ⟨x, hx⟩ := process_processed o analyze total e w
  refine ⟨x, hx.entry, ?_, ?_, ?_, ?_, ?_⟩
  · intro n hlt
    rw [List.length_append, List.length_singleton] at hlt
    rcases Nat.lt_succ_iff_lt_or_eq.1 hlt with hlt | rfl
    · rw [List.getElem_append_left hlt]
      exact h.holds n hlt
    · rw [List.getElem_concat_length rfl, ← h.processed]
      exact hx.holds
  · rw [hx.processed, h.processed, List.length_append, List.length_singleton]
  · rw [hx.result, Account.addTo_files, h.files, List.flatMap_append, List.flatMap_singleton]
  · rw [hx.result, Account.addTo_errors, h.errors, List.flatMap_append, List.flatMap_singleton]
  · rw [hx.result]
    exact x.addTo_counted h.counted

theorem begin_accounted (o : Observers σ) (analyze : Analyze) (listing : Listing) (total : Nat) (state : σ) :
    Accounted o analyze total [] (begin_ o listing total state) where
  holds _ h := absurd h (Nat.not_lt_zero _)
  processed := rfl
  files := rfl
  errors := rfl
  counted := ⟨rfl, rfl, fun s => by cases s <;> rfl, rfl⟩

/-- **The entries that a run has processed are accounted for** at each of its moments. -/
theorem Moment.accounted {entries rest : List Entry} {start w : Work σ} (hs : Accounted o analyze total [] start)
    (h : Moment o analyze token total entries start rest w) :
    ∃ xs : List Account, entries = xs.map (·.entry) ++ rest ∧ Accounted o analyze total xs w := by
  induction h with
  | start => exact ⟨[], rfl, hs⟩
  | @next e rest w _ _ ih =>
    obtain ⟨xs, hentries, hxs⟩ := ih
    obtain ⟨x, rfl, hx⟩ := process_accounted hxs e
    refine ⟨xs ++ [x], ?_, hx⟩
    rw [hentries, List.map_append, List.append_assoc]
    rfl

/-! ## The end of a run -/

theorem conclude_result (o : Observers σ) (total : Nat) (w : Work σ) (state : RunState) :
    ∃ failure, (w.conclude o total state).result = (w.result.finalize state (o.now w.state).1).addErrors
      (heardErrors "progress" none failure) := by
  let w₁ : Work σ := { w with result := w.result.finalize state (o.now w.state).1, state := (o.now w.state).2 }
  exact ⟨(o.progress w₁.state w₁.processed total state.name).failure, report_result w₁ state.name⟩

end Work

/-- **A run with a result has finished the result of its last moment**, and added what progress and the closing of the
sink have failed with. -/
theorem end_result {σ : Type} {o : Observers σ} {total : Nat} {out : Except Failure RunState × Work σ}
    {r : RepositoryResult} (h : (end_ o total out).result = .ok r) :
    ∃ state time progress sink, out.1 = .ok state ∧
      r = (out.2.result.finalize state time).addErrors
        (heardErrors "progress" none progress ++ heardErrors "sink" none sink) := by
  rcases out with ⟨why | state, w⟩
  · cases h
  · cases h
    obtain ⟨progress, hp⟩ := Work.conclude_result o total w state
    let w₁ := w.conclude o total state
    refine ⟨state, (o.now w.state).1, progress, (o.close w₁.state w₁.result).failure, rfl, ?_⟩
    rw [Work.close_result, ← RepositoryResult.addErrors_addErrors, ← hp]

/-! ## The whole -/

theorem repository_of_listed {σ : Type} {analyze : Analyze} {o : Observers σ} {token : Token} {selection : Selection}
    {listing : Listing} {state : σ} (hl : listing.failure = none) :
    let total := (selected selection listing.entries).length
    repository analyze o token selection listing state = end_ o total
      (Work.processAll o analyze token total (selected selection listing.entries) (begin_ o listing total state)) := by
  rw [repository, hl]

theorem repository_of_failure {σ : Type} {analyze : Analyze} {o : Observers σ} {token : Token} {selection : Selection}
    {listing : Listing} {state : σ} {why : Failure} (hl : listing.failure = some why) :
    repository analyze o token selection listing state = ⟨.error why, state, {}, [], listing.log⟩ := by
  rw [repository, hl]

/-- That a result is what a run over entries comes to: of those that have been processed each is accounted for, and after
their errors stand those of the last report of progress and of closing the sink. -/
structure Settled {σ : Type} (o : Observers σ) (analyze : Analyze) (token : Token) (entries : List Entry)
    (xs : List Account) (r : RepositoryResult) : Prop where
  initial : xs.map (·.entry) <+: entries
  ended : (r.state = .completed ∧ xs.map (·.entry) = entries) ∨
    (r.state = .cancelled ∧ token (xs.length + 1) = .ok true)
  holds : ∀ n (h : n < xs.length), xs[n].Holds o analyze entries.length n
  files : r.files = xs.flatMap (·.contribution.files)
  errors : ∃ progress sink,
    r.errors = xs.flatMap (·.errors) ++ heardErrors "progress" none progress ++ heardErrors "sink" none sink
  addsUp : r.AddsUp

/-- The result of a run over selected entries is settled. -/
theorem repository_settled {σ : Type} {analyze : Analyze} {o : Observers σ} {token : Token} {selection : Selection}
    {listing : Listing} {state : σ} {r : RepositoryResult}
    (h : (repository analyze o token selection listing state).result = .ok r) :
    ∃ xs, Settled o analyze token (selected selection listing.entries) xs r := by
  cases hf : listing.failure with
  | some why => rw [repository_of_failure hf] at h; cases h
  | none =>
    rw [repository_of_listed hf] at h
    generalize selected selection listing.entries = entries at h ⊢
    obtain ⟨rest, w, hm, he⟩ :=
      Work.processAll_ends o analyze token entries.length entries (begin_ o listing entries.length state)
    obtain ⟨xs, hentries, hxs⟩ := hm.accounted (Work.begin_accounted o analyze listing entries.length state)
    obtain ⟨st, time, progress, sink, hst, hr⟩ := end_result h
    rw [he.result_eq] at hr
    have hstate : r.state = st := by
      rw [hr]
      rfl
    refine ⟨xs, ⟨rest, hentries.symm⟩, ?_, hxs.holds, ?_, ⟨progress, sink, ?_⟩, ?_⟩
    · rw [hstate, ← hxs.processed]
      rcases he.ok hst with ⟨hcompleted, hrest⟩ | hcancelled
      · left
        rw [hentries, hrest, List.append_nil]
        exact ⟨hcompleted, rfl⟩
      · exact .inr hcancelled
    · rw [hr]
      exact hxs.files
    · rw [hr, RepositoryResult.addErrors_errors, ← List.append_assoc]
      exact congrArg (· ++ _ ++ _) hxs.errors
    · rw [hr]
      exact ((hxs.counted.finalize st time).addErrors _).addsUp

/-- **A run adds up.**  At each of its moments, and where it ends, the counters of its result count the lists, and each
entry that has been processed is accounted for: it has added nothing, for its language is not one that is analyzed, or
one error, or one file followed by the errors of that file. -/
theorem repository_adds_up {σ : Type} (analyze : Analyze) (o : Observers σ) (token : Token) (selection : Selection)
    (listing : Listing) (state : σ) :
    let entries := selected selection listing.entries
    let start := begin_ o listing entries.length state
    (∀ rest w, Work.Moment o analyze token entries.length entries start rest w →
      w.result.AddsUp ∧
        ∃ xs, entries = xs.map (·.entry) ++ rest ∧ Work.Accounted o analyze entries.length xs w) ∧
    (Work.processAll o analyze token entries.length entries start).2.result.AddsUp ∧
    ∀ r, (repository analyze o token selection listing state).result = .ok r →
      ∃ xs, Settled o analyze token entries xs r := by
  intro entries start
  have hstart : Work.Accounted o analyze entries.length [] start :=
    Work.begin_accounted o analyze listing entries.length state
  refine ⟨fun rest w hm => ?_, ?_, fun r hr => ?_⟩
  · obtain ⟨xs, hentries, hxs⟩ := hm.accounted hstart
    exact ⟨hxs.counted.addsUp, xs, hentries, hxs⟩
  · obtain ⟨rest, w, hm, he⟩ := Work.processAll_ends o analyze token entries.length entries start
    obtain ⟨xs, -, hxs⟩ := hm.accounted hstart
    rw [he.result_eq]
    exact hxs.counted.addsUp
  · exact repository_settled hr

end CodeReview.Run
