import CodeReview.Proofs.Run.Account
/-!
# The course of a run

How many entries a run processes, and how it ends, is up to its token (`Token.course`).  What they add is up to the
analysis (`contributions`): observers add errors of their own and nothing else.  `repository_ran` says so of a whole run,
`Ran` being all that its result and its calls have to do with the observers.
-/
namespace CodeReview.Run

open Grammar (Session)

/-- The entries that a run goes through which has processed `n` before, and how it ends. -/
def Token.course (token : Token) : Nat → List Entry → List Entry × Except Failure RunState
  | _, [] => ([], .ok .completed)
  | n, e :: rest =>
    match token (n + 1) with
    | .error why => ([], .error why)
    | .ok true => ([], .ok .cancelled)
    | .ok false => (e :: (Token.course token (n + 1) rest).1, (Token.course token (n + 1) rest).2)

def contributions (analyze : Analyze) : Session → List Entry → List Contribution
  | _, [] => []
  | session, e :: rest =>
    (contribute analyze session e).1 :: contributions analyze (contribute analyze session e).2 rest

/-- The calls of accounts one after the other: `n` entries have been processed before. -/
def callsOf (total : Nat) : Nat → List Account → List Call
  | _, [] => []
  | n, x :: xs => x.calls total n ++ callsOf total (n + 1) xs

/-- The look at the token that ends a run, unless no entry is left. -/
def lastLook : Except Failure RunState → List Call
  | .ok .completed => []
  | _ => [.look]

theorem course_never : ∀ (n : Nat) (es : List Entry), Token.never.course n es = (es, .ok .completed)
  | _, [] => rfl
  | n, e :: rest => by
    rw [Token.course, Token.never]
    dsimp only
    rw [course_never (n + 1) rest]

theorem course_initial (token : Token) : ∀ (n : Nat) (es : List Entry), (token.course n es).1 <+: es
  | _, [] => List.prefix_rfl
  | n, e :: rest => by
    unfold Token.course
    split
    · exact List.nil_prefix
    · exact List.nil_prefix
    · exact (List.prefix_cons_inj e).2 (course_initial token (n + 1) rest)

theorem course_of_first {token : Token} : ∀ (k n : Nat) (es : List Entry), k < es.length →
    (∀ i < k, token (n + i + 1) = .ok false) → token (n + k + 1) = .ok true →
    token.course n es = (es.take k, .ok .cancelled)
  | _, _, [], hk, _, _ => absurd hk (Nat.not_lt_zero _)
  | 0, n, e :: rest, _, _, ht => by
    rw [Token.course, ht]
    rfl
  | k + 1, n, e :: rest, hk, hf, ht => by
    have h0 : token (n + 1) = .ok false := hf 0 (Nat.succ_pos k)
    have hrest : ∀ i < k, token (n + 1 + i + 1) = .ok false := fun i hi => by
      have := hf (i + 1) (Nat.succ_lt_succ hi)
      rwa [Nat.add_right_comm n 1 i]
    have hlast : token (n + 1 + k + 1) = .ok true := by rwa [Nat.add_right_comm n 1 k]
    rw [Token.course, h0]
    dsimp only
    rw [course_of_first k (n + 1) rest (Nat.lt_of_succ_lt_succ hk) hrest hlast]
    rfl

theorem accounts_addTo : ∀ (xs : List Account) (r : RepositoryResult), xs.foldl (fun r x => x.addTo r) r =
    ((xs.flatMap (·.contribution.files)).foldl RepositoryResult.addFile r).addErrors (xs.flatMap (·.errors))
  | [], r => (RepositoryResult.addErrors_nil r).symm
  | x :: xs, r => by
    rw [List.foldl_cons, accounts_addTo xs, Account.addTo, Contribution.addTo,
      RepositoryResult.foldl_addFile_addErrors, RepositoryResult.foldl_addFile_addErrors, List.flatMap_cons,
      List.flatMap_cons, List.foldl_append, RepositoryResult.addErrors_addErrors, RepositoryResult.addErrors_addErrors,
      Account.errors_eq, List.append_assoc]

namespace Work

variable {σ : Type} {o : Observers σ} {analyze : Analyze} {token : Token} {total : Nat}

/-- That entries have been processed from `w` on, with accounts of them, and how that has ended. -/
structure Went (o : Observers σ) (analyze : Analyze) (token : Token) (total : Nat) (entries : List Entry) (w : Work σ)
    (xs : List Account) (out : Except Failure RunState × Work σ) : Prop where
  course : xs.map (·.entry) = (token.course w.processed entries).1
  ended : out.1 = (token.course w.processed entries).2
  contributions : xs.map (·.contribution) = contributions analyze w.session (xs.map (·.entry))
  holds : ∀ x ∈ xs, ∃ n, x.Holds o analyze total n
  result : out.2.result = xs.foldl (fun r x => x.addTo r) w.result
  processed : out.2.processed = w.processed + xs.length
  calls : out.2.calls = w.calls ++ callsOf total w.processed xs ++ lastLook out.1

/-- **Entries are processed as far as the token lets them**, each with an account. -/
theorem processAll_went (o : Observers σ) (analyze : Analyze) (token : Token) (total : Nat) :
    ∀ (entries : List Entry) (w : Work σ), ∃ xs, Went o analyze token total entries w xs
      (processAll o analyze token total entries w)
  | [], w => by
    refine ⟨[], rfl, rfl, rfl, fun x hx => (by cases hx), rfl, rfl, ?_⟩
    exact ((List.append_nil _).trans (List.append_nil _)).symm
  | e :: rest, w => by
    unfold processAll
    cases ht : token (w.processed + 1) with
    | error why =>
      refine ⟨[], ?_, ?_, rfl, fun x hx => (by cases hx), rfl, rfl, ?_⟩
      · rw [Token.course, ht]
        rfl
      · rw [Token.course, ht]
      · exact congrArg (· ++ [Call.look]) (List.append_nil w.calls).symm
    | ok off =>
      cases off with
      | true =>
        refine ⟨[], ?_, ?_, rfl, fun x hx => (by cases hx), rfl, rfl, ?_⟩
        · rw [Token.course, ht]
          rfl
        · rw [Token.course, ht]
        · exact congrArg (· ++ [Call.look]) (List.append_nil w.calls).symm
      | false =>
        -- the account of `e`, and those of the entries behind it from what `e` has left
        obtain ⟨x, hx⟩ := process_processed o analyze total e w
        obtain ⟨xs, hxs⟩ := processAll_went o analyze token total rest ((w.note .look).process o analyze total e)
        dsimp only
        have hcourse : token.course w.processed (e :: rest) =
            (e :: (token.course (w.processed + 1) rest).1, (token.course (w.processed + 1) rest).2) := by
          rw [Token.course, ht]
        refine ⟨x :: xs, ?_, ?_, ?_, ?_, ?_, ?_, ?_⟩
        · rw [hcourse, List.map_cons, hx.entry, hxs.course, hx.processed]
        · rw [hcourse, hxs.ended, hx.processed]
        · rw [List.map_cons, List.map_cons, Run.contributions, hx.entry, hx.contribution, hxs.contributions, hx.session]
        · intro y hy
          rcases List.mem_cons.1 hy with rfl | hy
          · exact ⟨w.processed, hx.holds⟩
          · exact hxs.holds y hy
        · rw [hxs.result, hx.result, List.foldl_cons]
        · rw [hxs.processed, hx.processed, List.length_cons, Nat.add_assoc, Nat.add_comm 1]
        · rw [hxs.calls, hx.calls, hx.processed, callsOf]
          simp only [List.append_assoc]

end Work

/-! ## Whole runs -/

/-- What a run comes to that has processed entries and ended in a state, with accounts of the entries and what the last
report of progress and the closing of the sink have failed with. -/
structure Ran {σ : Type} (o : Observers σ) (analyze : Analyze) (total : Nat) (entries : List Entry) (state : RunState)
    (out : Outcome σ) (r : RepositoryResult) (xs : List Account) (progress sink : Option Failure) : Prop where
  returned : out.result = .ok r
  course : xs.map (·.entry) = entries
  contributions : xs.map (·.contribution) = contributions analyze {} entries
  holds : ∀ x ∈ xs, ∃ n, x.Holds o analyze total n
  reported : ∃ s, (o.progress s xs.length total state.name).failure = progress
  closed : ∃ s r, (o.close s r).failure = sink
  result : ∃ start finish, r = (((xs.flatMap (·.contribution.files)).foldl RepositoryResult.addFile
      { totalFiles := total, state := .running, startedAt := start }).finalize state finish).addErrors
    (xs.flatMap (·.errors) ++ heardErrors "progress" none progress ++ heardErrors "sink" none sink)
  calls : ∃ r₀, out.calls = callsOf total 0 xs ++ lastLook (.ok state) ++
    [.progress xs.length total state.name progress.isSome, .close r₀ sink.isSome]

variable {σ : Type}

/-- A run that has gone through its entries and whose token has not failed has a result. -/
theorem Work.Went.ran {o : Observers σ} {analyze : Analyze} {token : Token} {total : Nat} {entries : List Entry}
    {listing : Listing} {state : σ} {xs : List Account} {st : RunState} {w : Work σ}
    (h : Went o analyze token total entries (begin_ o listing total state) xs (.ok st, w)) :
    ∃ r progress sink,
      Ran o analyze total (token.course 0 entries).1 st (end_ o total (.ok st, w)) r xs progress sink := by
  -- a run ends in three steps: it is finalized, it reports its state, it closes the sink; the last two can add an error
  let w₁ : Work σ :=
    { w with result := w.result.finalize st (o.now w.state).1, state := (o.now w.state).2 }
  let w₂ := w.conclude o total st
  let progress := (o.progress w₁.state w₁.processed total st.name).failure
  let sink := (o.close w₂.state w₂.result).failure
  have hprocessed : w₁.processed = xs.length := h.processed.trans (Nat.zero_add _)
  have hresult : w₁.result = (((xs.flatMap (·.contribution.files)).foldl RepositoryResult.addFile
      { totalFiles := total, state := .running, startedAt := (o.now state).1 }).finalize st
        (o.now w.state).1).addErrors (xs.flatMap (·.errors)) := by
    have hw : w.result = _ := h.result
    show w.result.finalize st (o.now w.state).1 = _
    rw [hw, accounts_addTo]
    rfl
  have hreported : w₂.result = w₁.result.addErrors (heardErrors "progress" none progress) :=
    Work.report_result w₁ st.name
  have hclosed : (w₂.close o).result = w₂.result.addErrors (heardErrors "sink" none sink) := Work.close_result w₂
  have hcalls : w.calls = callsOf total 0 xs ++ lastLook (.ok st) := h.calls
  have hreport : w₂.calls = w.calls ++ [.progress w₁.processed total st.name progress.isSome] :=
    Work.report_calls w₁ st.name
  have hclose : (w₂.close o).calls = w₂.calls ++ [.close w₂.result sink.isSome] := Work.hear_calls _ _ _ _ _
  refine ⟨(w₂.close o).result, progress, sink, rfl, h.course, ?_, h.holds, ⟨w₁.state, by rw [← hprocessed]⟩,
    ⟨w₂.state, w₂.result, rfl⟩, ⟨(o.now state).1, (o.now w.state).1, ?_⟩, ⟨w₂.result, ?_⟩⟩
  · rw [h.contributions, h.course]
    rfl
  · rw [hclosed, hreported, hresult, RepositoryResult.addErrors_addErrors, RepositoryResult.addErrors_addErrors,
      List.append_assoc]
  · show (w₂.close o).calls = _
    rw [hclose, hreport, hcalls, hprocessed]
    simp only [List.append_assoc, List.cons_append, List.nil_append]

/-- **The course of a run**: it goes as far as its token lets it, and has a result unless the token fails. -/
theorem repository_ran (analyze : Analyze) (o : Observers σ) (token : Token) (selection : Selection)
    (listing : Listing) (state : σ) (hl : listing.failure = none) :
    let entries := selected selection listing.entries
    let out := repository analyze o token selection listing state
    (∀ why, (token.course 0 entries).2 = .error why → out.result = .error why) ∧
    ∀ st, (token.course 0 entries).2 = .ok st → ∃ r xs progress sink,
      Ran o analyze entries.length (token.course 0 entries).1 st out r xs progress sink := by
  intro entries out
  let start := begin_ o listing entries.length state
  have hout : out = end_ o entries.length (Work.processAll o analyze token entries.length entries start) :=
    repository_of_listed hl
  obtain ⟨xs, hxs⟩ := Work.processAll_went o analyze token entries.length entries start
  rcases hp : Work.processAll o analyze token entries.length entries start with ⟨how, w⟩
  rw [hp] at hxs hout
  have hended : how = (token.course 0 entries).2 := hxs.ended
  constructor
  · intro why hwhy
    rw [hout, hended, hwhy]
    rfl
  · intro st hst
    obtain rfl : how = .ok st := hended.trans hst
    obtain ⟨r, progress, sink, hran⟩ := hxs.ran
    rw [hout]
    exact ⟨r, xs, progress, sink, hran⟩

/-- A run with a result has gone through some of the entries, which come before the others. -/
theorem repository_result {analyze : Analyze} {o : Observers σ} {token : Token} {selection : Selection} {listing : Listing}
    {state : σ} {r : RepositoryResult} (h : (repository analyze o token selection listing state).result = .ok r) :
    ∃ entries st xs progress sink, entries <+: selected selection listing.entries ∧
      Ran o analyze (selected selection listing.entries).length entries st
        (repository analyze o token selection listing state) r xs progress sink := by
  cases hl : listing.failure with
  | some why =>
    rw [repository_of_failure hl] at h
    cases h
  | none =>
    obtain ⟨hfails, hran⟩ := repository_ran analyze o token selection listing state hl
    cases hended : (token.course 0 (selected selection listing.entries)).2 with
    | error why =>
      rw [hfails why hended] at h
      cases h
    | ok st =>
      obtain ⟨r', xs, progress, sink, hr⟩ := hran st hended
      obtain rfl : r' = r := Except.ok.inj (hr.returned.symm.trans h)
      exact ⟨_, st, xs, progress, sink, course_initial token 0 _, hr⟩

/-! ## Results of runs -/

section

variable {o : Observers σ} {analyze : Analyze} {total : Nat} {entries : List Entry} {st : RunState} {out : Outcome σ}
  {r : RepositoryResult} {xs : List Account} {progress sink : Option Failure}

theorem Ran.contributed (h : Ran o analyze total entries st out r xs progress sink) :
    xs.flatMap (·.contribution.files) = (Run.contributions analyze {} entries).flatMap (·.files) := by
  rw [← h.contributions, List.flatMap_map]

theorem Ran.contribution_of (h : Ran o analyze total entries st out r xs progress sink) :
    ∀ x ∈ xs, x.contribution.Of analyze x.entry := by
  intro x hx
  obtain ⟨n, hn⟩ := h.holds x hx
  exact hn.contribution

/-- **The files of a run are those that its entries contribute.** -/
theorem Ran.files (h : Ran o analyze total entries st out r xs progress sink) :
    r.files = (Run.contributions analyze {} entries).flatMap (·.files) := by
  obtain ⟨start, finish, hr⟩ := h.result
  rw [hr, RepositoryResult.addErrors_files, ← h.contributed]
  exact (RepositoryResult.foldl_addFile_files _ _).trans (List.nil_append _)

theorem Ran.files_eq (h : Ran o analyze total entries st out r xs progress sink) :
    r.files = xs.flatMap (·.contribution.files) :=
  h.files.trans h.contributed.symm

theorem Ran.errors (h : Ran o analyze total entries st out r xs progress sink) :
    r.errors = xs.flatMap (·.errors) ++ heardErrors "progress" none progress ++ heardErrors "sink" none sink := by
  obtain ⟨start, finish, hr⟩ := h.result
  rw [hr, RepositoryResult.addErrors_errors]
  -- no error is there but the added ones: files bring theirs as part of what their entries contribute
  exact (congrArg (· ++ _) (RepositoryResult.foldl_addFile_errors _ _)).trans (List.nil_append _)

theorem Ran.state (h : Ran o analyze total entries st out r xs progress sink) : r.state = st := by
  obtain ⟨start, finish, hr⟩ := h.result
  rw [hr]
  rfl

theorem Ran.totalFiles (h : Ran o analyze total entries st out r xs progress sink) : r.totalFiles = total := by
  obtain ⟨start, finish, hr⟩ := h.result
  have hhead := RepositoryResult.foldl_addFile_head total start (xs.flatMap (·.contribution.files))
    { totalFiles := total, state := .running, startedAt := start }
  rw [hr, hhead]
  rfl

/-- **What runs over the same entries have in common**: all but what they have selected, how they have ended, the times and
the errors. -/
theorem Ran.agree {σ' : Type} {o' : Observers σ'} {total' : Nat} {st' : RunState} {out' : Outcome σ'}
    {r' : RepositoryResult} {xs' : List Account} {progress' sink' : Option Failure}
    (h : Ran o analyze total entries st out r xs progress sink)
    (h' : Ran o' analyze total' entries st' out' r' xs' progress' sink') :
    r = { r' with
      totalFiles := r.totalFiles, state := r.state, startedAt := r.startedAt, finishedAt := r.finishedAt,
      errors := r.errors } := by
  obtain ⟨start, finish, hr⟩ := h.result
  obtain ⟨start', finish', hr'⟩ := h'.result
  let fs := (Run.contributions analyze {} entries).flatMap (·.files)
  -- both results add up the same files, under different heads
  have hhead : ∀ (n : Nat) (t : Calendar.Instant),
      fs.foldl RepositoryResult.addFile { totalFiles := n, state := .running, startedAt := t } =
        { fs.foldl RepositoryResult.addFile { state := .running, startedAt := start } with
          totalFiles := n, startedAt := t } :=
    fun n t => RepositoryResult.foldl_addFile_head n t fs { state := .running, startedAt := start }
  rw [hr, hr', h.contributed, h'.contributed, hhead, hhead]
  rfl

end

end CodeReview.Run
