import CodeReview.Proofs.Run.Course
/-!
# The calls of a run

What a run calls is read off its accounts.  It reads the entries whose language is one that is analyzed (`Ran.reads`), it
hands the files of its result to the sink (`Ran.writes`), and each call of an observer that fails has left one error
(`Ran.failures`).
-/
namespace CodeReview.Run

def Call.path? : Call → Option String
  | .read path => some path
  | _ => none

def Call.written? : Call → Option FileResult
  | .write r _ => some r
  | _ => none

def Entry.isAnalyzed (e : Entry) : Bool := (Language.ofPath? e.path).isSome

theorem length_heardErrors (component : String) (filePath : Option String) (failure : Option Failure) :
    (heardErrors component filePath failure).length = if failure.isSome = true then 1 else 0 := by
  cases failure <;> rfl

namespace Account

variable {σ : Type} {o : Observers σ} {analyze : Analyze} {total n : Nat} {x : Account}

theorem calls_reads (x : Account) (total : Nat) (h : x.contribution.Of analyze x.entry) (m : Nat) :
    (x.calls total m).filterMap Call.path? = if x.entry.isAnalyzed = true then [x.entry.path] else [] := by
  have hcalls : (x.calls total m).filterMap Call.path? =
      (x.contribution.calls x.entry.path x.sink.isSome).filterMap Call.path? := by
    rw [calls, List.cons_append, List.filterMap_cons, List.filterMap_append]
    exact List.append_nil _
  rw [hcalls, Entry.isAnalyzed]
  generalize x.contribution = c at h
  cases h with
  | skipped hl => rw [hl]; rfl
  | unread hl _ => rw [hl]; rfl
  | crashed hl _ _ => rw [hl]; rfl
  | added hl _ _ => rw [hl]; rfl

theorem calls_writes (x : Account) (m : Nat) : (x.calls total m).filterMap Call.written? = x.contribution.files := by
  have hcalls : (x.calls total m).filterMap Call.written? =
      (x.contribution.calls x.entry.path x.sink.isSome).filterMap Call.written? := by
    rw [calls, List.cons_append, List.filterMap_cons, List.filterMap_append]
    exact List.append_nil _
  rw [hcalls]
  cases x.contribution <;> rfl

theorem calls_failures (h : x.Holds o analyze total n) (m : Nat) :
    (x.calls total m).countP Call.failed = x.heard.length := by
  have hcalls : (x.calls total m).countP Call.failed =
      (x.contribution.calls x.entry.path x.sink.isSome).countP Call.failed +
        if x.progress.isSome = true then 1 else 0 := by
    rw [calls, List.cons_append, List.countP_cons, List.countP_append, List.countP_singleton]
    rfl
  have hsink : (x.contribution.calls x.entry.path x.sink.isSome).countP Call.failed =
      if x.sink.isSome = true then 1 else 0 := by
    have hs := h.sink
    revert hs
    cases x.contribution with
    | skipped => intro hs; rw [show x.sink = none from hs]; rfl
    | refused e => intro hs; rw [show x.sink = none from hs]; rfl
    | added r => intro _; cases x.sink <;> rfl
  rw [hcalls, hsink, heard, List.length_append, length_heardErrors, length_heardErrors]

end Account

theorem callsOf_reads {analyze : Analyze} (total : Nat) : ∀ (xs : List Account) (n : Nat),
    (∀ x ∈ xs, x.contribution.Of analyze x.entry) →
    (callsOf total n xs).filterMap Call.path? = ((xs.map (·.entry)).filter Entry.isAnalyzed).map (·.path)
  | [], _, _ => rfl
  | x :: xs, n, h => by
    have hx := x.calls_reads total (h x (by simp)) n
    have ih := callsOf_reads total xs (n + 1) (fun y hy => h y (by simp [hy]))
    rw [callsOf, List.filterMap_append, hx, ih, List.map_cons, List.filter_cons]
    cases x.entry.isAnalyzed <;> rfl

theorem callsOf_writes {total : Nat} : ∀ (xs : List Account) (n : Nat),
    (callsOf total n xs).filterMap Call.written? = xs.flatMap (·.contribution.files)
  | [], _ => rfl
  | x :: xs, n => by rw [callsOf, List.filterMap_append, x.calls_writes, callsOf_writes xs, List.flatMap_cons]

theorem callsOf_failures {σ : Type} {o : Observers σ} {analyze : Analyze} {total : Nat} :
    ∀ (xs : List Account) (n : Nat), (∀ x ∈ xs, ∃ n, x.Holds o analyze total n) →
    (callsOf total n xs).countP Call.failed = (xs.flatMap (·.heard)).length
  | [], _, _ => rfl
  | x :: xs, n, h => by
    obtain ⟨m, hx⟩ := h x (by simp)
    rw [callsOf, List.countP_append, Account.calls_failures hx, List.flatMap_cons, List.length_append,
      callsOf_failures xs (n + 1) (fun y hy => h y (by simp [hy]))]

theorem lastLook_reads (how : Except Failure RunState) : (lastLook how).filterMap Call.path? = [] := by
  unfold lastLook
  split <;> rfl

theorem lastLook_writes (how : Except Failure RunState) : (lastLook how).filterMap Call.written? = [] := by
  unfold lastLook
  split <;> rfl

theorem lastLook_failures (how : Except Failure RunState) : (lastLook how).countP Call.failed = 0 := by
  unfold lastLook
  split <;> rfl

section

variable {σ : Type} {o : Observers σ} {analyze : Analyze} {total : Nat} {entries : List Entry} {state : RunState}
  {out : Outcome σ} {r : RepositoryResult} {xs : List Account} {progress sink : Option Failure}

/-- **A run reads the entries it goes through** whose language is one that is analyzed, in order. -/
theorem Ran.reads (h : Ran o analyze total entries state out r xs progress sink) :
    out.calls.filterMap Call.path? = (entries.filter Entry.isAnalyzed).map (·.path) := by
  obtain ⟨r₀, hcalls⟩ := h.calls
  rw [hcalls, List.filterMap_append, List.filterMap_append, callsOf_reads _ xs 0 h.contribution_of, lastLook_reads,
    List.append_nil, h.course]
  exact List.append_nil _

/-- **A run hands the files of its result to the sink**, in order. -/
theorem Ran.writes (h : Ran o analyze total entries state out r xs progress sink) :
    out.calls.filterMap Call.written? = r.files := by
  obtain ⟨r₀, hcalls⟩ := h.calls
  rw [hcalls, List.filterMap_append, List.filterMap_append, callsOf_writes, lastLook_writes, List.append_nil, h.files_eq]
  exact List.append_nil _

/-- **Each call of an observer that fails has left one error.** -/
theorem Ran.failures (h : Ran o analyze total entries state out r xs progress sink) :
    out.calls.countP Call.failed = (xs.flatMap (·.heard)).length + (heardErrors "progress" none progress).length +
      (heardErrors "sink" none sink).length := by
  obtain ⟨r₀, hcalls⟩ := h.calls
  rw [hcalls, List.countP_append, List.countP_append, callsOf_failures xs 0 h.holds, lastLook_failures,
    length_heardErrors, length_heardErrors, Nat.add_zero, Nat.add_assoc]
  cases progress <;> cases sink <;> rfl

/-- **The errors of a run** are as many as its entries contribute and as calls of observers have failed. -/
theorem Ran.errors_length (h : Ran o analyze total entries state out r xs progress sink) :
    r.errors.length = ((Run.contributions analyze {} entries).flatMap (·.errors)).length + out.calls.countP Call.failed := by
  have haccounts : (xs.flatMap (·.errors)).length =
      (xs.flatMap (·.contribution.errors)).length + (xs.flatMap (·.heard)).length := by
    clear h
    induction xs with
    | nil => rfl
    | cons x xs ih =>
      rw [List.flatMap_cons, List.flatMap_cons, List.flatMap_cons, List.length_append, List.length_append,
        List.length_append, ih, x.errors_eq, List.length_append]
      omega
  have hcontributed : xs.flatMap (·.contribution.errors) = (Run.contributions analyze {} entries).flatMap (·.errors) := by
    rw [← h.contributions, List.flatMap_map]
  rw [h.errors, List.length_append, List.length_append, haccounts, h.failures, hcontributed]
  omega

end

end CodeReview.Run
