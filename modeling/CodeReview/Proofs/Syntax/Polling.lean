import CodeReview.Syntax.Deadline
import Mathlib.Data.Nat.Find
/-!
# Polling

What a computation makes of a time budget that it polls after each of its steps.  The polls after `n` steps are
`n / 512` looks at the clock (`pollOn_some`), and looks one after the other end at the first that finds the budget
spent (`lookOn_cases`).  `Polled` says of a computation that a budget either changes nothing or ends it so; `Timely`
says the same without the number of looks, and `ComesTo` names what the computation comes to.
-/
namespace CodeReview.Syntax
theorem spentFailure_eq (b : Number.Quantity) :
    spentFailure b = if b.toFloat?.isSome = true then .timeout b else .hugeInteger := by
  unfold spentFailure
  cases b.toFloat? <;> rfl

namespace Deadline

def after (d : Deadline) (k : Nat) : Deadline := { d with looks := d.looks + k }

/-- Whether the budget is found spent by the look that comes after `k` further ones. -/
def spentAt (d : Deadline) (k : Nat) : Bool := d.expiresAt.atMost (d.clock (d.looks + k))

@[simp] theorem after_budget (d : Deadline) (k : Nat) : (d.after k).budget = d.budget := rfl

@[simp] theorem after_after (d : Deadline) (j k : Nat) : (d.after j).after k = d.after (j + k) := by
  simp only [after, Nat.add_assoc]

@[simp] theorem spentAt_after (d : Deadline) (j k : Nat) : (d.after j).spentAt k = d.spentAt (j + k) := by
  simp only [after, spentAt, Nat.add_assoc]

theorem check_eq (d : Deadline) :
    d.check = (if d.spentAt 0 then some (spentFailure d.budget) else none, d.after 1) := rfl

/-! ## Looks one after the other -/

/-- What a number of looks come to, the first that finds the budget spent being the last. -/
def lookOn : Nat → Deadline → Option Failure × Deadline
  | 0, d => (none, d)
  | m + 1, d => if d.spentAt 0 then (some (spentFailure d.budget), d.after 1) else lookOn m (d.after 1)

theorem lookOn_of_unspent : ∀ (m : Nat) (d : Deadline), (∀ j < m, d.spentAt j = false) → lookOn m d = (none, d.after m)
  | 0, _, _ => rfl
  | m + 1, d, h => by
    have h0 : d.spentAt 0 = false := h 0 (by omega)
    have hrest : ∀ j < m, (d.after 1).spentAt j = false := fun j hj => by
      rw [spentAt_after]
      exact h (1 + j) (by omega)
    rw [lookOn, h0, lookOn_of_unspent m (d.after 1) hrest, after_after, Nat.add_comm 1 m]
    rfl

theorem lookOn_of_first : ∀ (m k : Nat) (d : Deadline), k < m → d.spentAt k = true → (∀ j < k, d.spentAt j = false) →
    lookOn m d = (some (spentFailure d.budget), d.after (k + 1))
  | 0, _, _, hk, _, _ => absurd hk (Nat.not_lt_zero _)
  | m + 1, 0, d, _, hs, _ => by rw [lookOn, if_pos hs]
  | m + 1, k + 1, d, hk, hs, hu => by
    have h0 : d.spentAt 0 = false := hu 0 (by omega)
    have hs' : (d.after 1).spentAt k = true := by rw [spentAt_after, Nat.add_comm]; exact hs
    have hu' : ∀ j < k, (d.after 1).spentAt j = false := fun j hj => by
      rw [spentAt_after]
      exact hu (1 + j) (by omega)
    rw [lookOn, h0, lookOn_of_first m k (d.after 1) (by omega) hs' hu', after_after, Nat.add_comm 1 (k + 1)]
    rfl

/-- **Looks at a clock end at the first that finds the budget spent**, and if none does, with the last. -/
theorem lookOn_cases (m : Nat) (d : Deadline) :
    ((∀ j < m, d.spentAt j = false) ∧ lookOn m d = (none, d.after m)) ∨
      ∃ k < m, d.spentAt k = true ∧ (∀ j < k, d.spentAt j = false) ∧
        lookOn m d = (some (spentFailure d.budget), d.after (k + 1)) := by
  by_cases h : ∃ k, k < m ∧ d.spentAt k = true
  · right
    -- the first look that finds the budget spent: no later one takes place
    let k := Nat.find h
    obtain ⟨hk, hs⟩ : k < m ∧ d.spentAt k = true := Nat.find_spec h
    have hu : ∀ j < k, d.spentAt j = false := fun j hj => by
      have := Nat.find_min h hj
      simpa [Nat.lt_trans hj hk] using this
    exact ⟨k, hk, hs, hu, lookOn_of_first m k d hk hs hu⟩
  · left
    have hu : ∀ j < m, d.spentAt j = false := fun j hj => by
      cases hs : d.spentAt j with
      | false => rfl
      | true => exact absurd ⟨j, hj, hs⟩ h
    exact ⟨hu, lookOn_of_unspent m d hu⟩

/-! ## Polls after the steps of a computation -/

/-- What the polls after the steps `count + 1` to `count + n` come to. -/
def pollOn (count : Nat) : Nat → Option Deadline → Option Failure × Option Deadline
  | 0, dl => (none, dl)
  | n + 1, dl =>
    match poll (count + 1) dl with
    | (some e, dl) => (some e, dl)
    | (none, dl) => pollOn (count + 1) n dl

theorem pollOn_none : ∀ (n count : Nat), pollOn count n none = (none, none)
  | 0, _ => rfl
  | n + 1, count => pollOn_none n (count + 1)

theorem poll_of_dvd {steps : Nat} (h : steps % 512 = 0) (d : Deadline) :
    poll steps (some d) = (if d.spentAt 0 then some (spentFailure d.budget) else none, some (d.after 1)) := by
  simp only [poll, pollInterval, h, check_eq, beq_self_eq_true, if_true]

theorem poll_of_not_dvd {steps : Nat} (h : steps % 512 ≠ 0) (d : Deadline) : poll steps (some d) = (none, some d) := by
  simp only [poll, pollInterval, beq_iff_eq, h, if_false]

/-- **The polls after a number of steps are looks at the clock**, one for each multiple of 512 that is passed. -/
theorem pollOn_some : ∀ (n count : Nat) (d : Deadline),
    pollOn count n (some d) = ((lookOn ((count + n) / 512 - count / 512) d).1,
      some (lookOn ((count + n) / 512 - count / 512) d).2)
  | 0, count, d => by rw [Nat.add_zero, Nat.sub_self]; rfl
  | n + 1, count, d => by
    rw [pollOn]
    by_cases h : (count + 1) % 512 = 0
    · have hm : (count + (n + 1)) / 512 - count / 512 = (count + 1 + n) / 512 - (count + 1) / 512 + 1 := by omega
      rw [poll_of_dvd h, hm, lookOn]
      cases hs : d.spentAt 0 with
      | true => rfl
      | false => exact pollOn_some n (count + 1) (d.after 1)
    · have hm : (count + (n + 1)) / 512 - count / 512 = (count + 1 + n) / 512 - (count + 1) / 512 := by omega
      rw [poll_of_not_dvd h, hm]
      exact pollOn_some n (count + 1) d

/-- What a computation with an outcome of its own comes to, given what its polls come to. -/
def outcome {α : Type} (out : Except Failure α) :
    Option Failure × Option Deadline → Except Failure α × Option Deadline
  | (some e, dl) => (.error e, dl)
  | (none, dl) => (out, dl)

/-- Steps that each make one thing, with a poll after each: what the polls come to, and what has been made. -/
def pollAll {α : Type} (made : List α) :
    List α → Option Deadline → (Option Failure × Option Deadline) × List α
  | [], dl => ((none, dl), made)
  | x :: xs, dl =>
    match poll (made.length + 1) dl with
    | (some e, dl) => ((some e, dl), made ++ [x])
    | (none, dl) => pollAll (made ++ [x]) xs dl

theorem pollAll_none {α : Type} : ∀ (xs made : List α), pollAll made xs none = ((none, none), made ++ xs)
  | [], made => by rw [List.append_nil]; rfl
  | x :: xs, made => by rw [List.append_cons]; exact pollAll_none xs (made ++ [x])

theorem pollAll_append {α : Type} : ∀ (xs ys made : List α) (dl : Option Deadline),
    pollAll made (xs ++ ys) dl =
      match pollAll made xs dl with
      | ((some e, dl), made) => ((some e, dl), made)
      | ((none, dl), made) => pollAll made ys dl
  | [], _, _, _ => rfl
  | x :: xs, ys, made, dl => by
    rw [List.cons_append, pollAll, pollAll]
    rcases poll (made.length + 1) dl with ⟨_ | e, dl⟩
    · exact pollAll_append xs ys (made ++ [x]) dl
    · rfl

theorem pollAll_fst {α : Type} : ∀ (xs made : List α) (dl : Option Deadline),
    (pollAll made xs dl).1 = pollOn made.length xs.length dl
  | [], _, _ => rfl
  | x :: xs, made, dl => by
    rw [pollAll, List.length_cons, pollOn]
    rcases poll (made.length + 1) dl with ⟨_ | e, dl⟩
    · have h := pollAll_fst xs (made ++ [x]) dl
      rw [List.length_append] at h
      exact h
    · rfl

theorem pollAll_snd {α : Type} : ∀ (xs made : List α) (dl : Option Deadline), (pollAll made xs dl).1.1 = none →
    (pollAll made xs dl).2 = made ++ xs
  | [], made, _, _ => by rw [List.append_nil]; rfl
  | x :: xs, made, dl, h => by
    rw [pollAll] at h ⊢
    rw [List.append_cons made x xs]
    rcases hp : poll (made.length + 1) dl with ⟨_ | e, dl⟩
    · rw [hp] at h
      exact pollAll_snd xs (made ++ [x]) dl h
    · rw [hp] at h
      cases h

theorem pollAll_of_unspent {α : Type} (xs : List α) (d : Deadline) (h : ∀ j < xs.length / 512, d.spentAt j = false) :
    pollAll [] xs (some d) = ((none, some (d.after (xs.length / 512))), xs) := by
  have hfst : (pollAll [] xs (some d)).1 = (none, some (d.after (xs.length / 512))) := by
    rw [pollAll_fst, List.length_nil, pollOn_some, Nat.zero_add, Nat.zero_div, Nat.sub_zero,
      lookOn_of_unspent _ d h]
  have hsnd : (pollAll [] xs (some d)).2 = xs := pollAll_snd xs [] (some d) (by rw [hfst])
  exact Prod.ext hfst hsnd

/-- **A budget that is found spent ends the steps at a multiple of 512**, with what has been made up to there. -/
theorem pollAll_of_first {α : Type} : ∀ (xs made : List α) (k : Nat) (d : Deadline),
    k < (made.length + xs.length) / 512 - made.length / 512 → d.spentAt k = true → (∀ j < k, d.spentAt j = false) →
    pollAll made xs (some d) = ((some (spentFailure d.budget), some (d.after (k + 1))),
      (made ++ xs).take (512 * (made.length / 512 + k + 1)))
  | [], made, k, d, hk, _, _ => by simp at hk
  | x :: xs, made, k, d, hk, hs, hu => by
    have hlen : (made ++ [x]).length = made.length + 1 := by simp
    rw [List.length_cons] at hk
    rw [pollAll, List.append_cons made x xs]
    -- a step either completes 512 and is looked at, or leaves the number of looks as it is
    by_cases h : (made.length + 1) % 512 = 0
    · rw [poll_of_dvd h]
      cases k with
      | zero =>
        have hn : 512 * (made.length / 512 + 0 + 1) = (made ++ [x]).length := by omega
        rw [hs, hn, List.take_left]
        rfl
      | succ k =>
        have h0 : d.spentAt 0 = false := hu 0 (by omega)
        rw [h0]
        have hn : 512 * (made.length / 512 + (k + 1) + 1) = 512 * ((made ++ [x]).length / 512 + k + 1) := by omega
        have ih := pollAll_of_first xs (made ++ [x]) k (d.after 1) (by omega)
          (by rw [spentAt_after, Nat.add_comm]; exact hs)
          (fun j hj => by rw [spentAt_after]; exact hu (1 + j) (by omega))
        rw [after_after, Nat.add_comm 1 (k + 1), after_budget] at ih
        rw [hn]
        exact ih
    · have hn : 512 * (made.length / 512 + k + 1) = 512 * ((made ++ [x]).length / 512 + k + 1) := by omega
      rw [poll_of_not_dvd h, hn]
      exact pollAll_of_first xs (made ++ [x]) k d (by omega) hs hu

end Deadline

/-! ## Computations that poll -/

/-- A computation within a time budget, which it gives back as it was left. -/
abbrev Budgeted (α : Type) := Option Deadline → Except Failure α × Option Deadline

/-- A computation that looks at a time budget `m` times.  Without a budget none comes up; with one the outcome is the
same, or the timeout of the budget at the first look that finds it spent. -/
structure Polled {α : Type} (run : Budgeted α) (m : Nat) : Prop where
  free : (run none).2 = none
  unspent : ∀ d, d.budget.toFloat?.isSome = true → (∀ j < m, d.spentAt j = false) →
    run (some d) = ((run none).1, some (d.after m))
  spent : ∀ d k, d.budget.toFloat?.isSome = true → k < m → d.spentAt k = true → (∀ j < k, d.spentAt j = false) →
    run (some d) = (.error (.timeout d.budget), some (d.after (k + 1)))

/-- A computation that uses a time budget only to look at it, and ends with the timeout of the budget where it does not
end as it would without one. -/
structure Timely {α : Type} (run : Budgeted α) : Prop where
  free : (run none).2 = none
  within : ∀ d, d.budget.toFloat?.isSome = true →
    ∃ k, run (some d) = ((run none).1, some (d.after k)) ∨
      run (some d) = (.error (.timeout d.budget), some (d.after k))

def Budgeted.andThen {α β : Type} (run : Budgeted α) (next : α → Budgeted β) : Budgeted β :=
  fun dl =>
    match run dl with
    | (.error e, dl) => (.error e, dl)
    | (.ok a, dl) => next a dl

section

variable {α β : Type} {run : Budgeted α} {next : α → Budgeted β} {m n : Nat}

theorem Polled.timely (h : Polled run m) : Timely run where
  free := h.free
  within d ht := by
    rcases Deadline.lookOn_cases m d with ⟨hu, -⟩ | ⟨k, hk, hs, hu, -⟩
    · exact ⟨m, .inl (h.unspent d ht hu)⟩
    · exact ⟨k + 1, .inr (h.spent d k ht hk hs hu)⟩

theorem Timely.error_of_ok (h : Timely run) {d : Deadline} (ht : d.budget.toFloat?.isSome = true) {a : α}
    (ha : (run none).1 = .ok a) {e : Failure} (he : (run (some d)).1 = .error e) : e = .timeout d.budget := by
  obtain ⟨k, hk | hk⟩ := h.within d ht
  · rw [hk, ha] at he
    cases he
  · rw [hk] at he
    cases he
    rfl

theorem Polled.map (h : Polled run m) (f : Except Failure α → Except Failure β)
    (hf : ∀ b, f (.error (.timeout b)) = .error (.timeout b)) : Polled (fun dl => (f (run dl).1, (run dl).2)) m where
  free := h.free
  unspent d ht hu := by rw [h.unspent d ht hu]
  spent d k ht hk hs hu := by rw [h.spent d k ht hk hs hu, hf]

theorem Timely.map (h : Timely run) (f : Except Failure α → Except Failure β)
    (hf : ∀ b, f (.error (.timeout b)) = .error (.timeout b)) : Timely (fun dl => (f (run dl).1, (run dl).2)) where
  free := h.free
  within d ht := by
    obtain ⟨k, hk | hk⟩ := h.within d ht
    · exact ⟨k, .inl (by rw [hk])⟩
    · exact ⟨k, .inr (by rw [hk, hf])⟩

theorem polled_pure (out : Except Failure α) : Polled (fun dl => (out, dl)) 0 where
  free := rfl
  unspent _ _ _ := rfl
  spent _ _ _ hk := absurd hk (Nat.not_lt_zero _)

/-- A computation whose failures by a budget are those of the polls after `n` steps. -/
theorem polled_of_pollOn (out : Except Failure α)
    (h : ∀ dl, run dl = Deadline.outcome out (Deadline.pollOn 0 n dl)) : Polled run (n / 512) where
  free := by rw [h none, Deadline.pollOn_none]; rfl
  unspent d _ hu := by
    rw [h (some d), h none, Deadline.pollOn_none, Deadline.pollOn_some, Nat.zero_add, Nat.zero_div, Nat.sub_zero,
      Deadline.lookOn_of_unspent _ d hu]
    rfl
  spent d k ht hk hs hu := by
    rw [h (some d), Deadline.pollOn_some, Nat.zero_add, Nat.zero_div, Nat.sub_zero,
      Deadline.lookOn_of_first _ k d hk hs hu, spentFailure_eq, if_pos ht]
    rfl

theorem andThen_none (hf : (run none).2 = none) {a : α} (ha : (run none).1 = .ok a) :
    run.andThen next none = next a none := by
  have hrun : run none = (.ok a, none) := Prod.ext ha hf
  rw [Budgeted.andThen, hrun]

/-- **The looks of one computation after another add up**, if the first does not fail by itself. -/
theorem Polled.andThen (h : Polled run m) {a : α} (ha : (run none).1 = .ok a) (hn : Polled (next a) n) :
    Polled (run.andThen next) (m + n) where
  free := by rw [andThen_none h.free ha]; exact hn.free
  unspent d ht hu := by
    have hm : ∀ j < m, d.spentAt j = false := fun j hj => hu j (by omega)
    have hn' : ∀ j < n, (d.after m).spentAt j = false := fun j hj => by
      rw [Deadline.spentAt_after]
      exact hu (m + j) (by omega)
    rw [andThen_none h.free ha, Budgeted.andThen, h.unspent d ht hm, ha]
    dsimp only
    rw [hn.unspent (d.after m) ht hn', Deadline.after_after]
  spent d k ht hk hs hu := by
    by_cases hkm : k < m
    · rw [Budgeted.andThen, h.spent d k ht hkm hs hu]
    · have hm : ∀ j < m, d.spentAt j = false := fun j hj => hu j (by omega)
      have hs' : (d.after m).spentAt (k - m) = true := by
        rw [Deadline.spentAt_after, Nat.add_sub_cancel' (by omega)]
        exact hs
      have hu' : ∀ j < k - m, (d.after m).spentAt j = false := fun j hj => by
        rw [Deadline.spentAt_after]
        exact hu (m + j) (by omega)
      have hlen : m + (k - m + 1) = k + 1 := by omega
      rw [Budgeted.andThen, h.unspent d ht hm, ha]
      dsimp only
      rw [hn.spent (d.after m) (k - m) ht (by omega) hs' hu', Deadline.after_after, hlen, Deadline.after_budget]

/-- **One timely computation after another is timely.** -/
theorem Timely.andThen (h : Timely run) (hn : ∀ a, Timely (next a)) : Timely (run.andThen next) where
  free := by
    rcases hr : run none with ⟨_ | a, dl⟩
    · rw [Budgeted.andThen, hr]
      exact (congrArg Prod.snd hr).symm.trans h.free
    · rw [andThen_none h.free (congrArg Prod.fst hr)]
      exact (hn a).free
  within d ht := by
    obtain ⟨k, hk | hk⟩ := h.within d ht
    · rw [Budgeted.andThen, Budgeted.andThen, hk]
      rcases hr : run none with ⟨e | a, dl⟩
      · exact ⟨k, .inl rfl⟩
      · have hdl : dl = none := (congrArg Prod.snd hr).symm.trans h.free
        obtain ⟨k', hk'⟩ := (hn a).within (d.after k) ht
        rw [Deadline.after_after, Deadline.after_budget] at hk'
        rw [hdl]
        exact ⟨k + k', hk'⟩
    · rw [Budgeted.andThen, Budgeted.andThen, hk]
      exact ⟨k, .inr rfl⟩

end

/-! ## Time budgets in the range of doubles -/

/-- Whether a time budget, where there is one, is in the range of doubles. -/
def InRange (dl : Option Deadline) : Prop := ∀ d ∈ dl, d.budget.toFloat?.isSome = true

/-- A computation that gives back what is left of a time budget in range, and no budget where none was given. -/
def KeepsBudget {β : Type} (run : Option Deadline → β × Option Deadline) : Prop :=
  ∀ dl, InRange dl → (run dl).2.map (·.budget) = dl.map (·.budget)

theorem inRange_none : InRange none := fun _ h => by cases h

theorem InRange.budgets {dl : Option Deadline} (h : InRange dl) : ∀ b ∈ dl.map (·.budget), b.toFloat?.isSome = true := by
  intro b hb
  obtain ⟨d, hd, rfl⟩ := Option.map_eq_some_iff.1 hb
  exact h d hd

section

variable {β : Type} {run : Option Deadline → β × Option Deadline}

theorem KeepsBudget.inRange (h : KeepsBudget run) {dl : Option Deadline} (hdl : InRange dl) : InRange (run dl).2 := by
  intro d hd
  have hbudget : (run dl).2.map (·.budget) = some d.budget := congrArg (Option.map (·.budget)) (Option.mem_def.1 hd)
  rw [h dl hdl] at hbudget
  obtain ⟨d', hd', hsame⟩ := Option.map_eq_some_iff.1 hbudget
  rw [← hsame]
  exact hdl d' hd'

theorem KeepsBudget.free (h : KeepsBudget run) : (run none).2 = none := Option.map_eq_none_iff.1 (h none inRange_none)

end

/-- **What is timely keeps its time budget.** -/
theorem Timely.keepsBudget {α : Type} {run : Budgeted α} (h : Timely run) : KeepsBudget run := by
  intro dl hdl
  cases dl with
  | none => rw [h.free]
  | some d =>
    obtain ⟨k, hk | hk⟩ := h.within d (hdl d rfl)
    · rw [hk]
      rfl
    · rw [hk]
      rfl

/-! ## Failures -/

theorem Deadline.pollOn_failure {n count : Nat} {dl : Option Deadline} {e : Failure} (h : (pollOn count n dl).1 = some e) :
    ∃ d, dl = some d ∧ e = spentFailure d.budget := by
  cases dl with
  | none =>
    rw [pollOn_none] at h
    cases h
  | some d =>
    refine ⟨d, rfl, ?_⟩
    rw [pollOn_some] at h
    rcases lookOn_cases ((count + n) / 512 - count / 512) d with ⟨-, hlook⟩ | ⟨k, -, -, -, hlook⟩
    · rw [hlook] at h
      cases h
    · rw [hlook] at h
      exact (Option.some.inj h).symm

/-- A computation that comes to what it does without a time budget, or to the failure of its budget. -/
def SameOrSpent {α : Type} (run : Budgeted α) : Prop :=
  ∀ dl, (run dl).1 = (run none).1 ∨ ∃ d, dl = some d ∧ (run dl).1 = .error (spentFailure d.budget)

section

variable {α β : Type} {run : Budgeted α} {n : Nat}

theorem sameOrSpent_of_pollOn (out : Except Failure α)
    (h : ∀ dl, run dl = Deadline.outcome out (Deadline.pollOn 0 n dl)) : SameOrSpent run := by
  intro dl
  have hfree : (run none).1 = out := by
    rw [h none, Deadline.pollOn_none]
    rfl
  rw [h dl, hfree]
  rcases hp : Deadline.pollOn 0 n dl with ⟨_ | e, dl'⟩
  · exact .inl rfl
  · obtain ⟨d, hd, he⟩ := Deadline.pollOn_failure (congrArg Prod.fst hp)
    exact .inr ⟨d, hd, congrArg Except.error he⟩

theorem SameOrSpent.map (h : SameOrSpent run) (f : Except Failure α → Except Failure β)
    (hf : ∀ e, f (.error e) = .error e) : SameOrSpent fun dl => (f (run dl).1, (run dl).2) := by
  intro dl
  dsimp only
  rcases h dl with hsame | ⟨d, hd, hspent⟩
  · exact .inl (by rw [hsame])
  · exact .inr ⟨d, hd, by rw [hspent, hf]⟩

end

/-! ## Computations with an outcome of their own -/

/-- A computation that under a budget comes to one outcome, however much of the budget is left, unless it finds the budget
spent; and it gives the budget back. -/
def ComesTo {α : Type} (budget : Option Number.Quantity) (run : Budgeted α) (out : Except Failure α) : Prop :=
  ∀ dl, dl.map (·.budget) = budget → (run dl).2.map (·.budget) = budget ∧
    ((run dl).1 = out ∨ ∃ b ∈ budget, (run dl).1 = .error (.timeout b))

section

variable {α β : Type} {budget : Option Number.Quantity} {run : Budgeted α} {next : α → Budgeted β}

theorem comesTo_pure (out : Except Failure α) : ComesTo budget (fun dl => (out, dl)) out :=
  fun _ hdl => ⟨hdl, .inl rfl⟩

theorem ComesTo.map {out : Except Failure α} (h : ComesTo budget run out) (f : Except Failure α → Except Failure β)
    (hf : ∀ b, f (.error (.timeout b)) = .error (.timeout b)) :
    ComesTo budget (fun dl => (f (run dl).1, (run dl).2)) (f out) := by
  intro dl hdl
  obtain ⟨hleft, hsame | ⟨b, hb, hspent⟩⟩ := h dl hdl
  · exact ⟨hleft, .inl (congrArg f hsame)⟩
  · exact ⟨hleft, .inr ⟨b, hb, (congrArg f hspent).trans (hf b)⟩⟩

/-- **One computation after another comes to what the second comes to**, if the first does not fail. -/
theorem ComesTo.andThen {a : α} {out : Except Failure β} (h : ComesTo budget run (.ok a))
    (hn : ComesTo budget (next a) out) : ComesTo budget (run.andThen next) out := by
  intro dl hdl
  obtain ⟨hleft, hsame | ⟨b, hb, hspent⟩⟩ := h dl hdl
  · have hrun : run dl = (.ok a, (run dl).2) := Prod.ext hsame rfl
    rw [Budgeted.andThen, hrun]
    exact hn _ hleft
  · have hrun : run dl = (.error (.timeout b), (run dl).2) := Prod.ext hspent rfl
    rw [Budgeted.andThen, hrun]
    exact ⟨hleft, .inr ⟨b, hb, rfl⟩⟩

/-- Under a budget in the range of doubles a computation comes to what it does without one, if only the budget keeps it from
that. -/
theorem SameOrSpent.comesTo (h : SameOrSpent run) (hk : KeepsBudget run)
    (hb : ∀ b ∈ budget, b.toFloat?.isSome = true) : ComesTo budget run (run none).1 := by
  intro dl hdl
  have hin : InRange dl := fun d hd => by
    cases hd
    exact hb d.budget (by rw [← hdl]; rfl)
  refine ⟨(hk dl hin).trans hdl, ?_⟩
  rcases h dl with hsame | ⟨d, hd, hspent⟩
  · exact .inl hsame
  · refine .inr ⟨d.budget, by rw [← hdl, hd]; rfl, ?_⟩
    rw [hspent, spentFailure_eq, if_pos (hin d hd)]

end

end CodeReview.Syntax
