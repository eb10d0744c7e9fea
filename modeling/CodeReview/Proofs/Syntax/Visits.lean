import CodeReview.Proofs.Syntax.Polling
import CodeReview.Syntax.Walk
/-!
# The visits of a walk

A walk with a work list makes the visits of the recursion, parents before children (`run_eq_along`), and polls its time
budget once for every 512 visits whose step has been taken (`fold_polled`, `collect_polled`).
-/
namespace CodeReview.Syntax

theorem preorders_eq (p : Option Node) (cs : List Node) : Node.preorders p cs = cs.flatMap (Node.preorder p) := by
  induction cs with
  | nil => rfl
  | cons c cs ih => rw [Node.preorders, ih, List.flatMap_cons]

mutual

theorem length_preorder : ∀ (n : Node) (p : Option Node), (n.preorder p).length = n.size
  | .mk l c cs, p => by rw [Node.preorder, List.length_cons, length_preorders cs]; rfl

theorem length_preorders : ∀ (cs : List Node) (p : Option Node), (Node.preorders p cs).length = Node.sizes cs
  | [], _ => rfl
  | c :: cs, p => by rw [Node.preorders, List.length_append, length_preorder c, length_preorders cs]; rfl

end

def visitsOf (todo : List Visit) : List Visit := todo.flatMap fun v => v.node.preorder v.parent

theorem visitsOf_cons (v : Visit) (rest : List Visit) : visitsOf (v :: rest) = v :: visitsOf (v.below ++ rest) := by
  obtain ⟨⟨l, c, cs⟩, p⟩ := v
  rw [visitsOf, visitsOf, List.flatMap_cons, List.flatMap_append, Visit.below, List.flatMap_map, Node.preorder,
    preorders_eq, List.cons_append]
  rfl

namespace Walk

variable {β : Type}

/-- Makes visits one after the other; `count` have been made. -/
def along (step : β → Visit → Except Failure β) : List Visit → Nat → β → Option Deadline → Walk β
  | [], _, state, dl => ⟨state, none, dl⟩
  | v :: vs, count, state, dl =>
    match step state v with
    | .error e => ⟨state, some e, dl⟩
    | .ok state =>
      match Deadline.poll (count + 1) dl with
      | (some e, dl) => ⟨state, some e, dl⟩
      | (none, dl) => along step vs (count + 1) state dl

/-- **A walk goes along the visits that its work list leads to.** -/
theorem run_eq_along (step : β → Visit → Except Failure β) (todo : List Visit) (count : Nat) (state : β)
    (dl : Option Deadline) : run step todo count state dl = along step (visitsOf todo) count state dl := by
  fun_induction run step todo count state dl with
  | case1 => rfl
  | case2 count state dl v rest e he => rw [visitsOf_cons, along, he]
  | case3 count state dl v rest state' he e dl' hp => rw [visitsOf_cons, along, he, hp]
  | case4 count state dl v rest state' he dl' hp ih => rw [visitsOf_cons, along, he, hp, ih]

theorem fold_eq_along (step : β → Visit → Except Failure β) (state : β) (root : Node) (dl : Option Deadline) :
    fold step state root dl = along step (root.preorder none) 0 state dl := by
  rw [fold, run_eq_along, visitsOf, List.flatMap_singleton]

/-- The number of visits whose step is taken. -/
def taken (step : β → Visit → Except Failure β) : List Visit → β → Nat
  | [], _ => 0
  | v :: vs, state =>
    match step state v with
    | .error _ => 0
    | .ok state => taken step vs state + 1

theorem along_none (step : β → Visit → Except Failure β) : ∀ (vs : List Visit) (count count' : Nat) (state : β),
    along step vs count state none = along step vs count' state none
  | [], _, _, _ => rfl
  | v :: vs, count, count', state => by
    rw [along, along]
    cases step state v with
    | error e => rfl
    | ok state' => exact along_none step vs (count + 1) (count' + 1) state'

theorem along_result (step : β → Visit → Except Failure β) : ∀ (vs : List Visit) (count : Nat) (state : β)
    (dl : Option Deadline),
    (along step vs count state dl).result =
      Deadline.outcome (along step vs 0 state none).result.1 (Deadline.pollOn count (taken step vs state) dl)
  | [], _, _, _ => rfl
  | v :: vs, count, state, dl => by
    rw [along, taken]
    cases hs : step state v with
    | error e => rw [along, hs]; rfl
    | ok state' =>
      dsimp only
      rw [Deadline.pollOn]
      rcases hp : Deadline.poll (count + 1) dl with ⟨_ | e, dl'⟩
      · dsimp only
        rw [along_result step vs (count + 1) state' dl', along, hs]
        -- without a budget the number of visits so far makes no difference
        dsimp only [Deadline.poll]
        rw [along_none step vs (0 + 1) 0 state']
      · rfl

/-- **A walk polls its time budget once for every 512 visits whose step is taken.** -/
theorem fold_polled (step : β → Visit → Except Failure β) (state : β) (root : Node) :
    Polled (fun dl => (fold step state root dl).result) (taken step (root.preorder none) state / 512) :=
  polled_of_pollOn (along step (root.preorder none) 0 state none).result.1 (fun dl => by
    rw [fold_eq_along, along_result])

theorem fold_sameOrSpent (step : β → Visit → Except Failure β) (state : β) (root : Node) :
    SameOrSpent fun dl => (fold step state root dl).result :=
  sameOrSpent_of_pollOn (along step (root.preorder none) 0 state none).result.1 (fun dl => by
    rw [fold_eq_along, along_result])

theorem taken_of_ok (f : β → Visit → β) : ∀ (vs : List Visit) (state : β),
    taken (fun s v => .ok (f s v)) vs state = vs.length
  | [], _ => rfl
  | v :: vs, state => congrArg (· + 1) (taken_of_ok f vs (f state v))

theorem fold_ok_polled (f : β → Visit → β) (state : β) (root : Node) :
    Polled (fun dl => (fold (fun s v => .ok (f s v)) state root dl).result) (root.size / 512) := by
  have h := fold_polled (fun s v => .ok (f s v)) state root
  rwa [taken_of_ok, length_preorder] at h

theorem fold_ok_none (f : β → Visit → β) (state : β) (root : Node) :
    (fold (fun s v => .ok (f s v)) state root none).result = (.ok ((root.preorder none).foldl f state), none) := by
  have h : ∀ (vs : List Visit) (count : Nat) (s : β),
      (along (fun s v => .ok (f s v)) vs count s none).result = (.ok (vs.foldl f s), none) := fun vs => by
    induction vs with
    | nil => intro _ _; rfl
    | cons v vs ih => intro count s; rw [along, List.foldl_cons]; exact ih (count + 1) (f s v)
  rw [fold_eq_along, h]

/-! ## Collecting -/

theorem collect_result {α : Type} (yield : Visit → Except Failure (List α)) (root : Node) (dl : Option Deadline) :
    (collect yield root dl).result =
      (let r := (fold (fun done v => (yield v).map fun new => new.reverse ++ done) [] root dl).result
       (r.1.map List.reverse, r.2)) := by
  rw [collect, result, result]
  cases (fold (fun done v => (yield v).map fun new => new.reverse ++ done) [] root dl).failure <;> rfl

theorem taken_collect {α : Type} (yield : Visit → Except Failure (List α)) : ∀ (vs : List Visit) (done : List α),
    taken (fun done v => (yield v).map fun new => new.reverse ++ done) vs done =
      (vs.takeWhile fun v => (yield v).toBool).length
  | [], _ => rfl
  | v :: vs, done => by
    rw [taken, List.takeWhile_cons]
    cases hy : yield v with
    | error e => rfl
    | ok new =>
      show taken _ vs (new.reverse ++ done) + 1 = (v :: vs.takeWhile fun v => (yield v).toBool).length
      exact congrArg (· + 1) (taken_collect yield vs (new.reverse ++ done))

/-- **Collecting polls once for every 512 visits up to the first that fails.** -/
theorem collect_polled {α : Type} (yield : Visit → Except Failure (List α)) (root : Node) :
    Polled (fun dl => (collect yield root dl).result)
      (((root.preorder none).takeWhile fun v => (yield v).toBool).length / 512) := by
  have h := (fold_polled (fun done v => (yield v).map fun new => new.reverse ++ done) [] root).map
    (fun out => out.map List.reverse) (fun _ => rfl)
  rw [taken_collect] at h
  simpa only [collect_result] using h

theorem collect_sameOrSpent {α : Type} (yield : Visit → Except Failure (List α)) (root : Node) :
    SameOrSpent fun dl => (collect yield root dl).result := by
  have h := (fold_sameOrSpent (fun done v => (yield v).map fun new => new.reverse ++ done) [] root).map
    (fun out => out.map List.reverse) (fun _ => rfl)
  simpa only [collect_result] using h

theorem along_failure (step : β → Visit → Except Failure β) : ∀ (vs : List Visit) (count : Nat) (state : β) (e : Failure),
    (along step vs count state none).failure = some e → ∃ s, ∃ v ∈ vs, step s v = .error e
  | [], _, _, _, h => by cases h
  | v :: vs, count, state, e, h => by
    rw [along] at h
    cases hs : step state v with
    | error e' =>
      rw [hs] at h
      cases h
      exact ⟨state, v, by simp, hs⟩
    | ok state' =>
      rw [hs] at h
      obtain ⟨s, w, hw, he⟩ := along_failure step vs (count + 1) state' e h
      exact ⟨s, w, by simp [hw], he⟩

theorem collect_error {α : Type} (yield : Visit → Except Failure (List α)) (root : Node) (e : Failure)
    (h : (collect yield root none).result.1 = .error e) : ∃ v ∈ root.preorder none, yield v = .error e := by
  have hf : (along (fun done v => (yield v).map fun new => new.reverse ++ done) (root.preorder none) 0 ([] : List α)
      none).failure = some e := by
    rw [collect, fold_eq_along, result] at h
    revert h
    cases (along (fun done v => (yield v).map fun new => new.reverse ++ done) (root.preorder none) 0 ([] : List α)
      none).failure with
    | none => intro h; cases h
    | some e' => intro h; cases h; rfl
  obtain ⟨s, v, hv, he⟩ := along_failure _ _ _ _ _ hf
  refine ⟨v, hv, ?_⟩
  cases hy : yield v with
  | error e' => rw [hy] at he; cases he; rfl
  | ok new => rw [hy] at he; cases he

theorem along_collected {α : Type} (yield : Visit → Except Failure (List α)) : ∀ (vs : List Visit) (count : Nat)
    (done : List α) (dl : Option Deadline),
    ∀ x ∈ (along (fun done v => (yield v).map fun new => new.reverse ++ done) vs count done dl).state,
      x ∈ done ∨ ∃ v ∈ vs, ∃ new, yield v = .ok new ∧ x ∈ new
  | [], _, _, _, x, hx => .inl hx
  | v :: vs, count, done, dl, x, hx => by
    rw [along] at hx
    cases hy : yield v with
    | error e =>
      rw [hy] at hx
      exact .inl hx
    | ok new =>
      rw [hy] at hx
      dsimp only [Except.map] at hx
      have hmade : x ∈ new.reverse ++ done → x ∈ done ∨ ∃ w ∈ v :: vs, ∃ new, yield w = .ok new ∧ x ∈ new := fun hm => by
        rcases List.mem_append.1 hm with hm | hm
        · exact .inr ⟨v, by simp, new, hy, List.mem_reverse.1 hm⟩
        · exact .inl hm
      rcases hp : Deadline.poll (count + 1) dl with ⟨_ | e, dl'⟩
      · rw [hp] at hx
        rcases along_collected yield vs (count + 1) (new.reverse ++ done) dl' x hx with hm | ⟨w, hw, h⟩
        · exact hmade hm
        · exact .inr ⟨w, by simp [hw], h⟩
      · rw [hp] at hx
        exact hmade hx

theorem along_collect_none {α : Type} (yield : Visit → Except Failure (List α)) : ∀ (vs : List Visit) (count : Nat)
    (done : List α),
    (along (fun done v => (yield v).map fun new => new.reverse ++ done) vs count done none).result =
      ((vs.mapM yield).map fun news => news.flatten.reverse ++ done, none)
  | [], _, _ => rfl
  | v :: vs, count, done => by
    rw [along, List.mapM_cons]
    cases hy : yield v with
    | error e => rfl
    | ok new =>
      refine (along_collect_none yield vs (count + 1) (new.reverse ++ done)).trans ?_
      cases vs.mapM yield with
      | error e => rfl
      | ok news =>
        show (Except.ok (news.flatten.reverse ++ (new.reverse ++ done)), none) =
          (Except.ok ((new :: news).flatten.reverse ++ done), none)
        rw [List.flatten_cons, List.reverse_append, List.append_assoc]

/-- **Without a time budget all that the visits yield is collected**, unless one of them fails. -/
theorem collect_none {α : Type} (yield : Visit → Except Failure (List α)) (root : Node) :
    (collect yield root none).result = (((root.preorder none).mapM yield).map List.flatten, none) := by
  rw [collect_result, fold_eq_along, along_collect_none]
  cases (root.preorder none).mapM yield with
  | error e => rfl
  | ok news =>
    show (Except.ok (news.flatten.reverse ++ []).reverse, none) = (Except.ok news.flatten, none)
    rw [List.append_nil, List.reverse_reverse]

/-- **What is collected has been yielded at a visit**, also where the walk fails in the end. -/
theorem collect_state_mem {α : Type} (yield : Visit → Except Failure (List α)) (root : Node) (dl : Option Deadline) :
    ∀ x ∈ (collect yield root dl).state, ∃ v ∈ root.preorder none, ∃ new, yield v = .ok new ∧ x ∈ new := by
  intro x hx
  rw [collect, fold_eq_along] at hx
  rcases along_collected yield (root.preorder none) 0 [] dl x (List.mem_reverse.1 hx) with hm | hm
  · cases hm
  · exact hm

theorem collect_state_of_ok {α : Type} {yield : Visit → Except Failure (List α)} {root : Node} {dl : Option Deadline}
    {xs : List α} (h : (collect yield root dl).result.1 = .ok xs) : (collect yield root dl).state = xs := by
  rw [result] at h
  cases hf : (collect yield root dl).failure with
  | some e => rw [hf] at h; cases h
  | none =>
    rw [hf] at h
    cases h
    rfl

theorem collect_mem {α : Type} {yield : Visit → Except Failure (List α)} {root : Node} {dl : Option Deadline}
    {xs : List α} (h : (collect yield root dl).result.1 = .ok xs) :
    ∀ x ∈ xs, ∃ v ∈ root.preorder none, ∃ new, yield v = .ok new ∧ x ∈ new := by
  rw [← collect_state_of_ok h]
  exact collect_state_mem yield root dl

end Walk
end CodeReview.Syntax
