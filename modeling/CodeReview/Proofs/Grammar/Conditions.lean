import CodeReview.Proofs.Grammar.WellFormed
import Mathlib.Logic.Relation
/-!
# Conditions

A condition is found among the children of a node by the type and the byte range of the condition field (`FirstSame`), and
then inside of its wrappers, each of which is left for its last child (`Enters`).  That ends on every tree
(`unwrap_reaches`), so what a canonical node tests stands strictly below it (`normal_conditioned`).
-/
namespace CodeReview.Grammar

open Syntax (Condition)

/-- One step of unwrapping: from a wrapper to its last child. -/
def Enters (a b : Syntax.Node) : Prop :=
  a.label.grammarType ∈ conditionWrappers ∧ a.children.getLast? = some b

theorem enters_wellFounded : WellFounded fun b a => Enters a b := by
  refine Subrelation.wf ?_ (measure fun n : Syntax.Node => sizeOf n).wf
  intro b a h
  obtain ⟨l, c, cs⟩ := a
  have hlt := sizeOf_getLast_lt h.2
  show sizeOf b < sizeOf (Syntax.Node.mk l c cs)
  simp only [Syntax.Node.children] at hlt
  simp only [Syntax.Node.mk.sizeOf_spec]
  omega

theorem unwrap_of_enters {a b : Syntax.Node} (h : Enters a b) : unwrap a = (a.children.length - 1) :: unwrap b := by
  obtain ⟨l, c, cs⟩ := a
  have hwrapper : l.grammarType ∈ conditionWrappers := h.1
  have hlast : cs.getLast? = some b := h.2
  rw [unwrap, if_pos (List.contains_iff_mem.2 hwrapper)]
  split
  · rename_i d hd
    rw [hlast] at hd
    cases hd
    rfl
  · rename_i hnone
    rw [hlast] at hnone
    cases hnone

theorem unwrap_of_not_enters {a : Syntax.Node} (h : ¬ ∃ b, Enters a b) : unwrap a = [] := by
  obtain ⟨l, c, cs⟩ := a
  rw [unwrap]
  split
  · rename_i hwrapper
    split
    · rename_i b hb
      exact absurd ⟨b, List.contains_iff_mem.1 hwrapper, hb⟩ h
    · rfl
  · rfl

/-- **Unwrapping ends below all wrappers.** -/
theorem unwrap_reaches (n : Syntax.Node) : ∃ test, n.at? (unwrap n) = some test ∧
    Relation.ReflTransGen Enters n test ∧ ¬ ∃ b, Enters test b := by
  -- only the last child is entered, so the induction is along the steps and not over the tree
  induction n using enters_wellFounded.induction with
  | _ a ih =>
    by_cases h : ∃ b, Enters a b
    · obtain ⟨b, hb⟩ := h
      obtain ⟨test, hat, hsteps, hend⟩ := ih b hb
      refine ⟨test, ?_, .head hb hsteps, hend⟩
      have hlast : a.children[a.children.length - 1]? = some b := by rw [← List.getLast?_eq_getElem?]; exact hb.2
      rw [unwrap_of_enters hb, Syntax.Node.at?, hlast]
      exact hat
    · exact ⟨a, by rw [unwrap_of_not_enters h]; rfl, .refl, h⟩

/-! ## The first child with a range -/

/-- The first of some concrete nodes that has the type and the byte range of a node, with its position. -/
structure FirstSame (kids : List Concrete.Node) (cond k : Concrete.Node) (i : Nat) : Prop where
  at_eq : kids[i]? = some k
  same : sameRange k.label cond.label = true
  first : ∀ j < i, ∀ k', kids[j]? = some k' → sameRange k'.label cond.label = false

theorem sameRange_self (l : Concrete.Label) : sameRange l l = true := by simp [sameRange]

section

variable {kids : List Concrete.Node} {cond k : Concrete.Node} {i : Nat}

theorem findIdx?_sameRange_iff :
    kids.findIdx? (fun k => sameRange k.label cond.label) = some i ↔ ∃ k, FirstSame kids cond k i := by
  rw [List.findIdx?_eq_some_iff_getElem]
  constructor
  · rintro ⟨hlt, hsame, hfirst⟩
    refine ⟨kids[i], List.getElem?_eq_getElem hlt, hsame, fun j hj k' hk' => ?_⟩
    obtain ⟨-, rfl⟩ := List.getElem?_eq_some_iff.1 hk'
    simpa using hfirst j hj
  · rintro ⟨k, hk, hsame, hfirst⟩
    obtain ⟨hlt, rfl⟩ := List.getElem?_eq_some_iff.1 hk
    refine ⟨hlt, hsame, fun j hj => ?_⟩
    have hno := hfirst j hj kids[j] (List.getElem?_eq_getElem (hj.trans hlt))
    simpa using hno

theorem exists_firstSame (h : cond ∈ kids) : ∃ k i, FirstSame kids cond k i := by
  cases hi : kids.findIdx? (fun k => sameRange k.label cond.label) with
  | none =>
    have hno := List.findIdx?_eq_none_iff.1 hi cond h
    rw [sameRange_self] at hno
    cases hno
  | some i =>
    obtain ⟨k, hk⟩ := findIdx?_sameRange_iff.1 hi
    exact ⟨k, i, hk⟩

/-- **Among nodes with different ranges a node finds itself.** -/
theorem FirstSame.eq_of_pairwise (h : FirstSame kids cond k i) (hmem : cond ∈ kids)
    (hdistinct : kids.Pairwise fun a b => sameRange a.label b.label = false) : k = cond := by
  obtain ⟨j, hj⟩ := List.mem_iff_getElem?.1 hmem
  -- the first node with the range is not before `cond`, whose range no other has, and not behind it, as it is the first
  rcases Nat.lt_trichotomy i j with hlt | rfl | hlt
  · obtain ⟨hi', hk⟩ := List.getElem?_eq_some_iff.1 h.at_eq
    obtain ⟨hj', hcond⟩ := List.getElem?_eq_some_iff.1 hj
    have hno := List.pairwise_iff_getElem.1 hdistinct i j hi' hj' hlt
    rw [hk, hcond, h.same] at hno
    cases hno
  · exact Option.some.inj (h.at_eq.symm.trans hj)
  · have hno := h.first j hlt cond hj
    rw [sameRange_self] at hno
    cases hno

end

/-! ## Conditions -/

variable {t : Table} {s : Source} {m : Concrete.Node}

/-- **A condition is below the first kept child with the range of the condition field**, inside its wrappers. -/
theorem condition?_eq_some_iff {c : Condition} :
    condition? m (kept m) ((kept m).map (normal t s)) = some c ↔ ∃ cond k i, m.field? "condition" = some cond ∧
      FirstSame (kept m) cond k i ∧ c = .inside (i :: unwrap (normal t s k)) := by
  unfold condition?
  constructor
  · intro h
    obtain ⟨cond, hcond, h⟩ := Option.bind_eq_some_iff.1 h
    obtain ⟨i, hi, h⟩ := Option.bind_eq_some_iff.1 h
    obtain ⟨child, hchild, h⟩ := Option.bind_eq_some_iff.1 h
    obtain ⟨k, hk⟩ := findIdx?_sameRange_iff.1 hi
    rw [List.getElem?_map, hk.at_eq] at hchild
    cases hchild
    cases h
    exact ⟨cond, k, i, hcond, hk, rfl⟩
  · rintro ⟨cond, k, i, hcond, hk, rfl⟩
    rw [hcond]
    show (((kept m).findIdx? fun k => sameRange k.label cond.label).bind fun i =>
      (((kept m).map (normal t s))[i]?).bind fun child => some (Condition.inside (i :: unwrap child))) = _
    rw [findIdx?_sameRange_iff.2 ⟨k, hk⟩, Option.bind_some, List.getElem?_map, hk.at_eq]
    rfl

/-- How a canonical node comes by its condition. -/
structure Conditioned (t : Table) (s : Source) (m : Concrete.Node) (n : Syntax.Node) : Prop where
  inside : ∀ c, n.condition = some c → (n.kind = .conditional ∨ n.kind = .whileLoop ∨ n.kind = .doLoop) ∧
    ∃ cond k i below test, m.field? "condition" = some cond ∧ FirstSame (kept m) cond k i ∧
      c = .inside (i :: below) ∧ n.children[i]? = some (normal t s k) ∧
      n.at? (i :: below) = some test ∧ n.test? = some test.label ∧
      Relation.ReflTransGen Enters (normal t s k) test ∧
      ¬ (test.label.grammarType ∈ conditionWrappers ∧ test.children ≠ [])
  absent : m.field? "condition" = none → n.condition = none
  present : n.kind = .conditional ∨ n.kind = .whileLoop ∨ n.kind = .doLoop →
    ∀ cond, m.field? "condition" = some cond → cond ∈ kept m → n.condition ≠ none
  exact : ∀ cond, m.field? "condition" = some cond → cond ∈ kept m →
    (kept m).Pairwise (fun a b => sameRange a.label b.label = false) →
    ∀ i below, n.condition = some (.inside (i :: below)) →
      (kept m)[i]? = some cond ∧ n.children[i]? = some (normal t s cond)

theorem normal_condition_some_iff {c : Condition} : (normal t s m).condition = some c ↔
    ((normal t s m).kind = .conditional ∨ (normal t s m).kind = .whileLoop ∨ (normal t s m).kind = .doLoop) ∧
      ∃ cond k i, m.field? "condition" = some cond ∧ FirstSame (kept m) cond k i ∧
        c = .inside (i :: unwrap (normal t s k)) := by
  rw [normal_condition_eq, normal_children, Option.ite_none_right_eq_some, condition?_eq_some_iff,
    normal_hasCondition_iff (s := s)]

theorem normal_child {k : Concrete.Node} {i : Nat} (h : (kept m)[i]? = some k) :
    (normal t s m).children[i]? = some (normal t s k) := by
  rw [normal_children, List.getElem?_map, h]
  rfl

/-- **The condition of every canonical node is the right one**, and comes from inside it. -/
theorem normal_conditioned (t : Table) (s : Source) (m : Concrete.Node) : Conditioned t s m (normal t s m) where
  inside c hc := by
    obtain ⟨hkind, cond, k, i, hcond, hk, rfl⟩ := normal_condition_some_iff.1 hc
    obtain ⟨test, hat, hsteps, hend⟩ := unwrap_reaches (normal t s k)
    have hchild : (normal t s m).children[i]? = some (normal t s k) := normal_child hk.at_eq
    have hbelow : (normal t s m).at? (i :: unwrap (normal t s k)) = some test := by
      rw [Syntax.Node.at?, hchild]
      exact hat
    have htest : (normal t s m).test? = some test.label := by
      rw [Syntax.Node.test?, hc]
      dsimp only
      rw [hbelow]
      rfl
    refine ⟨hkind, cond, k, i, _, test, hcond, hk, rfl, hchild, hbelow, htest, hsteps, ?_⟩
    rintro ⟨hwrapper, hne⟩
    exact hend ⟨_, hwrapper, List.getLast?_eq_some_getLast hne⟩
  absent hnone := by
    refine Option.eq_none_iff_forall_ne_some.2 fun c hc => ?_
    obtain ⟨-, cond, k, i, hcond, -⟩ := normal_condition_some_iff.1 hc
    rw [hnone] at hcond
    cases hcond
  present hkind cond hcond hmem hnone := by
    obtain ⟨k, i, hk⟩ := exists_firstSame hmem
    have hsome := normal_condition_some_iff.2 ⟨hkind, cond, k, i, hcond, hk, rfl⟩
    rw [hnone] at hsome
    cases hsome
  exact cond hcond hmem hdistinct i below hc := by
    obtain ⟨-, cond', k, i', hcond', hk, hpath⟩ := normal_condition_some_iff.1 hc
    cases hpath
    cases hcond.symm.trans hcond'
    have hsame : k = cond := hk.eq_of_pairwise hmem hdistinct
    subst hsame
    exact ⟨hk.at_eq, normal_child hk.at_eq⟩

/-- What a node tests stands strictly below it. -/
theorem Conditioned.exists_test {n : Syntax.Node} {l : Syntax.Label} (h : Conditioned t s m n) (ht : n.test? = some l) :
    ∃ below test, n.condition = some (.inside below) ∧ below ≠ [] ∧ n.at? below = some test ∧ test.label = l := by
  cases hc : n.condition with
  | none =>
    rw [Syntax.Node.test?, hc] at ht
    cases ht
  | some c =>
    obtain ⟨-, _, _, i, below, test, -, -, rfl, -, hat, htest, -⟩ := h.inside c hc
    rw [htest] at ht
    exact ⟨i :: below, test, rfl, List.cons_ne_nil i below, hat, Option.some.inj ht⟩

/-- The condition of every node of a canonical tree is the right one. -/
theorem normal_conditioned_at {tree : Concrete.Node} {path : List Nat} {n : Syntax.Node}
    (h : (normal t s tree).at? path = some n) : ∃ m, keptAt? tree path = some m ∧ Conditioned t s m n := by
  rw [normal_at?] at h
  obtain ⟨m, hm, rfl⟩ := Option.map_eq_some_iff.1 h
  exact ⟨m, hm, normal_conditioned t s m⟩

end CodeReview.Grammar
