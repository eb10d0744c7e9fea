import CodeReview.Proofs.Grammar.Choice
import CodeReview.Proofs.Grammar.Made
/-!
# Well-formed trees

What a node of a canonical tree says goes with its kind (`WellFormed`): errors are error nodes, logical nodes are binary ones
with a logical operator, and operators, names, numbers of elements and conditions stand only where they mean something.  That
holds of every node of every tree that a parse returns, and below the root there are no comments (`parsed_wellFormed`).
-/
namespace CodeReview.Grammar

open Syntax (Deadline Kind)

/-- What the canonical node of a concrete one says. -/
structure WellFormed (t : Table) (s : Source) (m : Concrete.Node) (n : Syntax.Node) : Prop where
  type_eq : n.label.grammarType = m.label.type
  error_iff : n.kind = .error ↔ m.label.isError = true
  logical_iff : n.kind = .logical ↔
    m.label.isError = false ∧ t.kindOf m.label.type = .binary ∧ ∃ op ∈ ["&&", "||", "??"], operator? s m = some op
  binary : n.kind = .binary → ∀ op ∈ ["&&", "||", "??"], n.label.operator ≠ some op
  operator_eq : n.kind = .binary ∨ n.kind = .logical → n.label.operator = operator? s m
  operator : n.label.operator ≠ none → n.kind = .binary ∨ n.kind = .logical
  keyword : n.label.operator ≠ some "and" ∧ n.label.operator ≠ some "or"
  identifier : n.kind = .identifier → n.label.name ≠ none
  name : n.label.name ≠ none → n.kind = .identifier ∨ n.kind = .call ∨ n.kind = .member
  elements : n.label.elementCount = if n.kind = .array then some (n.children.length : Int) else none
  condition : n.condition ≠ none → n.kind = .conditional ∨ n.kind = .whileLoop ∨ n.kind = .doLoop

/-! ## Kinds -/

/-- The kind of a concrete node before its operator is looked at. -/
def mappedKind (t : Table) (m : Concrete.Node) : Kind := if m.label.isError then .error else t.kindOf m.label.type

theorem kindOf_tableOf (l : Language) (type : String) :
    (tableOf l).kindOf type ≠ .error ∧ (tableOf l).kindOf type ≠ .logical := by
  have hall : ∀ k ∈ (tableOf l).kinds.map (·.2), k ≠ .error ∧ k ≠ .logical := by
    cases l <;> decide
  rw [Table.kindOf]
  cases hk : (tableOf l).kinds.lookup type with
  | none => exact ⟨by decide, by decide⟩
  | some k =>
    obtain ⟨xs, ys, hkinds, -⟩ := List.lookup_eq_some_iff.1 hk
    exact hall k (by rw [hkinds]; simp)

variable {t : Table} {s : Source}

section

variable {m : Concrete.Node}

theorem normal_type : (normal t s m).label.grammarType = m.label.type := by
  rw [normal_eq]
  rfl

theorem normal_operator : (normal t s m).label.operator = if mappedKind t m == .binary then operator? s m else none := by
  rw [normal_eq]
  rfl

theorem normal_kind : (normal t s m).kind =
    if ((normal t s m).label.operator.map logicalOperators.contains).getD false then .logical else mappedKind t m := by
  rw [normal_eq]
  rfl

theorem normal_name : (normal t s m).label.name = name? t s m (mappedKind t m) := by
  rw [normal_eq]
  rfl

theorem normal_elementCount : (normal t s m).label.elementCount =
    if mappedKind t m == .array then some ((normal t s m).children.length : Int) else none := by
  rw [normal_children, normal_eq]
  rfl

theorem normal_condition_eq : (normal t s m).condition =
    if (mappedKind t m).hasCondition then condition? m (kept m) (normal t s m).children else none := by
  rw [normal_children, normal_eq]
  rfl

/-- **The operator of a binary node decides whether it is a logical one**, and no other node has an operator. -/
theorem normal_kind_cases :
    (mappedKind t m = .binary ∧ (normal t s m).label.operator = operator? s m ∧
      ((∃ op ∈ logicalOperators, operator? s m = some op) ∧ (normal t s m).kind = .logical ∨
        (∀ op ∈ logicalOperators, operator? s m ≠ some op) ∧ (normal t s m).kind = .binary)) ∨
    mappedKind t m ≠ .binary ∧ (normal t s m).label.operator = none ∧ (normal t s m).kind = mappedKind t m := by
  by_cases hbinary : mappedKind t m = .binary
  · have hop : (normal t s m).label.operator = operator? s m := by
      rw [normal_operator, hbinary]
      rfl
    refine .inl ⟨hbinary, hop, ?_⟩
    by_cases hlogical : ∃ op ∈ logicalOperators, operator? s m = some op
    · refine .inl ⟨hlogical, ?_⟩
      obtain ⟨op, hmem, hsome⟩ := hlogical
      rw [normal_kind, hop, hsome]
      exact if_pos (List.contains_iff_mem.2 hmem)
    · have hnone : ∀ op ∈ logicalOperators, operator? s m ≠ some op := fun op hmem h => hlogical ⟨op, hmem, h⟩
      refine .inr ⟨hnone, ?_⟩
      rw [normal_kind, hop, hbinary]
      refine if_neg fun h => ?_
      cases hsome : operator? s m with
      | none => rw [hsome] at h; cases h
      | some op =>
        rw [hsome] at h
        exact hnone op (List.contains_iff_mem.1 h) hsome
  · have hop : (normal t s m).label.operator = none := by
      rw [normal_operator]
      exact if_neg fun h => hbinary (beq_iff_eq.1 h)
    refine .inr ⟨hbinary, hop, ?_⟩
    rw [normal_kind, hop]
    rfl

theorem normal_kind_iff {k : Kind} (hb : k ≠ .binary) (hl : k ≠ .logical) :
    (normal t s m).kind = k ↔ mappedKind t m = k := by
  rcases normal_kind_cases (t := t) (s := s) (m := m) with ⟨hk, -, ⟨-, hkind⟩ | ⟨-, hkind⟩⟩ | ⟨-, -, hkind⟩
  · rw [hkind, hk]
    exact ⟨fun h => absurd h.symm hl, fun h => absurd h.symm hb⟩
  · rw [hkind, hk]
  · rw [hkind]

theorem normal_hasCondition_iff : (mappedKind t m).hasCondition = true ↔
    (normal t s m).kind = .conditional ∨ (normal t s m).kind = .whileLoop ∨ (normal t s m).kind = .doLoop := by
  rw [normal_kind_iff (by decide) (by decide), normal_kind_iff (by decide) (by decide),
    normal_kind_iff (by decide) (by decide)]
  cases mappedKind t m <;> simp [Kind.hasCondition]

theorem operatorOf_ne (text : String) : operatorOf text ≠ "and" ∧ operatorOf text ≠ "or" := by
  unfold operatorOf
  by_cases hand : (text == "and") = true
  · rw [if_pos hand]
    exact ⟨by decide, by decide⟩
  · rw [if_neg hand]
    by_cases hor : (text == "or") = true
    · rw [if_pos hor]
      exact ⟨by decide, by decide⟩
    · rw [if_neg hor]
      exact ⟨fun h => hand (beq_iff_eq.2 h), fun h => hor (beq_iff_eq.2 h)⟩

theorem operator?_ne : operator? s m ≠ some "and" ∧ operator? s m ≠ some "or" := by
  unfold operator?
  constructor
  · intro h
    obtain ⟨c, -, hc⟩ := Option.map_eq_some_iff.1 h
    exact (operatorOf_ne _).1 hc
  · intro h
    obtain ⟨c, -, hc⟩ := Option.map_eq_some_iff.1 h
    exact (operatorOf_ne _).2 hc

theorem name?_kind {k : Kind} (h : name? t s m k ≠ none) : k = .identifier ∨ k = .call ∨ k = .member := by
  cases k <;> simp [name?] at h ⊢

end

/-- **Every canonical node is well-formed**, if the table leaves errors and logical nodes to the normalization. -/
theorem normal_wellFormed (ht : ∀ type, t.kindOf type ≠ .error ∧ t.kindOf type ≠ .logical) (s : Source)
    (m : Concrete.Node) : WellFormed t s m (normal t s m) := by
  have herror : mappedKind t m = .error ↔ m.label.isError = true := by
    unfold mappedKind
    cases m.label.isError <;> simp [(ht m.label.type).1]
  have hnotLogical : mappedKind t m ≠ .logical := by
    unfold mappedKind
    cases m.label.isError <;> simp [(ht m.label.type).2]
  have hbinary : mappedKind t m = .binary ↔ m.label.isError = false ∧ t.kindOf m.label.type = .binary := by
    unfold mappedKind
    cases m.label.isError <;> simp
  -- the first case is that of a binary node, be it a logical one or not; the second that of all others
  have hcases := normal_kind_cases (t := t) (s := s) (m := m)
  exact {
    type_eq := normal_type
    error_iff := (normal_kind_iff (by decide) (by decide)).trans herror
    logical_iff := by
      rw [← and_assoc, ← hbinary]
      rcases hcases with ⟨hk, -, ⟨hop, hkind⟩ | ⟨hop, hkind⟩⟩ | ⟨hk, -, hkind⟩
      · exact ⟨fun _ => ⟨hk, hop⟩, fun _ => hkind⟩
      · refine ⟨fun h => ?_, fun ⟨_, op, hmem, h⟩ => absurd h (hop op hmem)⟩
        rw [hkind] at h
        cases h
      · exact ⟨fun h => absurd (hkind ▸ h) hnotLogical, fun h => absurd h.1 hk⟩
    binary := by
      intro h op hmem
      rcases hcases with ⟨-, hsame, ⟨-, hkind⟩ | ⟨hop, -⟩⟩ | ⟨hk, -, hkind⟩
      · rw [hkind] at h
        cases h
      · rw [hsame]
        exact hop op hmem
      · exact absurd (hkind ▸ h) hk
    operator_eq := by
      intro h
      rcases hcases with ⟨-, hop, -⟩ | ⟨hk, -, hkind⟩
      · exact hop
      · rw [hkind] at h
        rcases h with h | h
        · exact absurd h hk
        · exact absurd h hnotLogical
    operator := by
      intro h
      rcases hcases with ⟨-, -, ⟨-, hkind⟩ | ⟨-, hkind⟩⟩ | ⟨-, hop, -⟩
      · exact .inr hkind
      · exact .inl hkind
      · exact absurd hop h
    keyword := by
      rcases hcases with ⟨-, hop, -⟩ | ⟨-, hop, -⟩
      · rw [hop]
        exact operator?_ne
      · rw [hop]
        exact ⟨by decide, by decide⟩
    identifier := by
      intro h
      rw [normal_name, (normal_kind_iff (by decide) (by decide)).1 h]
      simp [name?]
    name := by
      intro h
      rw [normal_name] at h
      rw [normal_kind_iff (by decide) (by decide), normal_kind_iff (by decide) (by decide),
        normal_kind_iff (by decide) (by decide)]
      exact name?_kind h
    elements := by
      rw [normal_elementCount]
      simp only [beq_iff_eq, normal_kind_iff (k := .array) (by decide) (by decide)]
    condition := by
      intro h
      rw [normal_condition_eq] at h
      exact normal_hasCondition_iff.1 (ite_ne_right_iff.1 h).1 }

/-- Below the root of a canonical tree there are no comments. -/
theorem keptAt?_type : ∀ {path : List Nat} {n m : Concrete.Node}, path ≠ [] → keptAt? n path = some m →
    m.label.type ∉ commentTypes
  | [], _, _, h, _ => absurd rfl h
  | i :: path, n, m, _, h => by
    obtain ⟨c, hc, hm⟩ := Option.bind_eq_some_iff.1 h
    have hkept : isKept c = true := (List.mem_filter.1 (List.mem_of_getElem? hc)).2
    cases path with
    | nil =>
      cases hm
      have hno := (Bool.and_eq_true_iff.1 hkept).2
      simpa using hno
    | cons j path => exact keptAt?_type (List.cons_ne_nil j path) hm

/-- **Every tree that a parse returns is well-formed.**  It has been made of the tree of a grammar of the language; each node
of it is that of a node of this tree, says what goes with its kind, and is no comment unless it is the root. -/
theorem parsed_wellFormed (host : Host) (tolerant : Bool) (session : Session) (text language : String)
    (dl : Option Deadline) (root : Syntax.Node)
    (h : (parse host tolerant session text language dl).1.outcome = .ok root) :
    ∃ l g tree, Language.ofName? language = some l ∧ g ∈ (tableOf l).grammars ∧ host.tree g text = .ok tree ∧
      ∀ path n, root.at? path = some n → ∃ m, keptAt? tree path = some m ∧
        WellFormed (tableOf l) (Source.ofText text) m n ∧ (path ≠ [] → n.label.grammarType ∉ commentTypes) := by
  obtain ⟨l, g, tree, hl, hg, htree, rfl⟩ := exists_made h
  refine ⟨l, g, tree, hl, hg, htree, fun path n hn => ?_⟩
  rw [normal_at?] at hn
  obtain ⟨m, hm, rfl⟩ := Option.map_eq_some_iff.1 hn
  refine ⟨m, hm, normal_wellFormed (kindOf_tableOf l) _ m, fun hpath => ?_⟩
  rw [normal_type]
  exact keptAt?_type hpath hm

def leafOf (type : String) (start stop : Int) (named : Bool) (field : Option String) : Concrete.Node :=
  .mk ⟨type, start, stop, named, false, false, field, ⟨0, start⟩, ⟨0, stop⟩, false⟩ []

/-- What a grammar of Python makes of `a and b`. -/
def conjunction : Concrete.Node :=
  .mk ⟨"boolean_operator", 0, 7, true, false, false, none, ⟨0, 0⟩, ⟨0, 7⟩, false⟩
    [leafOf "identifier" 0 1 true (some "left"), leafOf "and" 2 5 false (some "operator"),
      leafOf "identifier" 6 7 true (some "right")]

def conjunctionModule : Concrete.Node :=
  .mk ⟨"module", 0, 7, true, false, false, none, ⟨0, 0⟩, ⟨0, 7⟩, false⟩ [conjunction]

/-- A conjunction is a logical node, with the symbol for its operator. -/
theorem conjunction_logical : ∃ root n,
    (parse (.constant conjunctionModule) false {} "a and b" "python" none).1.outcome = .ok root ∧ root.at? [0] = some n ∧
    n.kind = .logical ∧ n.label.operator = some "&&" := by
  have hroot : (parse (.constant conjunctionModule) false {} "a and b" "python" none).1.outcome =
      .ok (normal (tableOf .python) (Source.ofText "a and b") conjunctionModule) :=
    (Host.constant_makes conjunctionModule "a and b" _).parseAfter_outcome (l := .python) false []
  obtain ⟨l, g, tree, hl, -, htree, hall⟩ := parsed_wellFormed _ _ _ _ _ _ _ hroot
  cases htree
  have hpython : l = .python := Option.some.inj (hl.symm.trans (ofName?_name .python))
  subst hpython
  obtain ⟨m, hm, hformed, -⟩ := hall [0] (normal (tableOf .python) (Source.ofText "a and b") conjunction) rfl
  cases hm
  have hand : operator? (Source.ofText "a and b") conjunction = some "&&" := by decide +kernel
  have hlogical := hformed.logical_iff.2 ⟨rfl, by decide, "&&", by decide, hand⟩
  exact ⟨_, _, hroot, rfl, hlogical, (hformed.operator_eq (.inr hlogical)).trans hand⟩

end CodeReview.Grammar
