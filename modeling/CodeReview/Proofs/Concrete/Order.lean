import CodeReview.Concrete.Node
/-!
# The order of a document

The nodes of a concrete tree, parents before children and children from left to right (`Node.nodes`).  The search for the
first error finds a node that is an error or missing, or else reports the start of the tree (`exists_reported`).  Where
each node tells truly whether it or one below it is an error or missing, what the search passes over has none: it finds
the first of all such nodes (`exists_first`).
-/
namespace CodeReview.Concrete

namespace Node

mutual

def nodes : Node → List Node
  | mk l cs => mk l cs :: nodesOf cs

def nodesOf : List Node → List Node
  | [] => []
  | c :: cs => nodes c ++ nodesOf cs

end

theorem nodes_eq (n : Node) : n.nodes = n :: nodesOf n.children := by
  obtain ⟨l, cs⟩ := n
  rfl

theorem mem_nodesOf {m : Node} : ∀ {cs : List Node}, m ∈ nodesOf cs ↔ ∃ c ∈ cs, m ∈ c.nodes
  | [] => by simp [nodesOf]
  | c :: cs => by simp [nodesOf, mem_nodesOf]

theorem nodesOf_append (xs ys : List Node) : nodesOf (xs ++ ys) = nodesOf xs ++ nodesOf ys := by
  induction xs with
  | nil => rfl
  | cons x xs ih => rw [List.cons_append, nodesOf, nodesOf, ih, List.append_assoc]

def isFault (n : Node) : Bool := n.label.isMissing || n.label.isError

/-- That each node of a tree tells truly whether it or one below it is an error or missing. -/
def Truthful (root : Node) : Prop := ∀ n ∈ root.nodes, n.label.hasError = n.isFaulty

theorem fault?_eq_none {n : Node} : n.label.fault? = none ↔ n.isFault = false := by
  unfold Label.fault? isFault
  cases n.label.isMissing <;> cases n.label.isError <;> simp

mutual

theorem isFault_of_isFaulty : ∀ {n : Node}, n.isFaulty = false → ∀ m ∈ n.nodes, m.isFault = false
  | mk l cs, h, m, hm => by
    simp only [isFaulty, Bool.or_eq_false_iff] at h
    rcases List.mem_cons.1 hm with rfl | hm
    · simp [isFault, label, h]
    · exact isFault_of_anyFaulty h.2 m hm

theorem isFault_of_anyFaulty : ∀ {cs : List Node}, anyFaulty cs = false → ∀ m ∈ nodesOf cs, m.isFault = false
  | [], _, m, hm => by cases hm
  | c :: cs, h, m, hm => by
    simp only [anyFaulty, Bool.or_eq_false_iff] at h
    rcases List.mem_append.1 hm with hm | hm
    · exact isFault_of_isFaulty h.1 m hm
    · exact isFault_of_anyFaulty h.2 m hm

end

mutual

theorem exists_isFault : ∀ {n : Node}, n.isFaulty = true → ∃ m ∈ n.nodes, m.isFault = true
  | mk l cs, h => by
    rw [isFaulty, Bool.or_eq_true] at h
    rcases h with h | h
    · exact ⟨mk l cs, List.mem_cons_self .., by rwa [Bool.or_comm] at h⟩
    · obtain ⟨m, hm, hfault⟩ := exists_isFault_of_any h
      exact ⟨m, List.mem_cons_of_mem _ hm, hfault⟩

theorem exists_isFault_of_any : ∀ {cs : List Node}, anyFaulty cs = true → ∃ m ∈ nodesOf cs, m.isFault = true
  | [], h => by cases h
  | c :: cs, h => by
    rw [anyFaulty, Bool.or_eq_true] at h
    rcases h with h | h
    · obtain ⟨m, hm, hfault⟩ := exists_isFault h
      exact ⟨m, List.mem_append_left _ hm, hfault⟩
    · obtain ⟨m, hm, hfault⟩ := exists_isFault_of_any h
      exact ⟨m, List.mem_append_right _ hm, hfault⟩

end

end Node

open Node (nodesOf)

/-! ## The search for the first error -/

theorem nodesOf_entered_subset (l : Label) (cs : List Node) : ∀ m ∈ nodesOf (l.entered cs), m ∈ nodesOf cs := by
  intro m hm
  unfold Label.entered at hm
  split at hm
  · exact hm
  · cases hm

theorem exists_of_firstFaultIn {todo : List Node} {f : Located} (h : firstFaultIn todo = some f) :
    ∃ m ∈ nodesOf todo, m.label.fault? = some f := by
  fun_induction firstFaultIn todo with
  | case1 => cases h
  | case2 l cs rest f' hf => exact ⟨.mk l cs, List.mem_cons_self .., hf.trans h⟩
  | case3 l cs rest hf ih =>
    obtain ⟨m, hm, hfault⟩ := ih h
    rw [Node.nodesOf_append, List.mem_append] at hm
    refine ⟨m, ?_, hfault⟩
    rcases hm with hm | hm
    · exact List.mem_cons_of_mem _ (List.mem_append_left _ (nodesOf_entered_subset l cs m hm))
    · exact List.mem_append_right _ hm

/-- What is passed over has no fault, if the node tells truly that there is none. -/
theorem findSome?_entered {l : Label} {cs : List Node} (h : l.hasError = Node.isFaulty (.mk l cs)) :
    (nodesOf (l.entered cs)).findSome? (·.label.fault?) = (nodesOf cs).findSome? (·.label.fault?) := by
  unfold Label.entered
  split
  · rfl
  · rename_i hno
    have hclean : Node.isFaulty (.mk l cs) = false := by rwa [← h, ← Bool.not_eq_true]
    symm
    exact List.findSome?_eq_none_iff.2 fun m hm =>
      Node.fault?_eq_none.2 (Node.isFault_of_isFaulty hclean m (List.mem_cons_of_mem _ hm))

/-- **The search finds the first fault in the order of the document**, if the nodes tell truly where faults are. -/
theorem firstFaultIn_eq {todo : List Node} (h : ∀ n ∈ nodesOf todo, n.label.hasError = n.isFaulty) :
    firstFaultIn todo = (nodesOf todo).findSome? (·.label.fault?) := by
  fun_induction firstFaultIn todo with
  | case1 => rfl
  | case2 l cs rest f hf =>
    symm
    exact List.findSome?_eq_some_iff.2 ⟨[], .mk l cs, _, rfl, hf, fun x hx => (by cases hx)⟩
  | case3 l cs rest hf ih =>
    have hnodes : nodesOf (.mk l cs :: rest) = .mk l cs :: (nodesOf cs ++ nodesOf rest) := rfl
    have hskip : (Node.mk l cs).label.fault? = none := hf
    rw [hnodes] at h ⊢
    have hbelow : ∀ n ∈ nodesOf (l.entered cs ++ rest), n.label.hasError = n.isFaulty := by
      intro n hn
      rw [Node.nodesOf_append, List.mem_append] at hn
      refine h n (List.mem_cons_of_mem _ (List.mem_append.2 ?_))
      exact hn.imp_left (nodesOf_entered_subset l cs n)
    have hl : l.hasError = Node.isFaulty (.mk l cs) := h _ (List.mem_cons_self ..)
    rw [ih hbelow, Node.nodesOf_append, List.findSome?_append, findSome?_entered hl, List.findSome?_cons, hskip,
      List.findSome?_append]

theorem nodesOf_root (root : Node) : nodesOf [root] = root.nodes := by rw [nodesOf, nodesOf, List.append_nil]

theorem Label.fault?_point {l : Label} {f : Located} (h : l.fault? = some f) : f.point = l.startPoint := by
  unfold Label.fault? at h
  split at h
  · cases h
    rfl
  · split at h
    · cases h
      rfl
    · cases h

/-- **What is reported is a fault of the tree**, or else the start of the tree. -/
theorem exists_reported (root : Node) : ∃ m ∈ root.nodes, (firstFault root).point = m.label.startPoint ∧
    (m.label.fault? = some (firstFault root) ∨ m = root ∧ (firstFault root).fault = .unlocated) := by
  unfold firstFault
  cases h : firstFaultIn [root] with
  | none => exact ⟨root, by rw [Node.nodes_eq]; exact List.mem_cons_self .., rfl, .inr ⟨rfl, rfl⟩⟩
  | some f =>
    obtain ⟨m, hm, hfault⟩ := exists_of_firstFaultIn h
    rw [nodesOf_root] at hm
    exact ⟨m, hm, Label.fault?_point hfault, .inl hfault⟩

/-- **The first fault in the order of the document is reported**, if the nodes tell truly where faults are. -/
theorem exists_first {root : Node} (h : root.Truthful) (herror : root.label.hasError = true) :
    ∃ before m after, root.nodes = before ++ m :: after ∧ (∀ b ∈ before, b.isFault = false) ∧ m.isFault = true ∧
      m.label.fault? = some (firstFault root) := by
  have hroot : root ∈ root.nodes := by rw [Node.nodes_eq]; exact List.mem_cons_self ..
  obtain ⟨x, hx, hxfault⟩ := Node.exists_isFault (n := root) (by rw [← h root hroot, herror])
  have hsearch : firstFaultIn [root] = root.nodes.findSome? (·.label.fault?) := by
    rw [firstFaultIn_eq (by rwa [nodesOf_root]), nodesOf_root]
  cases hf : root.nodes.findSome? (·.label.fault?) with
  | none =>
    rw [List.findSome?_eq_none_iff] at hf
    rw [Node.fault?_eq_none.1 (hf x hx)] at hxfault
    cases hxfault
  | some f =>
    obtain ⟨before, m, after, hnodes, hm, hbefore⟩ := List.findSome?_eq_some_iff.1 hf
    have hfirst : firstFault root = f := by rw [firstFault, hsearch, hf]; rfl
    refine ⟨before, m, after, hnodes, fun b hb => Node.fault?_eq_none.1 (hbefore b hb), ?_, by rw [hfirst, hm]⟩
    cases hno : m.isFault with
    | true => rfl
    | false =>
      rw [Node.fault?_eq_none.2 hno] at hm
      cases hm

end CodeReview.Concrete
