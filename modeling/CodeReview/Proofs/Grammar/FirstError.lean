import CodeReview.Grammar.Parser
import CodeReview.Proofs.Concrete.Order
import Mathlib.Data.Int.Order.Basic
import Mathlib.Order.Basic
/-!
# The first error

A strict parser tells of the first node of the document that is an error or missing (`first_fault_reported`).  If the children
of each node stand within it and one after the other, the nodes of a document start in its order (`starts_sorted`), so that
none that is an error or missing starts before the one that is told of.
-/
namespace CodeReview

namespace Concrete

/-! ## Where nodes stand -/

/-- That one node stands within another, by an order of the places in a text. -/
structure Within {α : Type} [Preorder α] (start stop : Label → α) (inner outer : Label) : Prop where
  starts : start outer ≤ start inner
  ordered : start inner ≤ stop inner
  stops : stop inner ≤ stop outer

namespace Node

variable {α : Type} [Preorder α] {start stop : Label → α}

theorem mem_nodes_self (n : Node) : n ∈ n.nodes := by
  rw [nodes_eq]
  exact List.mem_cons_self ..

/-- That the children of each node of a tree stand within it, one after the other. -/
structure Spread (start stop : Label → α) (root : Node) : Prop where
  within : ∀ n ∈ root.nodes, ∀ c ∈ n.children, Within start stop c.label n.label
  apart : ∀ n ∈ root.nodes, n.children.Pairwise fun a b => stop a.label ≤ start b.label

theorem Spread.child {n c : Node} (h : n.Spread start stop) (hc : c ∈ n.children) : c.Spread start stop := by
  have hbelow : ∀ m ∈ c.nodes, m ∈ n.nodes := fun m hm => by
    rw [nodes_eq]
    exact List.mem_cons_of_mem _ (mem_nodesOf.2 ⟨c, hc, hm⟩)
  exact ⟨fun m hm => h.within m (hbelow m hm), fun m hm => h.apart m (hbelow m hm)⟩

def AreSpread (start stop : Label → α) (cs : List Node) : Prop :=
  ∀ c ∈ cs, c.Spread start stop ∧ start c.label ≤ stop c.label

theorem Spread.children {n : Node} (h : n.Spread start stop) : AreSpread start stop n.children :=
  fun c hc => ⟨h.child hc, (h.within n n.mem_nodes_self c hc).ordered⟩

mutual

theorem within_of_mem : ∀ {n : Node}, n.Spread start stop → start n.label ≤ stop n.label → ∀ x ∈ n.nodes,
    Within start stop x.label n.label
  | mk l cs, h, hordered, x, hx => by
    rcases List.mem_cons.1 hx with rfl | hx
    · exact ⟨le_rfl, hordered, le_rfl⟩
    · obtain ⟨c, hc, hxc⟩ := exists_within h.children x hx
      have hcn := h.within _ (mem_nodes_self _) c hc
      exact ⟨hcn.starts.trans hxc.starts, hxc.ordered, hxc.stops.trans hcn.stops⟩

theorem exists_within : ∀ {cs : List Node}, AreSpread start stop cs → ∀ x ∈ nodesOf cs,
    ∃ c ∈ cs, Within start stop x.label c.label
  | [], _, x, hx => by cases hx
  | c :: cs, h, x, hx => by
    obtain ⟨hc, hrest⟩ := List.forall_mem_cons.1 h
    rcases List.mem_append.1 hx with hx | hx
    · exact ⟨c, List.mem_cons_self .., within_of_mem hc.1 hc.2 x hx⟩
    · obtain ⟨d, hd, hxd⟩ := exists_within hrest x hx
      exact ⟨d, List.mem_cons_of_mem c hd, hxd⟩

end

mutual

/-- **The nodes of a document start in its order**, if children stand within their parents, one after the other. -/
theorem starts_sorted : ∀ {n : Node}, n.Spread start stop → n.nodes.Pairwise fun a b => start a.label ≤ start b.label
  | mk l cs, h => by
    rw [nodes, List.pairwise_cons]
    refine ⟨fun x hx => ?_, startsOf_sorted h.children (h.apart _ (mem_nodes_self _))⟩
    obtain ⟨c, hc, hxc⟩ := exists_within h.children x hx
    exact (h.within _ (mem_nodes_self _) c hc).starts.trans hxc.starts

theorem startsOf_sorted : ∀ {cs : List Node}, AreSpread start stop cs →
    cs.Pairwise (fun a b => stop a.label ≤ start b.label) →
    (nodesOf cs).Pairwise fun a b => start a.label ≤ start b.label
  | [], _, _ => .nil
  | c :: cs, h, hapart => by
    obtain ⟨hc, hrest⟩ := List.forall_mem_cons.1 h
    obtain ⟨hafter, hapart⟩ := List.pairwise_cons.1 hapart
    rw [nodesOf, List.pairwise_append]
    refine ⟨starts_sorted hc.1, startsOf_sorted hrest hapart, fun x hx y hy => ?_⟩
    obtain ⟨d, hd, hyd⟩ := exists_within hrest y hy
    have hxc := within_of_mem hc.1 hc.2 x hx
    -- the later node stands within a later tree, which starts behind the end of the first one
    calc start x.label ≤ stop x.label := hxc.ordered
      _ ≤ stop c.label := hxc.stops
      _ ≤ start d.label := hafter d hd
      _ ≤ start y.label := hyd.starts

end

theorem start_le_of_find? {root m : Node} {p : Node → Bool} (h : root.Spread start stop) (hm : root.nodes.find? p = some m)
    {x : Node} (hx : x ∈ root.nodes) (hp : p x = true) : start m.label ≤ start x.label := by
  obtain ⟨-, before, after, hnodes, hbefore⟩ := List.find?_eq_some_iff_append.1 hm
  have hsorted := starts_sorted h
  rw [hnodes] at hx hsorted
  rcases List.mem_append.1 hx with hx | hx
  · have hno := hbefore x hx
    rw [hp] at hno
    cases hno
  · rcases List.mem_cons.1 hx with rfl | hx
    · exact le_rfl
    · exact (List.pairwise_cons.1 (List.pairwise_append.1 hsorted).2.1).1 x hx

/-! ## The first fault -/

theorem exists_find? {root : Node} (h : root.Truthful) (herror : root.label.hasError = true) :
    ∃ m, root.nodes.find? (·.isFault) = some m ∧ m.label.fault? = some (firstFault root) := by
  obtain ⟨before, m, after, hnodes, hbefore, hm, hfault⟩ := exists_first h herror
  refine ⟨m, List.find?_eq_some_iff_append.2 ⟨hm, before, after, hnodes, fun b hb => ?_⟩, hfault⟩
  rw [hbefore b hb]
  rfl

/-- What is wrong at a node that is an error or missing. -/
theorem fault?_of_isFault {n : Node} (h : n.isFault = true) : n.label.fault? =
    some ⟨if n.label.isMissing = true then .missing n.label.type else .unexpected, n.label.startPoint⟩ := by
  rw [isFault, Bool.or_eq_true] at h
  unfold Label.fault?
  by_cases hmissing : n.label.isMissing = true
  · rw [if_pos hmissing, if_pos hmissing]
  · rw [if_neg hmissing, if_neg hmissing, if_pos (h.resolve_left hmissing)]

end Node

end Concrete

namespace Grammar

open Concrete (Label)

theorem describe_fault (missing : Bool) (type : String) (p : Concrete.Point) :
    describe ⟨if missing = true then .missing type else .unexpected, p⟩ =
      (if missing = true then "Missing '" ++ type ++ "' " else "Unexpected token ") ++
        ("at line " ++ toString (p.row + 1) ++ ", column " ++ toString (p.column + 1)) := by
  cases missing <;> rfl

/-- **The syntax error that is reported is the first one.**  Let each node of a tree tell truly whether it or one below it is
an error or missing, and the root tell of one.  A strict parser fails with the place of the first node, in the order of the
document, that is an error or missing, and says which of both it is.  It has found this node by its search, though that passes
over nodes that tell of no error: there is none below them.

No node that is an error or missing starts before this one, in any order of places by which children stand within their
parents, one after the other. -/
theorem first_fault_reported {root : Concrete.Node} (h : root.Truthful) (herror : root.label.hasError = true) :
    ∃ m, root.nodes.find? (·.isFault) = some m ∧
      (∀ a ∈ root.nodes, a.label.hasError = false → ∀ b ∈ a.nodes, b.isFault = false) ∧
      Concrete.firstFaultIn [root] =
        some ⟨if m.label.isMissing = true then .missing m.label.type else .unexpected, m.label.startPoint⟩ ∧
      (∀ table text dl, ∃ e, canonical false table text root dl = (.error e, dl) ∧
        let row := m.label.startPoint.row + 1
        let column := m.label.startPoint.column + 1
        e.place? = some (row, column) ∧
        e.message = (if m.label.isMissing = true then "Missing '" ++ m.label.type ++ "' " else "Unexpected token ") ++
          ("at line " ++ toString row ++ ", column " ++ toString column)) ∧
      ∀ (α : Type) [Preorder α] (start stop : Label → α), root.Spread start stop →
        ∀ x ∈ root.nodes, x.isFault = true → start m.label ≤ start x.label := by
  obtain ⟨m, hm, hreported⟩ := Concrete.Node.exists_find? h herror
  have hfault := Concrete.Node.fault?_of_isFault (List.find?_some hm)
  have hfirst : Concrete.firstFault root =
      ⟨if m.label.isMissing = true then .missing m.label.type else .unexpected, m.label.startPoint⟩ :=
    Option.some.inj (hreported.symm.trans hfault)
  refine ⟨m, hm, fun a ha hno => ?_, ?_, fun table text dl => ?_, fun α _ start stop hspread x hx hxfault => ?_⟩
  · exact Concrete.Node.isFault_of_isFaulty ((h a ha).symm.trans hno)
  · have hall : ∀ n ∈ Concrete.Node.nodesOf [root], n.label.hasError = n.isFaulty := by rwa [Concrete.nodesOf_root]
    rw [Concrete.firstFaultIn_eq hall, Concrete.nodesOf_root]
    obtain ⟨-, before, after, hnodes, hbefore⟩ := List.find?_eq_some_iff_append.1 hm
    refine List.findSome?_eq_some_iff.2 ⟨before, m, after, hnodes, hfault, fun b hb => ?_⟩
    exact Concrete.Node.fault?_eq_none.2 (by simpa using hbefore b hb)
  · have hmessage : (ParseError.malformed table.language (Concrete.firstFault root)).message =
        describe (Concrete.firstFault root) := rfl
    refine ⟨.malformed table.language (Concrete.firstFault root), ?_, ?_, ?_⟩
    · rw [canonical, herror]
      rfl
    · rw [ParseError.place?, hfirst]
    · rw [hmessage, hfirst, describe_fault]
  · exact Concrete.Node.start_le_of_find? hspread hm hx hxfault

/-- A node of one line, from one column to another, on the row that begins at the offset `base`. -/
def onRow (base row start stop : Int) (type : String) (named isError isMissing hasError : Bool)
    (children : List Concrete.Node) : Concrete.Node :=
  .mk ⟨type, base + start, base + stop, named, isError, isMissing, none, ⟨row, start⟩, ⟨row, stop⟩, hasError⟩ children

def missingParenthesis : Concrete.Node := onRow 0 0 3 3 ")" false false true true []

/-- A call without its end, and on the next row an error around something else that is missing. -/
def unclosed : Concrete.Node :=
  .mk ⟨"program", 0, 6, true, false, false, none, ⟨0, 0⟩, ⟨1, 2⟩, true⟩ [
    onRow 0 0 0 3 "call_expression" true false false true [
      onRow 0 0 0 1 "identifier" true false false false [], onRow 0 0 1 2 "(" false false false false [],
      onRow 0 0 2 3 "number" true false false false [], missingParenthesis],
    onRow 4 1 0 2 "ERROR" true true false true [
      onRow 4 1 0 1 "identifier" true false false false [], onRow 4 1 1 1 ";" false false true true [],
      onRow 4 1 1 2 ")" false false false false []]]

/-- The end of the call is told of, and not the error behind it. -/
theorem missing_before_error : ∃ e,
    canonical false (tableOf .javascript) "f(1\nx)" unclosed none = (.error e, none) ∧ e.place? = some (1, 4) ∧
    e.message = "Missing ')' at line 1, column 4" ∧ ∀ x ∈ unclosed.nodes, x.isFault = true → 3 ≤ x.label.start := by
  have htruthful : unclosed.Truthful := show ∀ n ∈ unclosed.nodes, n.label.hasError = n.isFaulty by decide +kernel
  have hwithin : ∀ n ∈ unclosed.nodes, ∀ c ∈ n.children,
      n.label.start ≤ c.label.start ∧ c.label.start ≤ c.label.stop ∧ c.label.stop ≤ n.label.stop := by decide +kernel
  have hspread : unclosed.Spread Label.start Label.stop :=
    ⟨fun n hn c hc => ⟨(hwithin n hn c hc).1, (hwithin n hn c hc).2.1, (hwithin n hn c hc).2.2⟩,
      show ∀ n ∈ unclosed.nodes, n.children.Pairwise fun a b => a.label.stop ≤ b.label.start by decide +kernel⟩
  obtain ⟨m, hm, -, -, hstrict, hstart⟩ := first_fault_reported htruthful rfl
  have hfirst : unclosed.nodes.find? (·.isFault) = some missingParenthesis := rfl
  cases Option.some.inj (hm.symm.trans hfirst)
  obtain ⟨e, hrun, hplace, hmessage⟩ := hstrict (tableOf .javascript) "f(1\nx)" none
  exact ⟨e, hrun, hplace, hmessage.trans (by decide +kernel), hstart Int Label.start Label.stop hspread⟩

end Grammar

end CodeReview
