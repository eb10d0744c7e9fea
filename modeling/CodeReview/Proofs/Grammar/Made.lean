import CodeReview.Proofs.Analyzer.Placed
import CodeReview.Proofs.Concrete.Order
import CodeReview.Proofs.Grammar.Columns
import CodeReview.Proofs.Grammar.Stack
import CodeReview.Grammar.Parser
/-!
# Trees that have been made

The tree that a parse returns is the canonical tree of one that a grammar of the host has made of the text (`exists_made`),
whatever has been loaded, and whatever the time budget.  Its nodes and what they test stand where the nodes of that tree do
(`normal_placed`): inside of the text, if all of these start at byte offsets of it (`placed_of_inText`).
-/
namespace CodeReview.Grammar

open Syntax (Deadline)

variable {host : Host} {text : String}

theorem Parsed.andThen_ok {α β : Type} {p : Parsed α} {next : α → Session → Parsed β} {b : β}
    (h : (p.andThen next).outcome = .ok b) : ∃ a, p.outcome = .ok a ∧ (next a p.session).outcome = .ok b := by
  unfold andThen at h
  cases hp : p.outcome with
  | error e => rw [hp] at h; cases h
  | ok a => rw [hp] at h; exact ⟨a, rfl, h⟩

theorem treeOf_ok {l : Language} {s : Session} {g : String} {tree : Concrete.Node}
    (h : (treeOf host text l s g).outcome = .ok tree) : host.tree g text = .ok tree := by
  obtain ⟨_, -, hmade⟩ := Parsed.andThen_ok h
  cases ht : host.tree g text with
  | error e => rw [ht] at hmade; cases hmade
  | ok tree' => rw [ht] at hmade; cases hmade; rfl

theorem firstClean_ok {l : Language} {first tree : Concrete.Node} : ∀ {gs : List String} {s : Session},
    (firstClean host text l first gs s).outcome = .ok tree → tree = first ∨ ∃ g ∈ gs, host.tree g text = .ok tree
  | [], s, h => by cases h; exact .inl rfl
  | g :: gs, s, h => by
    rw [firstClean] at h
    obtain ⟨tree', hg, hrest⟩ := Parsed.andThen_ok h
    split at hrest
    · rcases firstClean_ok hrest with rfl | ⟨g', hmem, hmade⟩
      · exact .inl rfl
      · exact .inr ⟨g', List.mem_cons_of_mem g hmem, hmade⟩
    · cases hrest
      exact .inr ⟨g, List.mem_cons_self .., treeOf_ok hg⟩

theorem chooseTree_ok {t : Table} {s : Session} {tree : Concrete.Node} (h : (chooseTree host text t s).outcome = .ok tree) :
    ∃ g ∈ t.grammars, host.tree g text = .ok tree := by
  have hfirst : t.grammar ∈ t.grammars := List.mem_cons_self ..
  obtain ⟨first, hmade, hrest⟩ := Parsed.andThen_ok h
  split at hrest
  · rcases firstClean_ok hrest with rfl | ⟨g, hmem, hg⟩
    · exact ⟨t.grammar, hfirst, treeOf_ok hmade⟩
    · exact ⟨g, List.mem_cons_of_mem _ hmem, hg⟩
  · cases hrest
    exact ⟨t.grammar, hfirst, treeOf_ok hmade⟩

theorem normalize_ok {t : Table} {s : Source} {tree : Concrete.Node} {dl : Option Deadline} {root : Syntax.Node}
    (h : (normalize t s tree dl).1 = .ok root) : root = normal t s tree := by
  rw [normalize_eq_fst, recordFrom_root] at h
  rcases hp : Deadline.pollAll [] (Syntax.Node.postorder (normal t s tree)) dl with ⟨⟨_ | e, dl'⟩, made⟩
  · rw [hp] at h
    cases h
    rfl
  · rw [hp] at h
    cases h

/-- **A parse returns the canonical tree of one that a grammar of the language has made of the text.** -/
theorem exists_made {tolerant : Bool} {s : Session} {language : String} {dl : Option Deadline} {root : Syntax.Node}
    (h : (parse host tolerant s text language dl).1.outcome = .ok root) :
    ∃ l g tree, Language.ofName? language = some l ∧ g ∈ (tableOf l).grammars ∧ host.tree g text = .ok tree ∧
      root = normal (tableOf l) (Source.ofText text) tree := by
  unfold parse at h
  cases hl : Language.ofName? language with
  | none => rw [hl] at h; cases h
  | some l =>
    rw [hl] at h
    dsimp only at h
    cases hc : (chooseTree host text (tableOf l) s).outcome with
    | error e => rw [hc] at h; cases h
    | ok tree =>
      obtain ⟨g, hmem, hg⟩ := chooseTree_ok hc
      rw [hc] at h
      dsimp only [canonical] at h
      split at h
      · cases h
      · cases hn : (normalize (tableOf l) (Source.ofText text) tree dl).1 with
        | error e => rw [hn] at h; cases h
        | ok root' =>
          rw [hn] at h
          cases h
          exact ⟨l, g, tree, rfl, hmem, hg, normalize_ok hn⟩

/-! ## Places -/

theorem keptAt?_mem_nodes : ∀ {path : List Nat} {n m : Concrete.Node}, keptAt? n path = some m → m ∈ n.nodes
  | [], n, m, h => by
    cases h
    rw [Concrete.Node.nodes_eq]
    exact List.mem_cons_self ..
  | i :: path, n, m, h => by
    obtain ⟨c, hc, hm⟩ := Option.bind_eq_some_iff.1 h
    have hchild : c ∈ n.children := List.mem_of_mem_filter (List.mem_of_getElem? hc)
    rw [Concrete.Node.nodes_eq]
    exact List.mem_cons_of_mem _ (Concrete.Node.mem_nodesOf.2 ⟨c, hchild, keptAt?_mem_nodes hm⟩)

theorem condition?_inside {n : Concrete.Node} {kids : List Concrete.Node} {children : List Syntax.Node}
    {c : Syntax.Condition} (h : condition? n kids children = some c) : ∃ path, c = .inside path := by
  unfold condition? at h
  obtain ⟨_, -, h⟩ := Option.bind_eq_some_iff.1 h
  obtain ⟨_, -, h⟩ := Option.bind_eq_some_iff.1 h
  obtain ⟨_, -, h⟩ := Option.bind_eq_some_iff.1 h
  cases h
  exact ⟨_, rfl⟩

theorem normal_condition {t : Table} {s : Source} {n : Concrete.Node} {c : Syntax.Condition}
    (h : (normal t s n).condition = some c) : ∃ path, c = .inside path := by
  rw [normal_eq, build, Syntax.Node.condition] at h
  exact condition?_inside (Option.ite_none_right_eq_some.1 h).2

theorem test?_normal {t : Table} {s : Source} {n : Concrete.Node} {l : Syntax.Label}
    (h : (normal t s n).test? = some l) : ∃ path m, (normal t s n).at? path = some m ∧ m.label = l := by
  unfold Syntax.Node.test? at h
  cases hc : (normal t s n).condition with
  | none => rw [hc] at h; cases h
  | some c =>
    obtain ⟨path, rfl⟩ := normal_condition hc
    rw [hc] at h
    obtain ⟨m, hm, hl⟩ := Option.map_eq_some_iff.1 h
    exact ⟨path, m, hm, hl⟩

/-- **A canonical tree stands where the concrete tree does.** -/
theorem normal_placed {t : Table} {s : Source} {tree : Concrete.Node} {Q : Int → Int → Prop} (hstart : Q 1 1)
    (h : ∀ n ∈ tree.nodes, Q (n.label.startPoint.row + 1) (s.column n.label.startPoint.row n.label.startPoint.column)) :
    (normal t s tree).Placed Q := by
  have hnodes : ∀ p m, (normal t s tree).at? p = some m → Q m.label.line m.label.column := by
    intro p m hm
    rw [normal_at?] at hm
    obtain ⟨n, hn, rfl⟩ := Option.map_eq_some_iff.1 hm
    rw [normal_line, normal_column]
    exact h n (keptAt?_mem_nodes hn)
  refine ⟨hstart, hnodes, fun p m l hm htest => ?_⟩
  have hnormal := hm
  rw [normal_at?] at hnormal
  obtain ⟨n, -, rfl⟩ := Option.map_eq_some_iff.1 hnormal
  obtain ⟨path, m, hbelow, rfl⟩ := test?_normal htest
  refine hnodes (p ++ path) m ?_
  rw [Syntax.Node.at?_append, hm, Option.bind_some, hbelow]

/-- That the nodes of all trees that a host makes of a text start at byte offsets of it. -/
def Host.InText (host : Host) (text : String) : Prop :=
  ∀ g tree, host.tree g text = .ok tree → ∀ n ∈ tree.nodes, ∃ o ≤ (Text.Utf8.encode text).length,
    n.label.startPoint = Concrete.Point.ofOffset (Text.Utf8.encode text) o

theorem placed_of_inText (hin : host.InText text) {tolerant : Bool} {s : Session} {language : String}
    {dl : Option Deadline} {root : Syntax.Node} (h : (parse host tolerant s text language dl).1.outcome = .ok root) :
    root.Placed (Inside text) := by
  obtain ⟨l, g, tree, -, -, hg, rfl⟩ := exists_made h
  refine normal_placed (inside_start text) fun n hn => ?_
  obtain ⟨o, ho, hstart⟩ := hin g tree hg n hn
  exact inside_ofOffset ho hstart

end CodeReview.Grammar
