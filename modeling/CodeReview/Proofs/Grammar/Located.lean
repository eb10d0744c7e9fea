import CodeReview.Proofs.Grammar.Choice
import CodeReview.Proofs.Grammar.Columns
/-!
# Where a syntax error is

A strict parser tells of a syntax error by the bytes before it in its line, while the canonical nodes that a tolerant parser
makes are placed by characters.  Both agree on the line.  On the column they agree exactly if no character but the last of those
that start before the error takes more than one byte (`strict_place_eq_iff`), and else the strict column is too high.
-/
namespace CodeReview.Grammar

open Text.Utf8 (bytesOf startsBefore)

/-- What is told of a fault ends in its place. -/
theorem describe_place (f : Concrete.Located) : ∃ what, describe f =
    what ++ ("at line " ++ toString (f.point.row + 1) ++ ", column " ++ toString (f.point.column + 1)) := by
  unfold describe
  cases f.fault with
  | missing type => exact ⟨"Missing '" ++ type ++ "' ", rfl⟩
  | unexpected => exact ⟨"Unexpected token ", rfl⟩
  | unlocated => exact ⟨"Syntax error ", rfl⟩

/-- The byte column of a place and its column in characters, both counted from one. -/
theorem column_le_of_inLine {text : String} {row b : Nat} {cs : List Char} (h : Text.line? text row = some cs)
    (hb : b ≤ (bytesOf cs).length) : (Source.ofText text).column row b ≤ b + 1 ∧
      ((b : Int) + 1 = (Source.ofText text).column row b ↔ ∀ c ∈ cs.take (b - 1), c.utf8Size = 1) := by
  have hle : startsBefore cs b ≤ b := Text.Utf8.startsBefore_le cs b
  rw [Source.column_eq h hb, ← Text.Utf8.startsBefore_eq_iff cs b hb]
  constructor <;> omega

/-- **Where the two modes say that the first error is**, if every grammar finds one.  A strict parser fails at a node of the
first grammar's tree, with the row and the byte column of its start, which its message quotes; a tolerant parser keeps the
row and turns the column into characters where the canonical tree has this node.  For the start of a byte offset both places
are the same exactly if no character but the last that starts before it takes more than one byte. -/
theorem strict_place_eq_iff (host : Host) (text : String) (l : Language) (trees : String → Concrete.Node)
    (h : host.Makes text trees (tableOf l).grammars) (herror : ∀ g ∈ (tableOf l).grammars, (trees g).label.hasError = true)
    (before before' : List Request) :
    let s := Source.ofText text
    let first := trees (tableOf l).grammar
    ∃ m ∈ first.nodes, ∃ e root,
      (parseAfter host false before text l.name).outcome = .error e ∧
      (parseAfter host true before' text l.name).outcome = .ok root ∧
      (m.label.fault? = some (Concrete.firstFault first) ∨
        m = first ∧ (Concrete.firstFault first).fault = .unlocated) ∧
      let p := m.label.startPoint
      e.place? = some (p.row + 1, p.column + 1) ∧
      (∃ what, e.message = what ++ ("at line " ++ toString (p.row + 1) ++ ", column " ++ toString (p.column + 1))) ∧
      (∀ path, keptAt? first path = some m → ∃ node, root.at? path = some node ∧
        node.label.line = p.row + 1 ∧ node.label.column = s.column p.row p.column) ∧
      ∀ o ≤ (Text.Utf8.encode text).length, p = Concrete.Point.ofOffset (Text.Utf8.encode text) o →
        ∃ (row b : Nat) (cs : List Char), p = ⟨row, b⟩ ∧ Text.line? text row = some cs ∧ b ≤ (bytesOf cs).length ∧
          s.column row b = startsBefore cs b + 1 ∧ s.column row b ≤ b + 1 ∧
          (e.place? = some (p.row + 1, s.column p.row p.column) ↔ ∀ c ∈ cs.take (b - 1), c.utf8Size = 1) := by
  intro s first
  have hup : host.Makes text trees (upToClean trees (tableOf l).grammars) := h.mono (upToClean_subset _)
  have hchosen : (trees ((tableOf l).chosen trees)).label.hasError = true :=
    herror _ (upToClean_subset _ _ (Table.chosen_mem _ _))
  have hfirst : (tableOf l).chosen trees = (tableOf l).grammar := (Table.chosen_error hchosen).1
  obtain ⟨m, hm, hpoint, hfault⟩ := Concrete.exists_reported first
  have hplace : (ParseError.malformed l (Concrete.firstFault first)).place? =
      some (m.label.startPoint.row + 1, m.label.startPoint.column + 1) := by rw [ParseError.place?, hpoint]
  refine ⟨m, hm, .malformed l (Concrete.firstFault first), normal (tableOf l) s first, ?_, ?_, hfault, hplace, ?_, ?_, ?_⟩
  · rw [hup.parseAfter_outcome, hchosen, hfirst]
    rfl
  · rw [hup.parseAfter_outcome, Bool.not_true, Bool.and_false, hfirst]
    rfl
  · obtain ⟨what, hwhat⟩ := describe_place (Concrete.firstFault first)
    rw [hpoint] at hwhat
    exact ⟨what, hwhat⟩
  · intro path hpath
    refine ⟨normal (tableOf l) s m, ?_, normal_line _ _ m, normal_column _ _ m⟩
    rw [normal_at?, hpath]
    rfl
  · intro o ho hstart
    obtain ⟨row, b, cs, hof, hline, hb⟩ := Concrete.Point.ofOffset_inLine ho
    rw [← hstart] at hof
    obtain ⟨hle, hiff⟩ := column_le_of_inLine hline hb
    refine ⟨row, b, cs, hof, hline, hb, Source.column_eq hline hb, hle, ?_⟩
    rw [hplace, hof, ← hiff]
    simp only [Option.some.injEq, Prod.mk.injEq, true_and]
    rfl

def errorNode (column : Int) : Concrete.Node :=
  .mk ⟨"ERROR", column, 3, true, true, false, none, ⟨0, column⟩, ⟨0, 3⟩, true⟩ []

theorem fault?_errorNode (column : Int) :
    (errorNode column).label.fault? = some (Concrete.firstFault (errorAt column)) := by
  rw [firstFault_errorAt]
  rfl

theorem column_behind_accent : (Source.ofText "é)").column 0 2 = 2 := by decide

/-- Behind a letter of two bytes the strict column is one too high. -/
theorem strict_behind_accent : ∃ e root node,
    (parseAfter (.constant (errorAt 2)) false [] "é)" "javascript").outcome = .error e ∧ e.place? = some (1, 3) ∧
    (parseAfter (.constant (errorAt 2)) true [] "é)" "javascript").outcome = .ok root ∧
    root.at? [0] = some node ∧ node.label.line = 1 ∧ node.label.column = 2 := by
  obtain ⟨m, hm, e, root, hstrict, htolerant, hfault, hplace, -, hat, -⟩ :=
    strict_place_eq_iff (.constant (errorAt 2)) "é)" .javascript _ (Host.constant_makes ..) (fun _ _ => rfl) [] []
  have hnode : m = errorNode 2 := by
    rw [firstFault_errorAt] at hfault
    rcases List.mem_cons.1 hm with rfl | hm
    · simp [errorAt, Concrete.Node.label, Concrete.Label.fault?] at hfault
    · exact List.mem_singleton.1 hm
  subst hnode
  obtain ⟨node, hnode, hline, hcolumn⟩ := hat [0] rfl
  exact ⟨e, root, node, hstrict, hplace, htolerant, hnode, hline, hcolumn.trans column_behind_accent⟩

/-- That both modes say the same of the place of an error is not so. -/
theorem strict_place_not_tolerant : ¬ ∀ (host : Host) (text : String) (l : Language) (trees : String → Concrete.Node),
    host.Makes text trees (tableOf l).grammars → (∀ g ∈ (tableOf l).grammars, (trees g).label.hasError = true) →
    ∀ e root, (parseAfter host false [] text l.name).outcome = .error e →
      (parseAfter host true [] text l.name).outcome = .ok root →
      ∀ path m node, keptAt? (trees (tableOf l).grammar) path = some m →
        m.label.fault? = some (Concrete.firstFault (trees (tableOf l).grammar)) → root.at? path = some node →
        e.place? = some (node.label.line, node.label.column) := by
  intro hagree
  let canonical := normal (tableOf .javascript) (Source.ofText "é)")
  have houtcome := fun tolerant => (Host.constant_makes (errorAt 2) "é)" _).parseAfter_outcome (l := .javascript) tolerant []
  have hsame := hagree (.constant (errorAt 2)) "é)" .javascript _ (Host.constant_makes ..) (fun _ _ => rfl)
    (.malformed .javascript (Concrete.firstFault (errorAt 2))) (canonical (errorAt 2)) (houtcome false) (houtcome true)
    [0] (errorNode 2) (canonical (errorNode 2)) rfl (fault?_errorNode 2) rfl
  rw [firstFault_errorAt, normal_column] at hsame
  cases (Prod.mk.inj (Option.some.inj hsame)).2.trans column_behind_accent

end CodeReview.Grammar
