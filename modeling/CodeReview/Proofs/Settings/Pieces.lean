import CodeReview.Settings.Variables
import Mathlib.Data.List.Infix
import Mathlib.Data.List.TakeWhile
/-!
# References in texts

A text is cut from the left in one way only: a reference is cut off where the rest of the text begins with one, and else a
character (`cut_iff`).  The pieces of two texts in a row are those of the first and those of the second, unless the point
between them is inside a reference (`pieces_append`).
-/
namespace CodeReview.Settings

def Piece.source : Piece → List Char
  | .char c => [c]
  | .reference name => '$' :: '\x7b' :: (name.toList ++ ['\x7d'])

/-- A name that can be referred to: it has a character, and no closing bracket. -/
def IsName (name : String) : Prop := name.toList ≠ [] ∧ '\x7d' ∉ name.toList

/-- **A text cut into pieces from the left**: into references, and into characters where the text does not go on with one. -/
inductive Cut : List Char → List Piece → Prop
  | nil : Cut [] []
  | reference {name : String} {rest : List Char} {ps : List Piece} :
      IsName name → Cut rest ps → Cut ((Piece.reference name).source ++ rest) (.reference name :: ps)
  | char {c : Char} {rest : List Char} {ps : List Piece} :
      (∀ name, IsName name → ¬ (Piece.reference name).source <+: c :: rest) → Cut rest ps → Cut (c :: rest) (.char c :: ps)

/-! ## Names -/

theorem name?_of_isName {name : String} (h : IsName name) (rest : List Char) :
    name? (name.toList ++ '\x7d' :: rest) = some name := by
  have hbefore : ∀ c ∈ name.toList, (c != '\x7d') = true := fun c hc => bne_iff_ne.2 fun heq => h.2 (heq ▸ hc)
  have htake : (name.toList ++ '\x7d' :: rest).takeWhile (· != '\x7d') = name.toList := by
    rw [List.takeWhile_append_of_pos hbefore, List.takeWhile_cons_of_neg (by simp), List.append_nil]
  have hopen : name.toList.isEmpty = false := List.isEmpty_eq_false_iff.2 h.1
  have hclosed : (name.toList.length == (name.toList ++ '\x7d' :: rest).length) = false := by
    rw [List.length_append, List.length_cons]
    exact beq_eq_false_iff_ne.2 (by omega)
  unfold name?
  rw [htake]
  dsimp only
  rw [hopen, hclosed, Bool.or_false, if_neg Bool.false_ne_true, String.ofList_toList]

theorem isName_of_name? {cs : List Char} {name : String} (h : name? cs = some name) :
    IsName name ∧ name.toList ++ ['\x7d'] <+: cs := by
  have hsplit : cs.takeWhile (· != '\x7d') ++ cs.dropWhile (· != '\x7d') = cs := List.takeWhile_append_dropWhile
  unfold name? at h
  dsimp only at h
  split at h
  · cases h
  · rename_i hcond
    cases h
    rw [Bool.or_eq_true, not_or, List.isEmpty_iff, beq_iff_eq] at hcond
    obtain ⟨hne, hlength⟩ := hcond
    have hname : '\x7d' ∉ cs.takeWhile (· != '\x7d') := fun hmem => by simpa using List.mem_takeWhile_imp hmem
    rw [IsName, String.toList_ofList]
    refine ⟨⟨hne, hname⟩, ?_⟩
    cases hrest : cs.dropWhile (· != '\x7d') with
    | nil =>
      rw [hrest, List.append_nil] at hsplit
      exact absurd (congrArg List.length hsplit) hlength
    | cons c rest =>
      have hc : c = '\x7d' := by
        have hstop := List.head?_dropWhile_not (· != '\x7d') cs
        rw [hrest] at hstop
        simpa using hstop
      refine ⟨rest, ?_⟩
      rw [List.append_assoc, List.singleton_append]
      rwa [hrest, hc] at hsplit

/-! ## Cutting -/

theorem piecesFrom_drop : ∀ (skip : Nat) (cs : List Char), piecesFrom skip cs = piecesFrom 0 (cs.drop skip)
  | 0, _ => rfl
  | skip + 1, [] => rfl
  | skip + 1, c :: cs => by rw [piecesFrom, piecesFrom_drop skip cs, List.drop_succ_cons]

theorem piecesFrom_reference {name : String} (h : IsName name) (rest : List Char) :
    piecesFrom 0 ((Piece.reference name).source ++ rest) = .reference name :: piecesFrom 0 rest := by
  have hsource : (Piece.reference name).source ++ rest = '$' :: '\x7b' :: (name.toList ++ '\x7d' :: rest) := by
    rw [Piece.source, List.cons_append, List.cons_append, List.append_assoc, List.singleton_append]
  have hdrop : ('\x7b' :: (name.toList ++ '\x7d' :: rest)).drop (name.length + 2) = rest := by
    have hlength : name.length + 2 = (name.toList.length + 1) + 1 := by rw [String.length_toList]
    rw [hlength, List.drop_succ_cons, ← List.drop_drop, List.drop_left]
    rfl
  rw [hsource, piecesFrom, name?_of_isName h]
  dsimp only
  rw [piecesFrom_drop, hdrop]

theorem piecesFrom_char {c : Char} {rest : List Char}
    (h : ∀ name, IsName name → ¬ (Piece.reference name).source <+: c :: rest) :
    piecesFrom 0 (c :: rest) = .char c :: piecesFrom 0 rest := by
  rw [piecesFrom.eq_def]
  split
  · rename_i hnil
    cases hnil
  · rename_i hskip _
    cases hskip
  · rename_i cs _ heq
    cases heq
    cases hname : name? cs with
    | none => rfl
    | some name =>
      obtain ⟨hisName, hbegins⟩ := isName_of_name? hname
      have hstarts : (Piece.reference name).source <+: '$' :: '\x7b' :: cs :=
        List.cons_prefix_cons.2 ⟨rfl, List.cons_prefix_cons.2 ⟨rfl, hbegins⟩⟩
      exact absurd hstarts (h name hisName)
  · rename_i heq
    cases heq
    rfl

theorem cut_piecesFrom (cs : List Char) : Cut cs (piecesFrom 0 cs) := by
  by_cases h : ∃ name, IsName name ∧ (Piece.reference name).source <+: cs
  · -- what is left behind the reference is shorter, and cut in turn
    obtain ⟨name, hname, rest, hcs⟩ := h
    have hshorter : rest.length < cs.length := by
      rw [← hcs, List.length_append, Piece.source, List.length_cons]
      omega
    rw [← hcs, piecesFrom_reference hname]
    exact .reference hname (cut_piecesFrom rest)
  · have hnone : ∀ name, IsName name → ¬ (Piece.reference name).source <+: cs := fun name hname hstarts => h ⟨name, hname, hstarts⟩
    match cs with
    | [] => exact .nil
    | c :: rest =>
      rw [piecesFrom_char hnone]
      exact .char hnone (cut_piecesFrom rest)
termination_by cs.length

theorem Cut.eq_piecesFrom {cs : List Char} {ps : List Piece} (h : Cut cs ps) : ps = piecesFrom 0 cs := by
  induction h with
  | nil => rfl
  | reference hname _ ih => rw [piecesFrom_reference hname, ih]
  | char hnone _ ih => rw [piecesFrom_char hnone, ih]

/-- **A text is cut in one way.** -/
theorem cut_iff (s : String) (ps : List Piece) : Cut s.toList ps ↔ ps = pieces s :=
  ⟨Cut.eq_piecesFrom, fun h => by rw [h]; exact cut_piecesFrom s.toList⟩

theorem cut_pieces (s : String) : Cut s.toList (pieces s) := (cut_iff s _).2 rfl

namespace Cut

variable {cs : List Char} {ps qs : List Piece}

theorem source (h : Cut cs ps) : ps.flatMap Piece.source = cs := by
  induction h with
  | nil => rfl
  | reference _ _ ih => rw [List.flatMap_cons, ih]
  | char _ _ ih => rw [List.flatMap_cons, ih]; rfl

theorem split (h : Cut cs (ps ++ qs)) : ∃ as bs, cs = as ++ bs ∧ Cut as ps ∧ Cut bs qs := by
  induction ps generalizing cs with
  | nil => exact ⟨[], cs, rfl, .nil, h⟩
  | cons p ps ih =>
    rw [List.cons_append] at h
    cases h with
    | @reference name rest _ hname hrest =>
      obtain ⟨as, bs, rfl, has, hbs⟩ := ih hrest
      exact ⟨(Piece.reference name).source ++ as, bs, by rw [List.append_assoc], .reference hname has, hbs⟩
    | @char c rest _ hnone hrest =>
      obtain ⟨as, bs, rfl, has, hbs⟩ := ih hrest
      -- a reference that the first text begins with would begin the whole text
      have hnone' : ∀ name, IsName name → ¬ (Piece.reference name).source <+: c :: as := fun name hname hstarts =>
        hnone name hname (hstarts.trans (List.prefix_append (c :: as) bs))
      exact ⟨c :: as, bs, rfl, .char hnone' has, hbs⟩

/-- **There is a reference among the pieces of a text if there is one anywhere in it.** -/
theorem exists_reference_iff (h : Cut cs ps) : (∃ name, .reference name ∈ ps) ↔
    ∃ name, IsName name ∧ (Piece.reference name).source <:+: cs := by
  induction h with
  | nil => simp [Piece.source]
  | @reference name rest ps hname _ _ =>
    refine iff_of_true ⟨name, List.mem_cons_self ..⟩ ⟨name, hname, ?_⟩
    exact (List.prefix_append (Piece.reference name).source rest).isInfix
  | @char c rest ps hnone _ ih =>
    have hmem : (∃ name, Piece.reference name ∈ Piece.char c :: ps) ↔ ∃ name, .reference name ∈ ps := by simp
    rw [hmem, ih]
    refine exists_congr fun name => and_congr_right fun hname => ?_
    rw [List.infix_cons_iff]
    exact (or_iff_right (hnone name hname)).symm

end Cut

/-! ## Texts in a row -/

/-- That a point in a text, so many characters from its start, is inside one of the references of its pieces. -/
def InReference (ps : List Piece) (point : Nat) : Prop := ∃ before name after, ps = before ++ .reference name :: after ∧
  (before.flatMap Piece.source).length < point ∧
  point < (before.flatMap Piece.source).length + (Piece.reference name).source.length

theorem InReference.cons {p : Piece} {ps : List Piece} {point : Nat} (h : InReference ps point) :
    InReference (p :: ps) (p.source.length + point) := by
  obtain ⟨before, name, after, rfl, hbefore, hafter⟩ := h
  refine ⟨p :: before, name, after, rfl, ?_, ?_⟩
  · rw [List.flatMap_cons, List.length_append]
    omega
  · rw [List.flatMap_cons, List.length_append]
    omega

theorem exists_between {ps : List Piece} {point : Nat} (hle : point ≤ (ps.flatMap Piece.source).length)
    (h : ¬ InReference ps point) : ∃ as bs, ps = as ++ bs ∧ (as.flatMap Piece.source).length = point := by
  induction ps generalizing point with
  | nil =>
    have hzero : point = 0 := by simpa using hle
    exact ⟨[], [], rfl, hzero.symm⟩
  | cons p ps ih =>
    rw [List.flatMap_cons, List.length_append] at hle
    -- a point before the end of the first piece is at its start, as only references have an inside
    by_cases hpoint : point < p.source.length
    · refine ⟨[], p :: ps, rfl, ?_⟩
      by_contra hne
      have hpos : 0 < point := Nat.pos_of_ne_zero fun hzero => hne hzero.symm
      cases p with
      | char c =>
        have hone : point < 1 := hpoint
        omega
      | reference name => exact h ⟨[], name, ps, rfl, hpos, by simpa using hpoint⟩
    · obtain ⟨rest, rfl⟩ := Nat.exists_eq_add_of_le (Nat.le_of_not_lt hpoint)
      obtain ⟨as, bs, rfl, hlength⟩ := ih (by omega) fun hin => h hin.cons
      exact ⟨p :: as, bs, rfl, by rw [List.flatMap_cons, List.length_append, hlength]⟩

/-- **The pieces of two texts in a row are those of the first and those of the second**, unless the point between them is
inside a reference. -/
theorem pieces_append {a b : String} (h : ¬ InReference (pieces (a ++ b)) a.length) :
    pieces (a ++ b) = pieces a ++ pieces b := by
  have hcut := cut_pieces (a ++ b)
  have hle : a.length ≤ ((pieces (a ++ b)).flatMap Piece.source).length := by
    rw [hcut.source, String.length_toList, String.length_append]
    omega
  obtain ⟨ps, qs, hps, hlength⟩ := exists_between hle h
  rw [hps] at hcut
  obtain ⟨as, bs, heq, has, hbs⟩ := hcut.split
  rw [String.toList_append] at heq
  obtain ⟨rfl, rfl⟩ := List.append_inj heq (by rw [String.length_toList, ← hlength, has.source])
  rw [hps, (cut_iff a ps).1 has, (cut_iff b qs).1 hbs]

end CodeReview.Settings
