import CodeReview.Path.Filter
import CodeReview.Proofs.Text.Lines
/-!
# Pruning

A plain pattern that selects a directory selects all that lies below it (`selects_below`).  So nothing below a directory
that a selection prunes is accepted by the selection (`prunes_below`), and its files need not be visited.
-/
namespace CodeReview

namespace Path

theorem components_below (d rest : String) : components (d ++ "/" ++ rest) = components d ++ components rest := by
  have hchars : (d ++ "/" ++ rest).toList = d.toList ++ '/' :: rest.toList := by simp
  rw [components, hchars, Text.splitOn_append, List.map_append, List.filter_append]
  rfl

/-! ## Directories as they are compared -/

def slashed (s : String) : List Char := s.toList.map fun c => if c == '\\' then '/' else c

theorem slashed_below (d rest : String) : slashed (d ++ "/" ++ rest) = slashed d ++ '/' :: slashed rest := by
  simp [slashed]

theorem forward_of_dot {s : String} {cs : List Char} (h : slashed s = '.' :: '/' :: cs) : forward s = String.ofList cs := by
  unfold forward
  rw [show (s.toList.map fun c => if c == '\\' then '/' else c) = '.' :: '/' :: cs from h]
  rfl

theorem forward_of_not_dot {s : String} (h : ∀ cs, slashed s ≠ '.' :: '/' :: cs) :
    forward s = String.ofList (slashed s) := by
  unfold forward
  split
  · rename_i cs hcs
    exact absurd hcs (h cs)
  · rfl

/-- **What lies below a directory lies below it as it is compared**, unless the directory is `.`. -/
theorem forward_below {d : String} (hd : slashed d ≠ ['.']) (rest : String) :
    forward (d ++ "/" ++ rest) = forward d ++ "/" ++ String.ofList (slashed rest) := by
  have hx := slashed_below d rest
  by_cases hdot : ∃ cs, slashed d = '.' :: '/' :: cs
  · obtain ⟨cs, hcs⟩ := hdot
    rw [hcs] at hx
    rw [forward_of_dot hcs, forward_of_dot hx]
    apply String.toList_inj.1
    simp
  · have hno : ∀ cs, slashed d ≠ '.' :: '/' :: cs := fun cs hcs => hdot ⟨cs, hcs⟩
    have hno' : ∀ cs, slashed (d ++ "/" ++ rest) ≠ '.' :: '/' :: cs := by
      intro cs hcs
      rw [hx] at hcs
      -- a leading dot and slash are of the directory, but for one whose only character is the dot
      rcases hchars : slashed d with _ | ⟨c, _ | ⟨c', cs'⟩⟩
      · simp [hchars] at hcs
      · simp [hchars] at hcs
        exact hd (hcs.1 ▸ hchars)
      · simp [hchars] at hcs
        exact hno cs' (by rw [hchars, hcs.1, hcs.2.1])
    rw [forward_of_not_dot hno, forward_of_not_dot hno', hx]
    apply String.toList_inj.1
    simp

/-! ## Patterns -/

theorem cleanPattern_subset (pattern : String) : (cleanPattern pattern).toList ⊆ pattern.toList := by
  have hend : ∀ (p : Char → Bool) (cs : List Char), Text.dropEndWhile p cs ⊆ cs := by
    intro p cs c hc
    have hmem := (List.dropWhile_sublist p).subset (List.mem_reverse.1 hc)
    exact List.mem_reverse.1 hmem
  rw [cleanPattern, String.toList_ofList]
  exact List.Subset.trans (hend _ _) (List.Subset.trans (hend _ _) (List.dropWhile_sublist Text.isBlank).subset)

theorem isGlob_cleanPattern {pattern : String} (h : isGlob pattern = false) : isGlob (cleanPattern pattern) = false := by
  rw [isGlob, List.any_eq_false] at h ⊢
  exact fun c hc => h c (cleanPattern_subset pattern hc)

theorem selects_plain {pattern : String} (h : isGlob pattern = false) (path : String) :
    selects pattern path =
      (cleanPattern pattern != "" &&
        if (cleanPattern pattern).contains '/' then
          forward path == cleanPattern pattern || (cleanPattern pattern ++ "/").toList.isPrefixOf (forward path).toList
        else (ofString (forward path)).allParts.contains (cleanPattern pattern)) := by
  rw [selects, isGlob_cleanPattern h, if_neg Bool.false_ne_true]
  by_cases hempty : (cleanPattern pattern == "") = true
  · rw [if_pos hempty, bne, hempty]
    rfl
  · rw [if_neg hempty, bne, Bool.eq_false_iff.2 hempty]
    rfl

theorem mem_allParts_of_mem {p : Path} {part : String} (h : part ∈ p.parts) : part ∈ p.allParts := by
  unfold allParts
  split
  · exact h
  · exact List.mem_cons_of_mem p.root h

theorem mem_components {s part : String} (h : part ∈ (ofString s).allParts) (hslash : '/' ∉ part.toList) :
    part ∈ components s := by
  unfold allParts at h
  split at h
  · exact h
  · rename_i hroot
    rcases List.mem_cons.1 h with rfl | hmem
    · have hcases : rootOf s = "" ∨ '/' ∈ (rootOf s).toList := by
        unfold rootOf
        split <;> decide
      rcases hcases with hempty | hmem
      · exact absurd (beq_iff_eq.2 hempty) hroot
      · exact absurd hmem hslash
    · exact hmem

/-- Nothing selects the directory `.` itself. -/
theorem not_dot_of_selects {pattern d : String} (hplain : isGlob pattern = false) (h : selects pattern d = true) :
    slashed d ≠ ['.'] := by
  intro hd
  have hforward : forward d = "." := by
    rw [forward_of_not_dot (by simp [hd]), hd]
  rw [selects_plain hplain, hforward, Bool.and_eq_true] at h
  obtain ⟨hne, hcond⟩ := h
  by_cases hslash : (cleanPattern pattern).contains '/' = true
  · rw [if_pos hslash, Bool.or_eq_true] at hcond
    rw [String.contains_char_eq, decide_eq_true_eq] at hslash
    rcases hcond with heq | hleads
    · rw [← beq_iff_eq.1 heq] at hslash
      revert hslash
      decide
    · rw [List.isPrefixOf_iff_prefix, String.toList_append] at hleads
      have hlength := hleads.length_le
      have hpos : 0 < (cleanPattern pattern).toList.length := List.length_pos_of_mem hslash
      rw [List.length_append] at hlength
      have hone : ("/" : String).toList.length = 1 ∧ ("." : String).toList.length = 1 := by decide
      omega
  · rw [if_neg hslash] at hcond
    have hnone : (ofString ".").allParts = [] := by decide
    rw [hnone] at hcond
    cases hcond

/-- **A plain pattern that selects a directory selects all that lies below it.** -/
theorem selects_below {pattern d : String} (hplain : isGlob pattern = false) (h : selects pattern d = true)
    (rest : String) : selects pattern (d ++ "/" ++ rest) = true := by
  have hdot := not_dot_of_selects hplain h
  rw [selects_plain hplain, Bool.and_eq_true] at h ⊢
  obtain ⟨hne, hcond⟩ := h
  refine ⟨hne, ?_⟩
  rw [forward_below hdot]
  by_cases hslash : (cleanPattern pattern).contains '/' = true
  · rw [if_pos hslash, Bool.or_eq_true] at hcond ⊢
    right
    have hchars : (forward d ++ "/" ++ String.ofList (slashed rest)).toList =
        (forward d).toList ++ ("/".toList ++ slashed rest) := by simp
    rw [List.isPrefixOf_iff_prefix, hchars]
    rcases hcond with heq | hleads
    · rw [beq_iff_eq.1 heq, String.toList_append, ← List.append_assoc]
      exact List.prefix_append _ _
    · exact (List.isPrefixOf_iff_prefix.1 hleads).trans (List.prefix_append _ _)
  · rw [if_neg hslash] at hcond ⊢
    rw [String.contains_char_eq, decide_eq_true_eq] at hslash
    have hmem : cleanPattern pattern ∈ components (forward d) :=
      mem_components (List.contains_iff_mem.1 hcond) hslash
    have hbelow : cleanPattern pattern ∈ components (forward d ++ "/" ++ String.ofList (slashed rest)) := by
      rw [components_below]
      exact List.mem_append_left _ hmem
    exact List.contains_iff_mem.2 (mem_allParts_of_mem hbelow)

end Path

/-- **Nothing below a directory that is pruned is accepted.** -/
theorem Selection.prunes_below {s : Selection} {d : String} (h : s.prunes d = true) (rest : String) :
    s.accepts (d ++ "/" ++ rest) = false := by
  rw [prunes, List.any_eq_true] at h
  obtain ⟨p, hp, hselects⟩ := h
  rw [Bool.and_eq_true, Bool.not_eq_true'] at hselects
  have hexcluded : s.exclude.any (Path.selects · (d ++ "/" ++ rest)) = true :=
    List.any_eq_true.2 ⟨p, hp, Path.selects_below hselects.1 hselects.2 rest⟩
  rw [accepts, hexcluded, Bool.not_true, Bool.false_and]

end CodeReview
