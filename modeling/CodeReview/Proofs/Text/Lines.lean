import CodeReview.Text.Lines
import Mathlib.Data.List.TakeWhile
/-!
# Lines and places

A list is as many lines as it has separators and one more (`length_splitOn`).  The elements before a place are the lines
that end before it and the beginning of another one, in which the place is (`exists_line`).  A text that is made of lines
falls into them again if they have no line feed inside (`splitOn_ofLines`).
-/
namespace CodeReview.Text

variable {α : Type} [BEq α]

theorem splitOn_ne_nil (sep : α) : ∀ xs : List α, splitOn sep xs ≠ []
  | [] => by simp [splitOn]
  | x :: xs => by
    rw [splitOn]
    split
    · simp
    · split <;> simp

theorem length_splitOn (sep : α) : ∀ xs : List α, (splitOn sep xs).length = xs.count sep + 1
  | [] => rfl
  | x :: xs => by
    have ih := length_splitOn sep xs
    rw [splitOn, List.count_cons]
    by_cases hx : (x == sep) = true
    · rw [if_pos hx, if_pos hx, List.length_cons, ih]
    · rw [if_neg hx, if_neg hx, ← ih]
      cases hxs : splitOn sep xs with
      | nil => exact absurd hxs (splitOn_ne_nil sep xs)
      | cons p ps => rfl

theorem mem_of_mem_splitOn {sep : α} : ∀ {xs line : List α}, line ∈ splitOn sep xs → ∀ x ∈ line, x ∈ xs
  | [], line, h, x, hx => by
    rw [List.mem_singleton.1 h] at hx
    cases hx
  | y :: ys, line, h, x, hx => by
    rw [splitOn] at h
    split at h
    · rcases List.mem_cons.1 h with rfl | h
      · cases hx
      · exact List.mem_cons_of_mem y (mem_of_mem_splitOn h x hx)
    · cases hys : splitOn sep ys with
      | nil => exact absurd hys (splitOn_ne_nil sep ys)
      | cons p ps =>
        rw [hys] at h
        rcases List.mem_cons.1 h with rfl | h
        · rcases List.mem_cons.1 hx with rfl | hx
          · exact List.mem_cons_self ..
          · exact List.mem_cons_of_mem y (mem_of_mem_splitOn (hys ▸ List.mem_cons_self ..) x hx)
        · exact List.mem_cons_of_mem y (mem_of_mem_splitOn (hys ▸ List.mem_cons_of_mem p h) x hx)

variable [LawfulBEq α]

theorem splitOn_append (sep : α) (ys : List α) : ∀ xs : List α,
    splitOn sep (xs ++ sep :: ys) = splitOn sep xs ++ splitOn sep ys
  | [] => by simp [splitOn]
  | x :: xs => by
    rw [List.cons_append, splitOn, splitOn, splitOn_append sep ys xs]
    by_cases hx : (x == sep) = true
    · rw [if_pos hx, if_pos hx]
      rfl
    · rw [if_neg hx, if_neg hx]
      cases hxs : splitOn sep xs with
      | nil => exact absurd hxs (splitOn_ne_nil sep xs)
      | cons p ps => rfl

theorem splitOn_append_left {sep : α} {ys : List α} : ∀ {xs : List α}, sep ∉ xs →
    splitOn sep (xs ++ ys) = (splitOn sep ys).modifyHead (xs ++ ·)
  | [], _ => by
    rw [List.nil_append]
    cases splitOn sep ys <;> rfl
  | x :: xs, h => by
    rw [List.mem_cons, not_or] at h
    rw [List.cons_append, splitOn, if_neg (by simpa using Ne.symm h.1), splitOn_append_left h.2]
    cases hys : splitOn sep ys with
    | nil => exact absurd hys (splitOn_ne_nil sep ys)
    | cons p ps => rfl

theorem exists_behind_last (sep : α) (xs : List α) : ∃ behind, sep ∉ behind ∧
    (xs.reverse.takeWhile (· != sep)).length = behind.length ∧
    (xs = behind ∨ ∃ ended, xs = ended ++ sep :: behind) := by
  have hfree : sep ∉ (xs.reverse.takeWhile (· != sep)).reverse := fun hmem => by
    simpa using List.mem_takeWhile_imp (List.mem_reverse.1 hmem)
  have hxs : xs = (xs.reverse.dropWhile (· != sep)).reverse ++ (xs.reverse.takeWhile (· != sep)).reverse := by
    rw [← List.reverse_append, List.takeWhile_append_dropWhile, List.reverse_reverse]
  refine ⟨_, hfree, List.length_reverse.symm, ?_⟩
  cases hdrop : xs.reverse.dropWhile (· != sep) with
  | nil =>
    rw [hdrop, List.reverse_nil, List.nil_append] at hxs
    exact .inl hxs
  | cons s rest =>
    have hs : (s != sep) = false := by
      have hhead := List.head?_dropWhile_not (· != sep) xs.reverse
      rw [hdrop] at hhead
      exact hhead
    rw [bne_eq_false_iff_eq] at hs
    rw [hdrop, List.reverse_cons, List.append_assoc, hs] at hxs
    exact .inr ⟨rest.reverse, hxs⟩

/-- **Each place is in a line**, which as many separators come before as come before the place. -/
theorem exists_line (sep : α) (xs ys : List α) : ∃ line, (splitOn sep (xs ++ ys))[xs.count sep]? = some line ∧
    (xs.reverse.takeWhile (· != sep)).length ≤ line.length := by
  obtain ⟨behind, hfree, hlength, hcases⟩ := exists_behind_last sep xs
  obtain ⟨p, ps, hp⟩ := List.exists_cons_of_ne_nil (splitOn_ne_nil sep ys)
  have hcount : behind.count sep = 0 := List.count_eq_zero_of_not_mem hfree
  have hline : splitOn sep (behind ++ ys) = (behind ++ p) :: ps := by
    rw [splitOn_append_left hfree, hp]
    rfl
  refine ⟨behind ++ p, ?_, by rw [hlength, List.length_append]; exact Nat.le_add_right _ _⟩
  rcases hcases with rfl | ⟨ended, rfl⟩
  · rw [hline, hcount]
    rfl
  · have hrow : (ended ++ sep :: behind).count sep = (splitOn sep ended).length := by
      rw [length_splitOn, List.count_append, List.count_cons_self, hcount]
    rw [hrow, List.append_assoc, List.cons_append, splitOn_append, hline,
      List.getElem?_append_right (Nat.le_refl _), Nat.sub_self]
    rfl

/-! ## Texts of lines -/

/-- **A text of lines is its lines**, each with a line feed behind it. -/
theorem toList_ofLines (lines : List String) : (ofLines lines).toList = lines.flatMap fun l => l.toList ++ ['\n'] := by
  have hfold : ∀ (lines : List String) (out : String), (lines.foldl (fun out l => out ++ l ++ "\n") out).toList =
      out.toList ++ lines.flatMap fun l => l.toList ++ ['\n'] := by
    intro lines
    induction lines with
    | nil => intro out; simp
    | cons l lines ih => intro out; rw [List.foldl_cons, ih]; simp
  exact hfold lines ""

theorem eq_ofLines_iff {s : String} {lines : List String} :
    s = ofLines lines ↔ s.toList = lines.flatMap fun l => l.toList ++ ['\n'] := by
  rw [← String.toList_inj, toList_ofLines]

theorem ofLines_append (ls ls' : List String) : ofLines (ls ++ ls') = ofLines ls ++ ofLines ls' := by
  apply String.toList_injective
  rw [String.toList_append, toList_ofLines, toList_ofLines, toList_ofLines, List.flatMap_append]

/-- Lines can be told apart by their ends. -/
theorem splitOn_ofLines : ∀ lines : List String, (∀ l ∈ lines, '\n' ∉ l.toList) →
    splitOn '\n' (ofLines lines).toList = lines.map String.toList ++ [[]]
  | [], _ => rfl
  | l :: lines, h => by
    have ih := splitOn_ofLines lines fun l' hl' => h l' (by simp [hl'])
    have hl : splitOn '\n' l.toList = [l.toList] := by
      have hleft : splitOn '\n' (l.toList ++ []) = _ := splitOn_append_left (h l (by simp))
      rw [List.append_nil] at hleft
      simpa [splitOn] using hleft
    rw [toList_ofLines] at ih ⊢
    rw [List.flatMap_cons, List.append_assoc, List.singleton_append, splitOn_append, hl, ih]
    rfl

end CodeReview.Text
