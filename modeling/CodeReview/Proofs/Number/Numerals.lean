import CodeReview.Number.Decimal
/-!
# Numerals

The characters of numerals: an integer is written as its digits, behind a sign if it is below zero (`toString_toList`), and
digits, points, signs and marks of exponents are printed characters of ASCII (`Printed`).
-/
namespace CodeReview

/-- Whether characters are printed ones of ASCII, from the space to the tilde. -/
def Printed (cs : List Char) : Prop := ∀ c ∈ cs, 32 ≤ c.toNat ∧ c.toNat ≤ 126

instance (cs : List Char) : Decidable (Printed cs) :=
  List.decidableBAll (fun c : Char => 32 ≤ c.toNat ∧ c.toNat ≤ 126) cs

namespace Printed

theorem append {cs ds : List Char} (hc : Printed cs) (hd : Printed ds) : Printed (cs ++ ds) := fun c h =>
  (List.mem_append.1 h).elim (hc c) (hd c)

theorem cons {c : Char} {cs : List Char} (hc : Printed [c]) (hcs : Printed cs) : Printed (c :: cs) := append hc hcs

theorem of_subset {cs ds : List Char} (hd : Printed ds) (h : cs ⊆ ds) : Printed cs := fun c hc => hd c (h hc)

theorem replicate {c : Char} (hc : Printed [c]) (n : Nat) : Printed (List.replicate n c) := fun _ hd =>
  hc _ (List.mem_singleton.2 (List.eq_of_mem_replicate hd))

theorem string_append {s t : String} (hs : Printed s.toList) (ht : Printed t.toList) : Printed (s ++ t).toList := by
  rw [String.toList_append]
  exact hs.append ht

end Printed

namespace Number

theorem digitChar_printed (d : Nat) : Printed [d.digitChar] := by
  rcases Nat.lt_or_ge d 16 with h | h
  · exact (by decide : ∀ d < 16, Printed [d.digitChar]) d h
  · -- the mark of what is no digit
    have hmark : d.digitChar = '*' := by
      rw [Nat.digitChar]
      iterate 16 rw [if_neg (by omega)]
    rw [hmark]
    decide

theorem toDigits_printed {b : Nat} (hb : 1 < b) (n : Nat) : Printed (Nat.toDigits b n) := by
  induction n using Nat.strongRecOn with
  | ind n ih =>
    rw [Nat.toDigits_eq_if hb]
    split
    · exact digitChar_printed n
    · exact (ih (n / b) (Nat.div_lt_self (by omega) hb)).append (digitChar_printed (n % b))

theorem toDigits_injective {m n : Nat} (h : Nat.toDigits 10 m = Nat.toDigits 10 n) : m = n := by
  rw [← @Nat.ofDigitChars_ten_toDigits m, h, Nat.ofDigitChars_ten_toDigits]

theorem toString_injective {m n : Nat} (h : toString m = toString n) : m = n := by
  have hdigits : (Nat.repr m).toList = (Nat.repr n).toList := congrArg String.toList h
  rw [Nat.toList_repr, Nat.toList_repr] at hdigits
  exact toDigits_injective hdigits

theorem toString_toList (n : Int) : (toString n).toList = (if n < 0 then ['-'] else []) ++ Nat.toDigits 10 n.natAbs := by
  cases n with
  | ofNat n =>
    have hnat : toString (Int.ofNat n) = n.repr := rfl
    have hnonneg : ¬ Int.ofNat n < 0 := Int.not_lt.2 (Int.natCast_nonneg n)
    rw [hnat, Nat.toList_repr, if_neg hnonneg]
    rfl
  | negSucc n =>
    have hneg : toString (Int.negSucc n) = "-" ++ (n + 1).repr := rfl
    rw [hneg, String.toList_append, Nat.toList_repr, if_pos (Int.negSucc_lt_zero n)]
    rfl

theorem int_printed (n : Int) : Printed (toString n).toList := by
  rw [toString_toList]
  refine Printed.append ?_ (toDigits_printed (by decide) _)
  split <;> decide

theorem dropZeros_printed {ds : List Char} (h : Printed ds) : Printed (dropZeros ds) := by
  unfold dropZeros
  split
  · decide
  · refine h.of_subset fun c hc => ?_
    exact List.mem_reverse.1 (List.dropWhile_subset _ (List.mem_reverse.1 hc))

theorem write_printed (l : Layout) (d : Decimal) : Printed (l.write d).toList := by
  have hall : Printed (Nat.toDigits 10 d.digits) := toDigits_printed (by decide) _
  have hds : Printed (dropZeros (Nat.toDigits 10 d.digits)) := dropZeros_printed hall
  unfold Layout.write
  dsimp only
  split
  · split <;> decide
  rw [String.toList_ofList]
  split
  · split
    · exact .cons (by decide) (.cons (by decide) ((Printed.replicate (by decide) _).append hds))
    · have hfront : ∀ n m, Printed ((dropZeros (Nat.toDigits 10 d.digits)).take n ++ List.replicate m '0') := fun n m =>
        (hds.of_subset (List.take_subset n _)).append (Printed.replicate (by decide) m)
      split
      · split
        · exact (hfront _ _).append (by decide)
        · exact hfront _ _
      · rename_i rest hrest
        exact (hfront _ _).append (.cons (by decide) (hds.of_subset (List.drop_subset _ _)))
  · have hexponent (n : Nat) : Printed (Nat.toDigits 10 n) := toDigits_printed (by decide) n
    refine Printed.append ?_ (.cons (by decide) (.cons (by split <;> decide) ?_))
    · split
      · decide
      · rename_i a ha
        rwa [← ha]
      · rename_i a rest _ ha
        rw [ha] at hds
        exact .cons (hds.of_subset (by simp)) (.cons (by decide) (hds.of_subset (by simp)))
    · split
      · exact .cons (by decide) (hexponent _)
      · exact hexponent _

end Number

end CodeReview
