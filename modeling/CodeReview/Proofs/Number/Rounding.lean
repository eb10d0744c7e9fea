import CodeReview.Number.Rounding
import Mathlib.Algebra.Order.Field.Power
import Mathlib.Algebra.Order.Group.Abs
import Mathlib.Data.Int.ConditionallyCompleteOrder
import Mathlib.Data.Rat.Cast.Order
import Mathlib.Order.Monotone.Odd
import Mathlib.Tactic.Linarith
import Mathlib.Tactic.Positivity
import Mathlib.Tactic.Ring
/-!
# Rounding keeps the order

Both ways of rounding are monotone: to the nearest integer (`roundEven_mono`) and to the nearest number of 53 significant
bits (`nearest53_mono`).  What needs no rounding is kept: integers by the one, and integers of 53 bits by the other
(`nearest53_natCast`).  No rounding goes up by more than half a unit (`roundEven_le_add_half`, `nearest53_le_add`).
-/
namespace CodeReview.Number

/-! ## Integers -/

/-- The nearest integer lies above an integer just if the quotient lies above the midpoint behind that, or on the midpoint
behind an odd one. -/
theorem lt_roundDiv_iff {n d k : ℕ} (hd : 0 < d) :
    k < roundDiv n d ↔ (2 * k + 1) * d < 2 * n ∨ ((2 * k + 1) * d = 2 * n ∧ k % 2 = 1) := by
  have hn : n = d * (n / d) + n % d := (Nat.div_add_mod n d).symm
  have hr : n % d < d := Nat.mod_lt n hd
  unfold roundDiv
  generalize n / d = q at hn ⊢
  generalize n % d = r at hn hr ⊢
  subst hn
  dsimp only
  rcases Nat.lt_trichotomy k q with hk | rfl | hk
  · have hle : (2 * k + 1) * d + d ≤ 2 * (d * q) := by nlinarith
    split_ifs <;> omega
  · have heq : (2 * k + 1) * d = 2 * (d * k) + d := by ring
    rw [heq]
    split_ifs <;> omega
  · have hle : 2 * (d * q) + 3 * d ≤ (2 * k + 1) * d := by nlinarith
    split_ifs <;> omega

theorem lt_roundDiv_iff_rat {n d k : ℕ} (hd : 0 < d) :
    k < roundDiv n d ↔ (k : ℚ) + 1 / 2 < n / d ∨ ((k : ℚ) + 1 / 2 = n / d ∧ k % 2 = 1) := by
  have hpos : (0 : ℚ) < d := Nat.cast_pos.2 hd
  have hlt : (k : ℚ) + 1 / 2 < n / d ↔ (2 * k + 1) * d < 2 * n := by
    rw [lt_div_iff₀ hpos, ← Nat.cast_lt (α := ℚ)]
    push_cast
    constructor <;> intro h <;> linarith
  have heq : (k : ℚ) + 1 / 2 = n / d ↔ (2 * k + 1) * d = 2 * n := by
    rw [eq_div_iff hpos.ne', ← Nat.cast_inj (R := ℚ)]
    push_cast
    constructor <;> intro h <;> linarith
  rw [lt_roundDiv_iff hd, hlt, heq]

/-- **The nearest integer grows with the quotient.** -/
theorem roundDiv_mono {n d n' d' : ℕ} (hd : 0 < d) (hd' : 0 < d') (h : (n : ℚ) / d ≤ n' / d') :
    roundDiv n d ≤ roundDiv n' d' := by
  refine le_of_forall_lt fun k hk => ?_
  rw [lt_roundDiv_iff_rat hd] at hk
  rw [lt_roundDiv_iff_rat hd']
  rcases hk with hk | ⟨hk, hodd⟩
  · exact .inl (hk.trans_le h)
  · rcases (hk.trans_le h).lt_or_eq with hlt | heq
    · exact .inl hlt
    · exact .inr ⟨heq, hodd⟩

theorem natAbs_num_div_den (q : ℚ) : (q.num.natAbs : ℚ) / q.den = |q| := by
  rw [Nat.cast_natAbs, Int.cast_abs, ← Nat.abs_cast q.den, ← abs_div, Rat.num_div_den]

theorem roundEven_neg (q : ℚ) : roundEven (-q) = -roundEven q := by
  simp only [roundEven, Rat.neg_num, Rat.neg_den, Int.natAbs_neg]
  rcases Int.lt_trichotomy q.num 0 with h | h | h
  · rw [if_neg (by omega), if_pos h, Int.neg_neg]
  · have hzero : roundDiv 0 q.den = 0 := by simp [roundDiv, q.den_pos]
    simp [h, hzero]
  · rw [if_pos (by omega), if_neg (by omega)]

theorem roundEven_of_nonneg {q : ℚ} (hq : 0 ≤ q) : roundEven q = roundDiv q.num.natAbs q.den := by
  rw [roundEven, if_neg (not_lt.2 (Rat.num_nonneg.2 hq))]

theorem roundEven_div {n d : ℕ} (hd : 0 < d) : roundEven ((n : ℚ) / d) = roundDiv n d := by
  have hq : (0 : ℚ) ≤ n / d := by positivity
  have hsame : ((n / d : ℚ).num.natAbs : ℚ) / (n / d : ℚ).den = n / d := by
    rw [natAbs_num_div_den, abs_of_nonneg hq]
  rw [roundEven_of_nonneg hq]
  exact congrArg Int.ofNat (le_antisymm (roundDiv_mono (Rat.den_pos _) hd hsame.le) (roundDiv_mono hd (Rat.den_pos _) hsame.ge))

/-- **Rounding to an integer keeps the order.** -/
theorem roundEven_mono : Monotone roundEven := by
  refine monotone_of_odd_of_monotoneOn_nonneg roundEven_neg fun p hp q hq hpq => ?_
  rw [roundEven_of_nonneg hp, roundEven_of_nonneg hq]
  refine Int.ofNat_le.2 (roundDiv_mono p.den_pos q.den_pos ?_)
  rwa [natAbs_num_div_den, natAbs_num_div_den, abs_of_nonneg hp, abs_of_nonneg hq]

theorem roundEven_intCast (n : ℤ) : roundEven n = n := by
  have hnat : ∀ m : ℕ, roundDiv m 1 = m := fun m => by simp [roundDiv, Nat.mod_one]
  rw [roundEven, Rat.num_intCast, Rat.den_intCast, hnat]
  split_ifs <;> omega

theorem le_roundEven {n : ℤ} {q : ℚ} (h : n ≤ q) : n ≤ roundEven q := roundEven_intCast n ▸ roundEven_mono h

theorem roundEven_le {n : ℤ} {q : ℚ} (h : q ≤ n) : roundEven q ≤ n := roundEven_intCast n ▸ roundEven_mono h

theorem roundDiv_le_add_half (n : ℕ) {d : ℕ} (hd : 0 < d) : (roundDiv n d : ℚ) ≤ n / d + 1 / 2 := by
  rcases Nat.eq_zero_or_pos (roundDiv n d) with hzero | hpos
  · rw [hzero, Nat.cast_zero]
    positivity
  · obtain ⟨k, hk⟩ : ∃ k, roundDiv n d = k + 1 := ⟨roundDiv n d - 1, by omega⟩
    have hbelow : (k : ℚ) + 1 / 2 ≤ n / d := by
      rcases (lt_roundDiv_iff_rat hd).1 (show k < roundDiv n d by omega) with h | ⟨h, -⟩
      · exact h.le
      · exact h.le
    rw [hk]
    push_cast
    linarith

theorem roundEven_le_add_half {q : ℚ} (hq : 0 ≤ q) : (roundEven q : ℚ) ≤ q + 1 / 2 := by
  have h := roundDiv_le_add_half q.num.natAbs q.den_pos
  rw [natAbs_num_div_den, abs_of_nonneg hq] at h
  rw [roundEven_of_nonneg hq]
  exact_mod_cast h

/-! ## Numbers of 53 significant bits -/

theorem twoTo_pos (n : ℕ) : 0 < twoTo n := Nat.two_pow_pos n

theorem twoPow_eq (e : ℤ) : twoPow e = (2 : ℚ) ^ e := by
  unfold twoPow twoTo
  split_ifs with h
  · obtain ⟨n, rfl⟩ := Int.eq_ofNat_of_zero_le h
    simp
  · obtain ⟨n, hn⟩ := Int.eq_ofNat_of_zero_le (show 0 ≤ -e by omega)
    obtain rfl : e = -n := by omega
    simp [Rat.mkRat_eq_div]

/-- The exponent that `nearestParts` starts from is the right one or one too high. -/
theorem estimate_bounds {num den : ℕ} (hnum : num ≠ 0) (hden : den ≠ 0) :
    (2 : ℚ) ^ ((num.log2 : ℤ) - den.log2 - 52 + 51) < num / den ∧
      (num : ℚ) / den < 2 ^ ((num.log2 : ℤ) - den.log2 - 52 + 53) := by
  have hnumlow : (2 : ℚ) ^ num.log2 ≤ num := by exact_mod_cast Nat.log2_self_le hnum
  have hnumhigh : (num : ℚ) < 2 ^ (num.log2 + 1) := by exact_mod_cast Nat.lt_log2_self
  have hdenlow : (2 : ℚ) ^ den.log2 ≤ den := by exact_mod_cast Nat.log2_self_le hden
  have hdenhigh : (den : ℚ) < 2 ^ (den.log2 + 1) := by exact_mod_cast Nat.lt_log2_self
  have hpos : (0 : ℚ) < den := Nat.cast_pos.2 (Nat.pos_of_ne_zero hden)
  generalize num.log2 = a at hnumlow hnumhigh ⊢
  generalize den.log2 = b at hdenlow hdenhigh ⊢
  constructor
  · rw [lt_div_iff₀ hpos]
    calc (2 : ℚ) ^ ((a : ℤ) - b - 52 + 51) * den < 2 ^ ((a : ℤ) - b - 52 + 51) * 2 ^ (b + 1) := by gcongr
      _ = 2 ^ a := by rw [← zpow_natCast, ← zpow_natCast, ← zpow_add₀ two_ne_zero]; congr 1; push_cast; ring
      _ ≤ num := hnumlow
  · rw [div_lt_iff₀ hpos]
    calc (num : ℚ) < 2 ^ (a + 1) := hnumhigh
      _ = 2 ^ ((a : ℤ) - b - 52 + 53) * 2 ^ b := by
        rw [← zpow_natCast, ← zpow_natCast, ← zpow_add₀ two_ne_zero]; congr 1; push_cast; ring
      _ ≤ 2 ^ ((a : ℤ) - b - 52 + 53) * den := by gcongr

theorem units_eq (num den : ℕ) (e : ℤ) : (num : ℚ) / den / 2 ^ e =
    if 0 ≤ e then (num : ℚ) / (den * twoTo e.toNat : ℕ) else ((num * twoTo (-e).toNat : ℕ) : ℚ) / den := by
  unfold twoTo
  split_ifs with h
  · obtain ⟨n, rfl⟩ := Int.eq_ofNat_of_zero_le h
    simp [div_div]
  · obtain ⟨n, hn⟩ := Int.eq_ofNat_of_zero_le (show 0 ≤ -e by omega)
    obtain rfl : e = -n := by omega
    simp [div_mul_eq_mul_div]

theorem floor_units {num den : ℕ} (hden : den ≠ 0) (e : ℤ) {k : ℕ} :
    (if 0 ≤ e then num / (den * twoTo e.toNat) else num * twoTo (-e).toNat / den) < k ↔ (num : ℚ) / den / 2 ^ e < k := by
  have hlt : ∀ {a b : ℕ}, 0 < b → (a / b < k ↔ (a : ℚ) / b < k) := by
    intro a b hb
    rw [Nat.div_lt_iff_lt_mul hb, div_lt_iff₀ (Nat.cast_pos.2 hb)]
    exact_mod_cast Iff.rfl
  rw [units_eq]
  split_ifs
  · exact hlt (Nat.mul_pos (Nat.pos_of_ne_zero hden) (twoTo_pos _))
  · exact hlt (Nat.pos_of_ne_zero hden)

theorem round_units (num : ℕ) {den : ℕ} (hden : den ≠ 0) (e : ℤ) :
    ((if 0 ≤ e then roundDiv num (den * twoTo e.toNat) else roundDiv (num * twoTo (-e).toNat) den : ℕ) : ℤ) =
      roundEven ((num : ℚ) / den / 2 ^ e) := by
  rw [units_eq]
  split_ifs
  · rw [roundEven_div (Nat.mul_pos (Nat.pos_of_ne_zero hden) (twoTo_pos _))]
  · rw [roundEven_div (Nat.pos_of_ne_zero hden)]

/-- The exponent of a quotient in lowest terms that `nearestParts` starts from. -/
def estimate (q : ℚ) : ℤ := (q.num.natAbs.log2 : ℤ) - q.den.log2 - 52

/-- The exponent at which a positive number has 53 bits, or the least one. -/
def exponentOf (q : ℚ) : ℤ := max minExponent (if q / 2 ^ estimate q < 2 ^ 52 then estimate q - 1 else estimate q)

theorem exponentOf_bounds {q : ℚ} (hq : 0 < q) :
    q < 2 ^ (exponentOf q + 53) ∧ (minExponent < exponentOf q → 2 ^ (exponentOf q + 52) ≤ q) := by
  have hquotient : (q.num.natAbs : ℚ) / q.den = q := by rw [natAbs_num_div_den, abs_of_pos hq]
  obtain ⟨hlow, hhigh⟩ := estimate_bounds (Int.natAbs_ne_zero.2 (Rat.num_pos.2 hq).ne') q.den_nz
  rw [hquotient] at hlow hhigh
  change 2 ^ (estimate q + 51) < q at hlow
  change q < 2 ^ (estimate q + 53) at hhigh
  have hmiddle : q / 2 ^ estimate q < 2 ^ 52 ↔ q < 2 ^ (estimate q + 52) := by
    rw [div_lt_iff₀ (by positivity), zpow_add₀ two_ne_zero, mul_comm]
    rfl
  obtain ⟨bits, hbits, hfrom, hto⟩ : ∃ bits, exponentOf q = max minExponent bits ∧ 2 ^ (bits + 52) ≤ q ∧
      q < 2 ^ (bits + 53) := by
    refine ⟨_, rfl, ?_⟩
    split_ifs with h
    · rw [show estimate q - 1 + 52 = estimate q + 51 by omega, show estimate q - 1 + 53 = estimate q + 52 by omega]
      exact ⟨hlow.le, hmiddle.1 h⟩
    · exact ⟨not_lt.1 fun hlt => h (hmiddle.2 hlt), hhigh⟩
  rw [hbits]
  constructor
  · exact hto.trans_le (zpow_le_zpow_right₀ one_le_two (by omega))
  · intro h
    rwa [max_eq_right (by omega)]

/-- **The number of 53 bits nearest to a positive one** is the nearest integer in units of a power of two. -/
theorem nearest53_of_pos {q : ℚ} (hq : 0 < q) : nearest53 q = roundEven (q / 2 ^ exponentOf q) * 2 ^ exponentOf q := by
  have hnum : q.num.natAbs ≠ 0 := Int.natAbs_ne_zero.2 (Rat.num_pos.2 hq).ne'
  have hden : q.den ≠ 0 := q.den_nz
  have hquotient : (q.num.natAbs : ℚ) / q.den = q := by rw [natAbs_num_div_den, abs_of_pos hq]
  have hsign : ¬ q.num < 0 := not_lt.2 (Rat.num_pos.2 hq).le
  have htwo : ((twoTo 52 : ℕ) : ℚ) = 2 ^ 52 := by norm_num [twoTo]
  have hround := round_units q.num.natAbs hden (exponentOf q)
  rw [hquotient] at hround
  rw [nearest53, nearestParts, if_neg (by simp [hnum, hden]), ← hround]
  dsimp only
  rw [if_neg hsign, twoPow_eq]
  simp only [floor_units hden, hquotient, htwo]
  rfl

theorem nearest53_neg (q : ℚ) : nearest53 (-q) = -nearest53 q := by
  simp only [nearest53, Rat.neg_num, Rat.neg_den, Int.natAbs_neg]
  rcases Int.lt_trichotomy q.num 0 with h | h | h
  · rw [if_neg (by omega), if_pos h, neg_neg]
  · simp [h, nearestParts]
  · rw [if_pos (by omega), if_neg (by omega)]

theorem nearest53_zero : nearest53 0 = 0 := by simp [nearest53, nearestParts]

theorem nearest53_le_of_pos {p q : ℚ} (hp : 0 < p) (hpq : p ≤ q) : nearest53 p ≤ nearest53 q := by
  have hq : 0 < q := hp.trans_le hpq
  obtain ⟨hptop, hpbits⟩ := exponentOf_bounds hp
  obtain ⟨hqtop, hqbits⟩ := exponentOf_bounds hq
  have hpmin : minExponent ≤ exponentOf p := le_max_left _ _
  have hqmin : minExponent ≤ exponentOf q := le_max_left _ _
  rw [nearest53_of_pos hp, nearest53_of_pos hq]
  generalize exponentOf p = e at hptop hpbits hpmin ⊢
  generalize exponentOf q = f at hqtop hqbits hqmin ⊢
  have hscale : ∀ g : ℤ, (0 : ℚ) < 2 ^ g := fun g => by positivity
  rcases lt_trichotomy e f with hlt | rfl | hgt
  · -- a power of two lies between the two: what has fewer bits is not rounded above it, nor the greater one below
    have hlow : ((2 ^ 52 : ℤ) : ℚ) ≤ roundEven (q / 2 ^ f) := by
      refine Int.cast_le.2 (le_roundEven ?_)
      rw [le_div_iff₀ (hscale f), Int.cast_pow, Int.cast_ofNat, ← zpow_natCast, ← zpow_add₀ two_ne_zero, add_comm]
      exact hqbits (by omega)
    have hhigh : (roundEven (p / 2 ^ e) : ℚ) ≤ ((2 ^ 53 : ℤ) : ℚ) := by
      refine Int.cast_le.2 (roundEven_le ?_)
      rw [div_le_iff₀ (hscale e), Int.cast_pow, Int.cast_ofNat, ← zpow_natCast, ← zpow_add₀ two_ne_zero, add_comm]
      exact hptop.le
    have hbetween : ((2 ^ 53 : ℤ) : ℚ) * 2 ^ e ≤ ((2 ^ 52 : ℤ) : ℚ) * 2 ^ f := by
      rw [Int.cast_pow, Int.cast_pow, Int.cast_ofNat, ← zpow_natCast, ← zpow_natCast, ← zpow_add₀ two_ne_zero,
        ← zpow_add₀ two_ne_zero]
      exact zpow_le_zpow_right₀ one_le_two (by push_cast; omega)
    calc (roundEven (p / 2 ^ e) : ℚ) * 2 ^ e ≤ ((2 ^ 53 : ℤ) : ℚ) * 2 ^ e := mul_le_mul_of_nonneg_right hhigh (hscale e).le
      _ ≤ ((2 ^ 52 : ℤ) : ℚ) * 2 ^ f := hbetween
      _ ≤ roundEven (q / 2 ^ f) * 2 ^ f := mul_le_mul_of_nonneg_right hlow (hscale f).le
  · have hround : (roundEven (p / 2 ^ e) : ℚ) ≤ roundEven (q / 2 ^ e) :=
      Int.cast_le.2 (roundEven_mono (div_le_div_of_nonneg_right hpq (hscale e).le))
    exact mul_le_mul_of_nonneg_right hround (hscale e).le
  · have hbelow : (2 : ℚ) ^ (f + 53) ≤ 2 ^ (e + 52) := zpow_le_zpow_right₀ one_le_two (by omega)
    exact absurd (hpq.trans_lt hqtop) (not_lt.2 (hbelow.trans (hpbits (by omega))))

theorem nearest53_nonneg {q : ℚ} (hq : 0 ≤ q) : 0 ≤ nearest53 q := by
  rcases hq.eq_or_lt with rfl | hpos
  · exact nearest53_zero.ge
  · have hround : 0 ≤ roundEven (q / 2 ^ exponentOf q) := le_roundEven (by rw [Int.cast_zero]; positivity)
    rw [nearest53_of_pos hpos]
    positivity

/-- **Rounding to 53 bits keeps the order.** -/
theorem nearest53_mono : Monotone nearest53 := by
  refine monotone_of_odd_of_monotoneOn_nonneg nearest53_neg fun p hp q hq hpq => ?_
  rcases (Set.mem_Ici.1 hp).eq_or_lt with rfl | hpos
  · rw [nearest53_zero]
    exact nearest53_nonneg hq
  · exact nearest53_le_of_pos hpos hpq

/-- **An integer of 53 bits is kept.** -/
theorem nearest53_natCast {n : ℕ} (hn : n < 2 ^ 53) : nearest53 n = n := by
  rcases Nat.eq_zero_or_pos n with rfl | hpos
  · exact nearest53_zero
  have hq : (0 : ℚ) < n := Nat.cast_pos.2 hpos
  have hexponent : exponentOf n ≤ 0 := by
    by_contra hlarge
    have hbits := (exponentOf_bounds hq).2 (by rw [minExponent]; omega)
    have hpower : (2 : ℚ) ^ (53 : ℕ) ≤ 2 ^ (exponentOf n + 52) := by
      rw [← zpow_natCast]
      exact zpow_le_zpow_right₀ one_le_two (by push_cast; omega)
    exact absurd (hpower.trans hbits) (not_le.2 (by exact_mod_cast hn))
  -- at such an exponent the integer is one in units of the power as well
  have hunits : (n : ℚ) / 2 ^ exponentOf n = ((n * 2 ^ (-exponentOf n).toNat : ℤ) : ℚ) := by
    push_cast
    rw [← zpow_natCast, Int.toNat_of_nonneg (by omega), zpow_neg, div_eq_mul_inv]
  rw [nearest53_of_pos hq, hunits, roundEven_intCast, ← hunits, div_mul_cancel₀ _ (by positivity)]

/-- **A number is rounded up by half a unit at most**, and the unit is small where the number is. -/
theorem nearest53_le_add {q : ℚ} (hq : 0 < q) {n : ℕ} (hn : q < 2 ^ n) : nearest53 q ≤ q + 2 ^ ((n : ℤ) - 54) := by
  have hunit : (0 : ℚ) < 2 ^ exponentOf q := by positivity
  have hexponent : exponentOf q ≤ (n : ℤ) - 53 := by
    by_contra hlarge
    have hbits := (exponentOf_bounds hq).2 (by rw [minExponent]; omega)
    have hpower : (2 : ℚ) ^ n ≤ 2 ^ (exponentOf q + 52) := by
      rw [← zpow_natCast]
      exact zpow_le_zpow_right₀ one_le_two (by omega)
    exact absurd (hbits.trans_lt hn) (not_lt.2 hpower)
  have hround := roundEven_le_add_half (q := q / 2 ^ exponentOf q) (by positivity)
  rw [nearest53_of_pos hq]
  calc (roundEven (q / 2 ^ exponentOf q) : ℚ) * 2 ^ exponentOf q
      ≤ (q / 2 ^ exponentOf q + 1 / 2) * 2 ^ exponentOf q := mul_le_mul_of_nonneg_right hround hunit.le
    _ = q + 2 ^ (exponentOf q - 1) := by
      rw [add_mul, div_mul_cancel₀ _ hunit.ne', zpow_sub_one₀ two_ne_zero, div_mul_eq_mul_div, one_mul, div_eq_mul_inv]
    _ ≤ q + 2 ^ ((n : ℤ) - 54) := by
      have := zpow_le_zpow_right₀ (one_le_two (α := ℚ)) (show exponentOf q - 1 ≤ (n : ℤ) - 54 by omega)
      linarith

end CodeReview.Number
