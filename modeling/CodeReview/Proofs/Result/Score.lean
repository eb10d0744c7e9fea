import CodeReview.Proofs.Number.Rounding
import CodeReview.Proofs.Result.Sums
/-!
# The score is bounded and monotone

More weight in fewer lines never has the better score (`scoreWith_anti`), whatever the arithmetic of the computation is, as
long as it keeps the order of numbers and the integers up to 100: exact arithmetic does, and so does that of 53 significant
bits.  So a file without findings does not lower the score of a run, and one more finding does not raise it.
-/
namespace CodeReview

namespace Tally

/-- What a rounding of intermediate results has to keep. -/
structure Rounds (round : ℚ → ℚ) : Prop where
  mono : Monotone round
  whole : ∀ n : ℕ, n ≤ 100 → round n = n

theorem rounds_id : Rounds id := ⟨monotone_id, fun _ _ => rfl⟩

theorem rounds_nearest53 : Rounds Number.nearest53 :=
  ⟨Number.nearest53_mono, fun _ hn => Number.nearest53_natCast (hn.trans_lt (by norm_num))⟩

def divisor (round : ℚ → ℚ) (lines : Int) : ℚ := atLeast 1 (round (round lines * round findingsPerLine))

theorem rawScore_eq (round : ℚ → ℚ) (t : Tally) (lines : Int) :
    t.rawScore round lines = round (100 - round (round (round t.weighted / divisor round lines) * 100)) := rfl

theorem atLeast_eq (bound q : ℚ) : atLeast bound q = max q bound := by
  rw [atLeast, max_def]

theorem atMost_eq (bound q : ℚ) : atMost bound q = min bound q := by
  rw [atMost, min_def]

theorem one_le_divisor (round : ℚ → ℚ) (lines : Int) : 1 ≤ divisor round lines := by
  rw [divisor, atLeast_eq]
  exact le_max_right _ _

section

variable {round : ℚ → ℚ} (hround : Rounds round)
include hround

theorem Rounds.nonneg {q : ℚ} (hq : 0 ≤ q) : 0 ≤ round q := by
  have hzero : round 0 = 0 := by exact_mod_cast hround.whole 0 (Nat.zero_le _)
  exact hzero ▸ hround.mono hq

theorem divisor_mono {lines lines' : Int} (hlines : lines ≤ lines') : divisor round lines ≤ divisor round lines' := by
  have hfactor : 0 ≤ round findingsPerLine := hround.nonneg (by norm_num [findingsPerLine])
  rw [divisor, divisor, atLeast_eq, atLeast_eq]
  have hproduct := mul_le_mul_of_nonneg_right (hround.mono (Int.cast_le.2 hlines)) hfactor
  exact max_le_max_right 1 (hround.mono hproduct)

/-- More weight in fewer lines gives the lower score, before it is made an integer. -/
theorem rawScore_anti {t t' : Tally} {lines lines' : Int} (hweight : 0 ≤ t.weighted) (hmore : t.weighted ≤ t'.weighted)
    (hfewer : lines' ≤ lines) : t'.rawScore round lines' ≤ t.rawScore round lines := by
  have hshare : round t.weighted / divisor round lines ≤ round t'.weighted / divisor round lines' := by
    have hpos : 0 < divisor round lines' := one_pos.trans_le (one_le_divisor round lines')
    have hweight' : 0 ≤ round t'.weighted := hround.nonneg (Int.cast_nonneg (hweight.trans hmore))
    calc round t.weighted / divisor round lines ≤ round t'.weighted / divisor round lines :=
          div_le_div_of_nonneg_right (hround.mono (Int.cast_le.2 hmore))
            (one_pos.le.trans (one_le_divisor round lines))
      _ ≤ round t'.weighted / divisor round lines' := div_le_div_of_nonneg_left hweight' hpos (divisor_mono hround hfewer)
  rw [rawScore_eq, rawScore_eq]
  have hpercent := hround.mono (mul_le_mul_of_nonneg_right (hround.mono hshare) (by norm_num : (0 : ℚ) ≤ 100))
  exact hround.mono (sub_le_sub_left hpercent 100)

omit hround in
theorem scoreWith_bounds (t : Tally) (lines : Int) : 0 ≤ t.scoreWith round lines ∧ t.scoreWith round lines ≤ 100 := by
  unfold scoreWith
  split
  · decide
  · rw [atLeast_eq, atMost_eq]
    refine ⟨Number.le_roundEven ?_, Number.roundEven_le ?_⟩
    · exact_mod_cast le_max_right _ _
    · exact_mod_cast max_le (min_le_left _ _) (by norm_num)

omit hround in
theorem scoreWith_of_total_eq_zero {t : Tally} (h : t.total = 0) (lines : Int) : t.scoreWith round lines = 100 :=
  if_pos (beq_iff_eq.2 h)

/-- **More weight in fewer lines never has the better score**, also where the one without findings has no weight at all. -/
theorem scoreWith_anti {t t' : Tally} {lines lines' : Int} (hweight : 0 ≤ t.weighted) (hmore : t.weighted ≤ t'.weighted)
    (hfewer : lines' ≤ lines) (hfindings : t'.total = 0 → t.total = 0) :
    t'.scoreWith round lines' ≤ t.scoreWith round lines := by
  -- the score without findings is no value of the formula, but it is the upper bound
  by_cases hnone : t.total = 0
  · rw [scoreWith_of_total_eq_zero hnone]
    exact (scoreWith_bounds t' lines').2
  · rw [scoreWith, scoreWith, if_neg (by simpa using mt hfindings hnone), if_neg (by simpa using hnone)]
    have hraw := rawScore_anti hround hweight hmore hfewer
    rw [atLeast_eq, atLeast_eq, atMost_eq, atMost_eq]
    exact Number.roundEven_mono (max_le_max_right 0 (min_le_min_left 100 hraw))

end

/-! ## Counts and weights -/

theorem weight_mono {s s' : Severity} (h : s ≤ s') : s.weight ≤ s'.weight := by
  revert h
  cases s <;> cases s' <;> decide

theorem weighted_add (t : Tally) (s : Severity) : (t.add s).weighted = t.weighted + s.weight := by
  cases s <;> simp only [weighted, sumOver, count, add, Severity.weight] <;> omega

theorem total_add (t : Tally) (s : Severity) : (t.add s).total = t.total + 1 := by
  cases s <;> simp only [total, sumOver, count, add] <;> omega

theorem weighted_mono {t t' : Tally} (h : ∀ s, t.count s ≤ t'.count s) : t.weighted ≤ t'.weighted := by
  have := h .critical
  have := h .high
  have := h .medium
  have := h .low
  simp only [weighted, sumOver, Severity.weight]
  omega

theorem weighted_nonneg {t : Tally} (ht : ∀ s, 0 ≤ t.count s) : 0 ≤ t.weighted := by
  have hempty : ∀ s, ({} : Tally).count s = 0 := fun s => by cases s <;> rfl
  exact weighted_mono fun s => (hempty s).trans_le (ht s)

theorem total_eq_zero_of_le {t t' : Tally} (ht : ∀ s, 0 ≤ t.count s) (h : ∀ s, t.count s ≤ t'.count s)
    (hnone : t'.total = 0) : t.total = 0 := by
  have := And.intro (ht .critical) (h .critical)
  have := And.intro (ht .high) (h .high)
  have := And.intro (ht .medium) (h .medium)
  have := And.intro (ht .low) (h .low)
  simp only [total, sumOver] at hnone ⊢
  omega

theorem count_nonneg_addAll {t : Tally} (ht : ∀ s, 0 ≤ t.count s) (fs : List Finding) (s : Severity) :
    0 ≤ (t.addAll fs).count s := by
  rw [count_addAll]
  exact Int.add_nonneg (ht s) (Int.natCast_nonneg _)

theorem scoreWith_anti_count {round : ℚ → ℚ} (hround : Rounds round) {t t' : Tally} (ht : ∀ s, 0 ≤ t.count s)
    (h : ∀ s, t.count s ≤ t'.count s) (lines : Int) : t'.scoreWith round lines ≤ t.scoreWith round lines :=
  scoreWith_anti hround (weighted_nonneg ht) (weighted_mono h) le_rfl (total_eq_zero_of_le ht h)

end Tally

def RepositoryResult.scoreWith (round : ℚ → ℚ) (r : RepositoryResult) : Int := r.tally.scoreWith round r.totalLines

theorem RepositoryResult.scoreWith_nearest53 (r : RepositoryResult) : r.scoreWith Number.nearest53 = r.currentScore := rfl

open Tally in
/-- **The score is an integer from 0 to 100 that falls with findings and rises with lines.**  Nothing is divided by less than
one. -/
theorem score_bounded_and_monotone {round : ℚ → ℚ} (hround : Rounds round) {t : Tally} (ht : ∀ s, 0 ≤ t.count s)
    (lines : Int) :
    (0 ≤ t.scoreWith round lines ∧ t.scoreWith round lines ≤ 100) ∧
    (t.total = 0 → t.scoreWith round lines = 100) ∧
    (∀ t' : Tally, (∀ s, t.count s ≤ t'.count s) → t'.scoreWith round lines ≤ t.scoreWith round lines) ∧
    (∀ lines', lines ≤ lines' → t.scoreWith round lines ≤ t.scoreWith round lines') ∧
    (∀ s s' : Severity, s ≤ s' → (t.add s').scoreWith round lines ≤ (t.add s).scoreWith round lines) ∧
    (1 ≤ divisor round lines ∧
      t.rawScore round lines = round (100 - round (round (round t.weighted / divisor round lines) * 100))) ∧
    ∀ (r : RepositoryResult) (f : FileResult), r.tally = t → r.totalLines = lines →
      (f.findings = [] → 0 ≤ f.metrics.lines → r.scoreWith round ≤ (r.addFile f).scoreWith round) ∧
      ∀ xs x ys, f.findings = xs ++ ys →
        (r.addFile { f with findings := xs ++ x :: ys }).scoreWith round ≤ (r.addFile f).scoreWith round := by
  have hweight : 0 ≤ t.weighted := weighted_nonneg ht
  have hrises : ∀ lines', lines ≤ lines' → t.scoreWith round lines ≤ t.scoreWith round lines' :=
    fun lines' hmore => scoreWith_anti hround hweight le_rfl hmore id
  refine ⟨scoreWith_bounds t lines, fun hnone => scoreWith_of_total_eq_zero hnone lines,
    fun t' h => scoreWith_anti_count hround ht h lines, hrises, fun s s' hs => ?_,
    ⟨one_le_divisor round lines, rawScore_eq round t lines⟩, ?_⟩
  · refine scoreWith_anti hround ?_ ?_ le_rfl ?_
    · rw [weighted_add]
      cases s <;> simp only [Severity.weight] <;> omega
    · rw [weighted_add, weighted_add]
      exact Int.add_le_add_left (weight_mono hs) _
    · rw [total_add, total_add]
      exact id
  · rintro r f rfl rfl
    refine ⟨fun hnone hf => ?_, fun xs x ys hfindings => ?_⟩
    · have htally : (r.addFile f).tally = r.tally := by
        show r.tally.addAll f.findings = r.tally
        rw [hnone]
        rfl
      rw [RepositoryResult.scoreWith, RepositoryResult.scoreWith, htally]
      exact hrises _ (Int.le_add_of_nonneg_right hf)
    · refine scoreWith_anti_count hround (count_nonneg_addAll ht f.findings) (fun s => ?_) _
      show (r.tally.addAll f.findings).count s ≤ (r.tally.addAll (xs ++ x :: ys)).count s
      rw [hfindings, count_addAll, count_addAll, List.countP_append, List.countP_append, List.countP_cons]
      omega

def oneCritical : RepositoryResult := { startedAt := ⟨0⟩, tally := { critical := 1 }, totalLines := 200 }

/-- A file of 100 lines without findings raises the score of one critical finding in 200 lines from 50 to 67. -/
theorem clean_file_raises_score : oneCritical.currentScore = 50 ∧
    (oneCritical.addFile ⟨"b.js", none, { lines := 100 }, [], [], true, .whole 0⟩).currentScore = 67 ∧
    oneCritical.currentScore ≤
      (oneCritical.addFile ⟨"b.js", none, { lines := 100 }, [], [], true, .whole 0⟩).currentScore := by
  have ht : ∀ s, 0 ≤ oneCritical.tally.count s := by
    intro s
    cases s <;> decide
  have hruns := (score_bounded_and_monotone Tally.rounds_nearest53 ht 200).2.2.2.2.2.2
  refine ⟨by decide +kernel, by decide +kernel, ?_⟩
  exact (hruns oneCritical _ rfl rfl).1 rfl (by decide)

end CodeReview
