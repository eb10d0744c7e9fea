import CodeReview.Proofs.Result.Sums
import Mathlib.Algebra.BigOperators.Group.List.Basic
import Mathlib.Data.List.Nodup
/-!
# Results of the same files in another order

The counters, the score, the languages and the complexity of a finished result do not depend on the order of its files
(`Finished.unordered`): sums and maxima take files in any order, and what is listed is sorted, with equal elements being
equal in all they show.
-/
namespace CodeReview

/-! ## Sorting what is distinct -/

theorem eraseDups_nodup : ∀ xs : List String, xs.eraseDups.Nodup
  | [] => by simp
  | x :: xs => by
    rw [List.eraseDups_cons, List.nodup_cons]
    constructor
    · simp [List.mem_eraseDups]
    · exact eraseDups_nodup (xs.filter fun y => !y == x)
termination_by xs => xs.length
decreasing_by
  have := List.length_filter_le (fun y => !y == x) xs
  simp only [List.length_cons]
  omega

theorem sortStrings_sorted (xs : List String) : (xs.mergeSort fun a b => a ≤ b).Pairwise (· ≤ ·) := by
  have htrans : ∀ a b c : String, decide (a ≤ b) = true → decide (b ≤ c) = true → decide (a ≤ c) = true :=
    fun a b c hab hbc => decide_eq_true (String.le_trans (of_decide_eq_true hab) (of_decide_eq_true hbc))
  have htotal : ∀ a b : String, (decide (a ≤ b) || decide (b ≤ a)) = true := fun a b => by
    simpa using String.le_total a b
  exact (List.pairwise_mergeSort htrans htotal xs).imp fun hab => of_decide_eq_true hab

/-- **Distinct texts in order** depend on what texts there are, and on nothing else. -/
theorem sorted_distinct_congr {xs ys : List String} (h : ∀ s, s ∈ xs ↔ s ∈ ys) :
    (xs.eraseDups.mergeSort fun a b => a ≤ b) = ys.eraseDups.mergeSort fun a b => a ≤ b := by
  have hdistinct : xs.eraseDups.Perm ys.eraseDups := by
    rw [List.perm_ext_iff_of_nodup (eraseDups_nodup xs) (eraseDups_nodup ys)]
    intro s
    rw [List.mem_eraseDups, List.mem_eraseDups, h]
  have hperm := ((List.mergeSort_perm xs.eraseDups fun a b => a ≤ b).trans hdistinct).trans
    (List.mergeSort_perm ys.eraseDups fun a b => a ≤ b).symm
  exact hperm.eq_of_pairwise (fun _ _ _ _ hab hba => String.le_antisymm hab hba) (sortStrings_sorted _)
    (sortStrings_sorted _)

theorem Tally.eq_of_count {t t' : Tally} (h : ∀ s, t.count s = t'.count s) : t = t' := by
  cases t
  cases t'
  rw [Tally.mk.injEq]
  exact ⟨h .critical, h .high, h .medium, h .low⟩

/-! ## Complexity -/

namespace ComplexitySummary

theorem sumOf_perm {ms ns : List Int} (h : ms.Perm ns) : sumOf ms = sumOf ns := h.foldl_eq 0

theorem greatest_eq (ns : List Int) : greatest ns = ns.foldl Max.max 0 := by
  have hstep : (fun m n : Int => if m < n then n else m) = Max.max := by
    funext m n
    by_cases h : m < n
    · rw [if_pos h, Int.max_eq_right (Int.le_of_lt h)]
    · rw [if_neg h, Int.max_eq_left (Int.not_lt.1 h)]
  rw [greatest, hstep]

theorem greatest_perm {ms ns : List Int} (h : ms.Perm ns) : greatest ms = greatest ns := by
  rw [greatest_eq, greatest_eq, h.foldl_eq]

theorem entries_perm {fs gs : List FileResult} (h : fs.Perm gs) : (entries fs).Perm (entries gs) :=
  (h.map _).filter _

/-- **The summary of files does not depend on their order**, but for the order in which it lists them. -/
theorem ofFiles_perm {fs gs : List FileResult} (h : fs.Perm gs) :
    (ofFiles fs).average = (ofFiles gs).average ∧ (ofFiles fs).max = (ofFiles gs).max ∧
      (ofFiles fs).files.Perm (ofFiles gs).files := by
  have hentries := entries_perm h
  unfold ofFiles
  generalize entries fs = es at hentries
  generalize entries gs = es' at hentries
  cases es with
  | nil =>
    rw [hentries.nil_eq]
    exact ⟨rfl, rfl, List.Perm.refl _⟩
  | cons e es =>
    cases es' with
    | nil => exact absurd hentries.eq_nil (List.cons_ne_nil e es)
    | cons e' es' =>
      have hvalues := hentries.map (·.2)
      have haverage : averageOf ((e :: es).map (·.2)) = averageOf ((e' :: es').map (·.2)) := by
        rw [averageOf, averageOf, sumOf_perm hvalues, hvalues.length_eq]
      exact ⟨haverage, greatest_perm hvalues, hentries⟩

end ComplexitySummary

namespace RepositoryResult

/-- That a result is finished: its counters count its lists, and its score and complexity are read off them. -/
structure Finished (r : RepositoryResult) : Prop extends r.Counted where
  score : r.score = some r.currentScore
  complexity : r.complexity = .ofFiles r.files

/-- What two results have in common that do not tell the files apart by their order. -/
structure Unordered (r r' : RepositoryResult) : Prop where
  analyzedFiles : r.analyzedFiles = r'.analyzedFiles
  tally : r.tally = r'.tally
  totalLines : r.totalLines = r'.totalLines
  totalIssues : r.totalIssues = r'.totalIssues
  score : r.score = r'.score
  languages : r.languages = r'.languages
  average : r.complexity.average = r'.complexity.average
  max : r.complexity.max = r'.complexity.max

theorem languages_perm {r r' : RepositoryResult} (h : r.files.Perm r'.files) : r.languages = r'.languages :=
  sorted_distinct_congr fun _ => ((h.filterMap _).filter _).mem_iff

/-- **A finished result does not depend on the order of its files.** -/
theorem Finished.unordered {r r' : RepositoryResult} (hr : r.Finished) (hr' : r'.Finished) (h : r.files.Perm r'.files) :
    Unordered r r' := by
  have hfindings : r.findings.Perm r'.findings := by
    rw [hr.findings, hr'.findings]
    exact h.flatMap_right _
  have htally : r.tally = r'.tally := Tally.eq_of_count fun s => by rw [hr.tally, hr'.tally, hfindings.countP_eq]
  have hlines : r.totalLines = r'.totalLines := by
    rw [hr.lines, hr'.lines]
    exact (h.map _).sum_eq
  obtain ⟨haverage, hmax, -⟩ := ComplexitySummary.ofFiles_perm h
  exact {
    analyzedFiles := by rw [hr.analyzed, hr'.analyzed, h.length_eq]
    tally := htally
    totalLines := hlines
    totalIssues := by rw [totalIssues, totalIssues, htally]
    score := by rw [hr.score, hr'.score, currentScore, currentScore, htally, hlines]
    languages := languages_perm h
    average := by rw [hr.complexity, hr'.complexity, haverage]
    max := by rw [hr.complexity, hr'.complexity, hmax] }

end RepositoryResult
end CodeReview
