import CodeReview.Result.Repository
import Mathlib.Algebra.Ring.Int.Defs
/-!
# Sums of repository results

The counters of a result are the counts of its lists (`Counted`).  Files and errors are added without breaking this, and
from it follows that the numbers of findings agree wherever they are read (`AddsUp`): in the tally, in the list, and in
the tables of the files.
-/
namespace CodeReview

namespace Tally

/-- **Counting findings adds to each severity the number of findings that have it.** -/
theorem count_addAll (s : Severity) : ∀ (fs : List Finding) (t : Tally),
    (t.addAll fs).count s = t.count s + fs.countP (fun f => f.severity = s)
  | [], t => by rw [List.countP_nil]; exact (Int.add_zero _).symm
  | f :: fs, t => by
    have ih := count_addAll s fs (t.add f.severity)
    have hcons : t.addAll (f :: fs) = (t.add f.severity).addAll fs := rfl
    rw [hcons, ih, count_add, List.countP_cons]
    by_cases h : f.severity = s
    · simp only [h, if_true, decide_true]
      omega
    · simp only [h, if_false, decide_false, Bool.false_eq_true]
      omega

end Tally

theorem sumOver_countP (fs : List Finding) :
    Tally.sumOver (fun s => fs.countP fun f => f.severity = s) = fs.length := by
  induction fs with
  | nil => rfl
  | cons f fs ih =>
    simp only [Tally.sumOver, List.countP_cons, List.length_cons] at ih ⊢
    cases f.severity <;> simp <;> omega

def FileResult.issuesCount (f : FileResult) : Int :=
  match f.toValue with
  | .map es =>
    match Entries.get? es "issues_count" with
    | some (.int n) => n
    | _ => 0
  | _ => 0

theorem FileResult.issuesCount_eq (f : FileResult) : f.issuesCount = f.findings.length := rfl

namespace RepositoryResult

/-- That the counters of a result count its lists. -/
structure Counted (r : RepositoryResult) : Prop where
  analyzed : r.analyzedFiles = r.files.length
  findings : r.findings = r.files.flatMap (·.findings)
  tally : ∀ s, r.tally.count s = r.findings.countP (fun f => f.severity = s)
  lines : r.totalLines = (r.files.map (·.metrics.lines)).sum

/-- That all numbers of a result agree with its lists. -/
structure AddsUp (r : RepositoryResult) : Prop extends r.Counted where
  issues : r.totalIssues = r.findings.length
  tables : (r.files.map (·.issuesCount)).sum = r.findings.length

/-- **The numbers of findings agree** if the counters count the lists. -/
theorem Counted.addsUp {r : RepositoryResult} (h : r.Counted) : r.AddsUp where
  toCounted := h
  issues := by
    rw [totalIssues, Tally.total, funext h.tally]
    exact sumOver_countP r.findings
  tables := by
    rw [h.findings]
    induction r.files with
    | nil => rfl
    | cons f fs ih =>
      rw [List.map_cons, List.sum_cons, ih, List.flatMap_cons, List.length_append, FileResult.issuesCount_eq]
      rfl

/-- **The findings at or above a severity** are as many as the tally adds up. -/
theorem Counted.atOrAbove {r : RepositoryResult} (h : r.Counted) (t : Severity) :
    r.tally.atOrAbove t = r.findings.countP fun f => t ≤ f.severity := by
  let severe := r.findings.filter fun f => t ≤ f.severity
  have hcount : ∀ s, (if t ≤ s then r.tally.count s else 0) = ((severe.countP fun f => f.severity = s : Nat) : Int) := by
    intro s
    rw [h.tally, List.countP_filter]
    by_cases hs : t ≤ s
    · rw [if_pos hs]
      refine congrArg Int.ofNat (List.countP_congr fun f _ => ?_)
      simp only [Bool.and_eq_true, decide_eq_true_eq]
      exact ⟨fun hf => ⟨hf, hf ▸ hs⟩, fun hf => hf.1⟩
    · rw [if_neg hs]
      refine (congrArg Int.ofNat (List.countP_eq_zero.2 fun f _ => ?_)).symm
      simp only [Bool.and_eq_true, decide_eq_true_eq]
      rintro ⟨rfl, hf⟩
      exact hs hf
  rw [Tally.atOrAbove, funext hcount, sumOver_countP severe, List.countP_eq_length_filter]

theorem Counted.atOrAbove_anti {r : RepositoryResult} (h : r.Counted) {t u : Severity} (htu : t ≤ u) :
    r.tally.atOrAbove u ≤ r.tally.atOrAbove t := by
  rw [h.atOrAbove, h.atOrAbove]
  refine Int.ofNat_le.2 (List.countP_mono_left fun f _ hf => ?_)
  rw [decide_eq_true_eq] at hf ⊢
  exact Nat.le_trans htu hf

/-- The tally is above a severity if a file has a finding that is. -/
theorem Counted.atOrAbove_pos_iff {r : RepositoryResult} (h : r.Counted) (t : Severity) :
    0 < r.tally.atOrAbove t ↔ ∃ f ∈ r.files, ∃ x ∈ f.findings, t ≤ x.severity := by
  rw [h.atOrAbove, Int.natCast_pos, List.countP_pos_iff, h.findings]
  simp only [decide_eq_true_eq, List.mem_flatMap]
  constructor
  · rintro ⟨x, ⟨f, hf, hx⟩, hsevere⟩
    exact ⟨f, hf, x, hx, hsevere⟩
  · rintro ⟨f, hf, x, hx, hsevere⟩
    exact ⟨x, ⟨f, hf, hx⟩, hsevere⟩

def addErrors (r : RepositoryResult) (es : List RunError) : RepositoryResult := { r with errors := r.errors ++ es }

@[simp] theorem addErrors_files (r : RepositoryResult) (es : List RunError) : (r.addErrors es).files = r.files := rfl

@[simp] theorem addErrors_errors (r : RepositoryResult) (es : List RunError) :
    (r.addErrors es).errors = r.errors ++ es := rfl

@[simp] theorem addErrors_nil (r : RepositoryResult) : r.addErrors [] = r := by rw [addErrors, List.append_nil]

@[simp] theorem addErrors_addErrors (r : RepositoryResult) (es fs : List RunError) :
    (r.addErrors es).addErrors fs = r.addErrors (es ++ fs) := by
  rw [addErrors, addErrors, addErrors, List.append_assoc]

theorem foldl_addError : ∀ (es : List RunError) (r : RepositoryResult), es.foldl addError r = r.addErrors es
  | [], r => r.addErrors_nil.symm
  | e :: es, r => by
    rw [List.foldl_cons, foldl_addError es, addErrors, addErrors, List.append_cons]
    rfl

theorem foldl_addFile_files : ∀ (fs : List FileResult) (r : RepositoryResult),
    (fs.foldl addFile r).files = r.files ++ fs
  | [], r => (List.append_nil r.files).symm
  | f :: fs, r => by
    rw [List.foldl_cons, foldl_addFile_files fs, List.append_cons]
    rfl

theorem foldl_addFile_errors : ∀ (fs : List FileResult) (r : RepositoryResult), (fs.foldl addFile r).errors = r.errors
  | [], _ => rfl
  | f :: fs, r => foldl_addFile_errors fs (r.addFile f)

/-- Errors can be added before the files. -/
theorem foldl_addFile_addErrors : ∀ (fs : List FileResult) (r : RepositoryResult) (es : List RunError),
    fs.foldl addFile (r.addErrors es) = (fs.foldl addFile r).addErrors es
  | [], _, _ => rfl
  | f :: fs, r, es => foldl_addFile_addErrors fs (r.addFile f) es

theorem foldl_addFile_head (total : Int) (start : Calendar.Instant) : ∀ (fs : List FileResult) (r : RepositoryResult),
    fs.foldl addFile { r with totalFiles := total, startedAt := start } =
      { fs.foldl addFile r with totalFiles := total, startedAt := start }
  | [], _ => rfl
  | f :: fs, r => foldl_addFile_head total start fs (r.addFile f)

theorem Counted.addErrors {r : RepositoryResult} (h : r.Counted) (es : List RunError) : (r.addErrors es).Counted :=
  ⟨h.analyzed, h.findings, h.tally, h.lines⟩

theorem Counted.finalize {r : RepositoryResult} (h : r.Counted) (state : RunState) (now : Calendar.Instant) :
    (r.finalize state now).Counted :=
  ⟨h.analyzed, h.findings, h.tally, h.lines⟩

theorem Counted.addFile {r : RepositoryResult} (h : r.Counted) (f : FileResult) : (r.addFile f).Counted where
  analyzed := by
    show r.analyzedFiles + 1 = (r.files ++ [f]).length
    rw [h.analyzed, List.length_append, List.length_singleton]
  findings := by
    show r.findings ++ f.findings = (r.files ++ [f]).flatMap (·.findings)
    rw [h.findings, List.flatMap_append, List.flatMap_singleton]
  tally s := by
    show (r.tally.addAll f.findings).count s = ((r.findings ++ f.findings).countP fun f => f.severity = s : Nat)
    rw [Tally.count_addAll, h.tally, List.countP_append, Int.natCast_add]
  lines := by
    show r.totalLines + f.metrics.lines = ((r.files ++ [f]).map (·.metrics.lines)).sum
    rw [h.lines, List.map_append, List.sum_append, List.map_singleton, List.sum_singleton]

theorem Counted.foldl_addFile : ∀ (fs : List FileResult) {r : RepositoryResult}, r.Counted →
    (fs.foldl RepositoryResult.addFile r).Counted
  | [], _, h => h
  | f :: fs, _, h => foldl_addFile fs (h.addFile f)

end RepositoryResult
end CodeReview
