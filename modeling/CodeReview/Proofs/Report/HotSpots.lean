import CodeReview.Proofs.Report.Order
import CodeReview.Proofs.Run.Shapes
import CodeReview.Proofs.Text.Lines
import Mathlib.Algebra.Order.BigOperators.Group.List
import Mathlib.Order.Bounds.Defs
/-!
# The section on complexity

The summary of a finished result lists the files that have some complexity, with the greatest that there is
(`summarizes_ofFiles`).  The hot spots are the first of what it lists, sorted (`tops_hotSpots`), so the first of them has
that greatest complexity, and there is one exactly if some file has some complexity (`hotSpots_eq_nil_iff`).  This is what
decides whether the text and the Markdown of a report have a section on complexity (`complexity_section_consistent`).
-/
namespace CodeReview

/-- What a summary says of files. -/
structure ComplexitySummary.Summarizes (c : ComplexitySummary) (files : List FileResult) : Prop where
  files_eq : c.files = (files.filter fun f => 0 < f.metrics.complexity).map fun f => (f.path, f.metrics.complexity)
  max_isGreatest : c.files ≠ [] → IsGreatest {n | ∃ e ∈ c.files, e.2 = n} c.max
  max_zero : c.files = [] → c.max = 0

/-! ## Summaries -/

namespace ComplexitySummary

variable {files : List FileResult}

theorem entries_eq (files : List FileResult) : entries files =
    (files.filter fun f => 0 < f.metrics.complexity).map fun f => (f.path, f.metrics.complexity) := by
  rw [entries, List.filter_map]
  rfl

theorem exists_of_mem_entries {e : String × Int} (h : e ∈ entries files) :
    ∃ f ∈ files, 0 < f.metrics.complexity ∧ e = (f.path, f.metrics.complexity) := by
  rw [entries_eq] at h
  obtain ⟨f, hf, rfl⟩ := List.mem_map.1 h
  rw [List.mem_filter, decide_eq_true_iff] at hf
  exact ⟨f, hf.1, hf.2, rfl⟩

theorem entries_eq_nil_iff : entries files = [] ↔ ¬ ∃ f ∈ files, 0 < f.metrics.complexity := by
  rw [entries_eq, List.map_eq_nil_iff, List.filter_eq_nil_iff]
  simp

theorem ofFiles_files (files : List FileResult) : (ofFiles files).files = entries files := by
  unfold ofFiles
  split
  · rename_i h
    exact h.symm
  · rfl

theorem ofFiles_max (files : List FileResult) : (ofFiles files).max = greatest ((entries files).map (·.2)) := by
  unfold ofFiles
  split
  · rename_i h
    rw [h]
    rfl
  · rfl

theorem greatest_spec (ns : List Int) : greatest ns ∈ 0 :: ns ∧ ∀ n ∈ 0 :: ns, n ≤ greatest ns := by
  have hmax : (0 :: ns).max? = some (greatest ns) := by rw [List.max?_cons', greatest_eq]
  exact List.max?_eq_some_iff.1 hmax

/-- **A summary lists the files that have some complexity, with the greatest one.** -/
theorem summarizes_ofFiles (files : List FileResult) : (ofFiles files).Summarizes files where
  files_eq := (ofFiles_files files).trans (entries_eq files)
  max_isGreatest := by
    rw [ofFiles_files, ofFiles_max]
    intro hsome
    obtain ⟨hmem, hle⟩ := greatest_spec ((entries files).map (·.2))
    have hbound : ∀ e ∈ entries files, e.2 ≤ greatest ((entries files).map (·.2)) :=
      fun e he => hle e.2 (List.mem_cons_of_mem _ (List.mem_map_of_mem he))
    constructor
    · rcases List.mem_cons.1 hmem with hzero | hmem
      · -- the greatest is not zero, for it is above a complexity that is listed
        obtain ⟨e, he⟩ := List.exists_mem_of_ne_nil _ hsome
        obtain ⟨f, -, hpositive, rfl⟩ := exists_of_mem_entries he
        have habove := hbound _ he
        omega
      · exact List.mem_map.1 hmem
    · rintro _ ⟨e, he, rfl⟩
      exact hbound e he
  max_zero h := by
    rw [ofFiles_files] at h
    rw [ofFiles_max, h]
    rfl

/-- **The average of complexities in the range of doubles is in that range.** -/
theorem hasAverage_of_lt (h : ∀ f ∈ files, f.metrics.complexity < Number.floatLimit) : hasAverage files = true := by
  rw [hasAverage, Bool.or_eq_true]
  by_cases hnone : entries files = []
  · rw [hnone]
    exact .inl rfl
  right
  rw [Number.fitsFloat, decide_eq_true_iff, List.length_map]
  have hbounds : ∀ e ∈ entries files, 0 ≤ e.2 ∧ e.2 < Number.floatLimit := by
    intro e he
    obtain ⟨f, hf, hpositive, rfl⟩ := exists_of_mem_entries he
    exact ⟨Int.le_of_lt hpositive, h f hf⟩
  have hsum : sumOf ((entries files).map (·.2)) = ((entries files).map (·.2)).sum := List.sum_eq_foldl.symm
  have hnonneg : 0 ≤ ((entries files).map (·.2)).sum :=
    List.sum_nonneg (List.forall_mem_map.2 fun e he => (hbounds e he).1)
  -- each of them lies below the limit, so their sum lies below as many times the limit
  have hlt : ((entries files).map (·.2)).sum < ((entries files).map fun _ => (Number.floatLimit : Int)).sum :=
    List.sum_lt_sum_of_ne_nil hnone _ _ fun e he => (hbounds e he).2
  rw [List.map_const', List.sum_replicate, nsmul_eq_mul] at hlt
  rw [hsum, Int.natAbs_natCast, ← Int.ofNat_lt, Int.natAbs_of_nonneg hnonneg, Int.natCast_mul]
  exact hlt

end ComplexitySummary

namespace RepositoryResult

variable {r r' : RepositoryResult} {state : RunState} {now : Calendar.Instant}

theorem checkedFinalize_of_fits (hlines : r.totalIssues = 0 ∨ r.totalLines.natAbs < Number.floatLimit)
    (hcomplexity : ∀ f ∈ r.files, f.metrics.complexity < Number.floatLimit) :
    r.checkedFinalize state now = (none, r.finalize state now) := by
  have hscore : r.checkedScore = .ok r.currentScore := by
    rw [checkedScore, if_pos]
    rw [Bool.or_eq_true, beq_iff_eq, Number.fitsFloat, decide_eq_true_iff, Int.natAbs_one, Nat.one_mul]
    exact hlines
  rw [checkedFinalize, hscore]
  dsimp only
  rw [if_pos (ComplexitySummary.hasAverage_of_lt hcomplexity)]

theorem eq_finalize_of_checkedFinalize (h : r.checkedFinalize state now = (none, r')) : r' = r.finalize state now := by
  unfold checkedFinalize at h
  split at h
  · cases h
  · split at h
    · exact (Prod.mk.inj h).2.symm
    · cases h

end RepositoryResult

/-! ## Files without a tree -/

namespace Run.FileAnalyzer

open Syntax (KeepsBudget)

variable {a : FileAnalyzer} {session : Grammar.Session} {path text : String} {given : Option String} {out : Analyzed}

/-- **A file without a tree has no complexity.** -/
theorem complexity_of_unparsed (h : a.analyze session path text given = .ok out) (hparsed : out.result.parsed = false) :
    out.result.metrics.complexity = 0 := by
  rcases analyze_ok h with ⟨-, hempty⟩ | ⟨language, dl, -, -, rfl⟩
  · rw [hempty]
  · obtain ⟨message, timedOut, hresult⟩ := exists_eq_unparsed hparsed
    rw [hresult]
    rfl

/-- **A file with a tree has some complexity**, if its metrics are collected within a time budget in range. -/
theorem unparsed_of_complexity (hc : a.collect = Syntax.collectMetrics) (ht : a.BudgetFits)
    (hp : ∀ session path text language, KeepsBudget (a.parse session path text language))
    (hx : ∀ x ∈ a.registry.analyzers, ∃ b ∈ Registry.builtin.analyzers, x.Follows b)
    (h : a.analyze session path text given = .ok out) (hzero : out.result.metrics.complexity = 0) :
    out.result.parsed = false := by
  rcases analyze_ok h with ⟨-, hempty⟩ | ⟨language, dl, -, hb, rfl⟩
  · rw [hempty]
  obtain ⟨dl', hb', hdl⟩ := budget_of_fits ht
  obtain rfl : dl' = dl := Except.ok.inj (hb'.symm.trans hb)
  rcases analyzeWithin_shape hc hx session path text language (hp _ _ _ _) hdl with ⟨message, timedOut, -, hr⟩ | hdone
  · rw [hr]
    rfl
  · have hpositive := hdone.complexity
    omega

end Run.FileAnalyzer

namespace Report

/-! ## Hot spots -/

/-- That a path and complexity stand before others: the complexity is greater, or it is the same and the path is first. -/
def Before (a b : String × Int) : Prop := b.2 < a.2 ∨ a.2 = b.2 ∧ a.1 < b.1

/-- What a table shows of entries: ten of them or all, sorted, and none that should stand before it is left out. -/
structure Tops (rows entries : List (String × Int)) : Prop where
  count : rows.length = min 10 entries.length
  sorted : rows.Pairwise fun a b => b.2 < a.2 ∨ a.2 = b.2 ∧ a.1 ≤ b.1
  leftOut : ∃ rest, (rows ++ rest).Perm entries ∧ ∀ row ∈ rows, ∀ e ∈ rest, ¬ Before e row

theorem not_before_of_isHotter {a b : String × Int} (h : isHotter a b = true) : ¬ Before b a := by
  rw [isHotter_iff] at h
  rintro (hless | ⟨hsame, hpath⟩)
  · omega
  · rcases h with h | ⟨-, hpath'⟩
    · omega
    · exact hpath' hpath

theorem tops_hotSpots (c : ComplexitySummary) : Tops (hotSpots c) c.files := by
  have hsorted : (ranked c.files).Pairwise fun a b => isHotter a b = true :=
    List.pairwise_mergeSort isHotter_trans isHotter_total c.files
  rw [← List.take_append_drop hotSpotLimit (ranked c.files), List.pairwise_append] at hsorted
  obtain ⟨hrows, -, hcross⟩ := hsorted
  exact {
    count := by rw [hotSpots, List.length_take, ranked, List.length_mergeSort, hotSpotLimit]
    sorted := hrows.imp isHotter_iff.1
    leftOut := by
      refine ⟨(ranked c.files).drop hotSpotLimit, ?_, fun row hrow e he => not_before_of_isHotter (hcross row hrow e he)⟩
      rw [hotSpots, List.take_append_drop]
      exact List.mergeSort_perm c.files isHotter }

namespace Tops

variable {row : String × Int} {rows entries : List (String × Int)}

theorem eq_nil_iff (h : Tops rows entries) : rows = [] ↔ entries = [] := by
  rw [← List.length_eq_zero_iff, ← List.length_eq_zero_iff, h.count]
  omega

theorem mem (h : Tops rows entries) (hrow : row ∈ rows) : row ∈ entries := by
  obtain ⟨rest, hperm, -⟩ := h.leftOut
  exact hperm.subset (List.mem_append_left rest hrow)

theorem le_first (h : Tops (row :: rows) entries) : ∀ e ∈ entries, e.2 ≤ row.2 := by
  intro e he
  obtain ⟨rest, hperm, hrest⟩ := h.leftOut
  have he' : e ∈ row :: rows ∨ e ∈ rest := List.mem_append.1 (hperm.symm.subset he)
  rcases he' with he' | he'
  · rcases List.mem_cons.1 he' with rfl | he'
    · exact Int.le_refl _
    · rcases List.rel_of_pairwise_cons h.sorted he' with hless | ⟨hsame, -⟩ <;> omega
  · have hbefore := hrest row List.mem_cons_self e he'
    by_contra hlt
    exact hbefore (.inl (by omega))

end Tops

/-- **There are hot spots exactly if some file has some complexity.** -/
theorem hotSpots_eq_nil_iff {c : ComplexitySummary} {files : List FileResult} (h : c.Summarizes files) :
    hotSpots c = [] ↔ ¬ ∃ f ∈ files, 0 < f.metrics.complexity := by
  rw [(tops_hotSpots c).eq_nil_iff, h.files_eq, ← ComplexitySummary.entries_eq, ComplexitySummary.entries_eq_nil_iff]

/-- **The first hot spot has the greatest complexity.** -/
theorem hotSpots_head {c : ComplexitySummary} {files : List FileResult} (h : c.Summarizes files) :
    ∀ row ∈ (hotSpots c).head?, row.2 = c.max := by
  intro row hrow
  have htops := tops_hotSpots c
  obtain ⟨rows, hrows⟩ : ∃ rows, hotSpots c = row :: rows := List.head?_eq_some_iff.1 hrow
  rw [hrows] at htops
  have hmem : row ∈ c.files := htops.mem List.mem_cons_self
  obtain ⟨⟨e, he, hmax⟩, hbound⟩ := h.max_isGreatest (List.ne_nil_of_mem hmem)
  have hle : c.max ≤ row.2 := hmax ▸ htops.le_first e he
  exact Int.le_antisymm (hbound ⟨row, hmem, rfl⟩) hle

/-! ## The section -/

/-- What the reports of a result show of the complexity of files. -/
structure ComplexitySection (r : RepositoryResult) (files : List FileResult) : Prop where
  summary : r.complexity.Summarizes files
  table : Tops (hotSpots r.complexity) r.complexity.files
  first : ∀ row ∈ (hotSpots r.complexity).head?, row.2 = r.complexity.max
  positive : ∀ row ∈ hotSpots r.complexity,
    ∃ f ∈ files, 0 < f.metrics.complexity ∧ row = (f.path, f.metrics.complexity)
  text : ∀ title, (render .text title r).toList = (Plain.head title r ++
    (if ∃ f ∈ files, 0 < f.metrics.complexity then
      ["Complexity: average " ++ Number.floatText r.complexity.average ++ ", max " ++ toString r.complexity.max]
    else []) ++ (byPath r.findings).flatMap Plain.section_ ++ Plain.errors r.errors).flatMap
      fun l => l.toList ++ ['\n']
  markdown : ∀ title, (render .markdown title r).toList = (Markdown.head title r ++ Markdown.severities r ++
    (if ∃ f ∈ files, 0 < f.metrics.complexity then
      ["## Complexity", "",
        "Average " ++ Number.floatText r.complexity.average ++ ", maximum " ++ toString r.complexity.max ++ ".",
        "", "| File | Complexity |", "|---|---|"] ++
      (hotSpots r.complexity).map (fun e => "| \x60" ++ e.1 ++ "\x60 | " ++ toString e.2 ++ " |") ++ [""]
    else []) ++ Markdown.findings (byPath r.findings) ++ Markdown.errors r.errors).flatMap fun l => l.toList ++ ['\n']

theorem hotSpotRow_eq (e : String × Int) : Markdown.row [Markdown.code e.1, toString e.2] =
    "| \x60" ++ e.1 ++ "\x60 | " ++ toString e.2 ++ " |" := by
  apply String.toList_injective
  simp [Markdown.row, Markdown.code]

/-- **Reports show the complexity of the files that a summary is of.** -/
theorem complexitySection_of_summarizes {r : RepositoryResult} {files : List FileResult}
    (h : r.complexity.Summarizes files) : ComplexitySection r files := by
  have hnone : (hotSpots r.complexity).isEmpty = true ↔ ¬ ∃ f ∈ files, 0 < f.metrics.complexity :=
    List.isEmpty_iff.trans (hotSpots_eq_nil_iff h)
  refine ⟨h, tops_hotSpots _, hotSpots_head h, fun row hrow => ?_, fun title => ?_, fun title => ?_⟩
  · have hmem := (tops_hotSpots r.complexity).mem hrow
    rw [h.files_eq, ← ComplexitySummary.entries_eq] at hmem
    exact ComplexitySummary.exists_of_mem_entries hmem
  · rw [render, Text.toList_ofLines, Plain.lines, Plain.complexity,
      ite_congr (propext hnone) (fun _ => rfl) (fun _ => rfl), ite_not]
  · rw [render, Text.toList_ofLines, Markdown.lines, Markdown.complexity, funext hotSpotRow_eq,
      ite_congr (propext hnone) (fun _ => rfl) (fun _ => rfl), ite_not]

/-- **The section on complexity is consistent.**  A result is finished if doubles can hold its numbers.  Then its summary
lists the files that have some complexity, in order, with the greatest one; the table shows the ten that come first, by
complexity and then by path; and both reports have the section exactly if some file has some complexity.  A file without a
tree has none, and no other file has none if metrics are collected within a time budget in range. -/
theorem complexity_section_consistent (r : RepositoryResult) (state : RunState) (now : Calendar.Instant) :
    (r.totalIssues = 0 ∨ r.totalLines.natAbs < Number.floatLimit →
      (∀ f ∈ r.files, f.metrics.complexity < Number.floatLimit) →
      r.checkedFinalize state now = (none, r.finalize state now)) ∧
    (∀ r', r.checkedFinalize state now = (none, r') → r' = r.finalize state now) ∧
    ComplexitySection (r.finalize state now) r.files ∧
    ∀ (a : Run.FileAnalyzer) (session : Grammar.Session) (path text : String) (given : Option String)
      (out : Run.Analyzed), a.analyze session path text given = .ok out →
      (out.result.parsed = false → out.result.metrics.complexity = 0) ∧
      (a.collect = Syntax.collectMetrics → a.BudgetFits →
        (∀ session path text language, Syntax.KeepsBudget (a.parse session path text language)) →
        (∀ x ∈ a.registry.analyzers, ∃ b ∈ Registry.builtin.analyzers, x.Follows b) →
        out.result.metrics.complexity = 0 → out.result.parsed = false) := by
  refine ⟨RepositoryResult.checkedFinalize_of_fits, fun r' => RepositoryResult.eq_finalize_of_checkedFinalize,
    complexitySection_of_summarizes (ComplexitySummary.summarizes_ofFiles r.files), ?_⟩
  intro a session path text given out h
  exact ⟨Run.FileAnalyzer.complexity_of_unparsed h,
    fun hc ht hp hx => Run.FileAnalyzer.unparsed_of_complexity hc ht hp hx h⟩

/-- Fourteen files of four paths, the first two of them without complexity, and the others in pairs of one complexity. -/
def pairedFiles : RepositoryResult where
  files := (List.range 14).map fun n => {
    path := "f" ++ toString (3 - n % 4)
    language := none
    metrics := { complexity := (n / 2 : Nat) } }
  startedAt := ⟨0⟩

/-- Twelve files are listed and ten shown: of the files of complexity one, which come last, none. -/
theorem pairedFiles_shown : ∃ r', pairedFiles.checkedFinalize .completed ⟨0⟩ = (none, r') ∧
    ComplexitySection r' pairedFiles.files ∧ r'.complexity.max = 6 ∧ r'.complexity.files.length = 12 ∧
    hotSpots r'.complexity = [("f2", 6), ("f3", 6), ("f0", 5), ("f1", 5), ("f2", 4), ("f3", 4), ("f0", 3), ("f1", 3),
      ("f2", 2), ("f3", 2)] ∧
    (∃ above below, render .text "paired" r' = above ++
      ("Complexity: average " ++ Number.floatText r'.complexity.average ++ ", max 6\n") ++ below) ∧
    ∃ above below, render .markdown "paired" r' = above ++ ("\n| File | Complexity |\n|---|---|\n" ++
      "| \x60f2\x60 | 6 |\n| \x60f3\x60 | 6 |\n| \x60f0\x60 | 5 |\n| \x60f1\x60 | 5 |\n| \x60f2\x60 | 4 |\n" ++
      "| \x60f3\x60 | 4 |\n| \x60f0\x60 | 3 |\n| \x60f1\x60 | 3 |\n| \x60f2\x60 | 2 |\n| \x60f3\x60 | 2 |\n\n") ++ below := by
  obtain ⟨hfits, -, hsection, -⟩ := complexity_section_consistent pairedFiles .completed ⟨0⟩
  have hsmall : ∀ f ∈ pairedFiles.files, f.metrics.complexity < Number.floatLimit := by decide +kernel
  have hsome : ∃ f ∈ pairedFiles.files, 0 < f.metrics.complexity := by decide +kernel
  have hmax : (pairedFiles.finalize .completed ⟨0⟩).complexity.max = 6 := by decide +kernel
  have hperm : (pairedFiles.finalize .completed ⟨0⟩).complexity.files.Perm [("f2", 6), ("f3", 6), ("f0", 5), ("f1", 5),
      ("f2", 4), ("f3", 4), ("f0", 3), ("f1", 3), ("f2", 2), ("f3", 2), ("f0", 1), ("f1", 1)] := by decide +kernel
  have hranked := (ranked_perm hperm).trans (List.mergeSort_of_pairwise (by decide +kernel))
  have hrows : hotSpots (pairedFiles.finalize .completed ⟨0⟩).complexity = [("f2", 6), ("f3", 6), ("f0", 5), ("f1", 5),
      ("f2", 4), ("f3", 4), ("f0", 3), ("f1", 3), ("f2", 2), ("f3", 2)] := by
    rw [hotSpots, hranked]
    rfl
  refine ⟨_, hfits (.inl rfl) hsmall, hsection, hmax, by decide +kernel, hrows, ?_, ?_⟩
  · have htext := Text.eq_ofLines_iff.2 (hsection.text "paired")
    have hsix : toString (6 : Int) = "6" := rfl
    rw [if_pos hsome, hmax, hsix, Text.ofLines_append, Text.ofLines_append, Text.ofLines_append, String.append_assoc] at htext
    refine ⟨_, _, htext.trans (congrArg₂ (· ++ ·) (congrArg₂ (· ++ ·) rfl ?_) rfl)⟩
    simp [Text.ofLines, String.append_assoc]
  · have hmarkdown := Text.eq_ofLines_iff.2 (hsection.markdown "paired")
    rw [if_pos hsome, hrows] at hmarkdown
    -- the lines above the table show the average, which is not computed here
    have htable (average : String) (rows : List String) :
        ["## Complexity", "", average, "", "| File | Complexity |", "|---|---|"] ++ rows ++ [""] =
          ["## Complexity", "", average] ++ (["", "| File | Complexity |", "|---|---|"] ++ rows ++ [""]) := rfl
    rw [htable, ← List.append_assoc (Markdown.head _ _ ++ Markdown.severities _),
      List.append_assoc _ (Markdown.findings _), Text.ofLines_append, Text.ofLines_append] at hmarkdown
    refine ⟨_, _, hmarkdown.trans (congrArg₂ (· ++ ·) (congrArg₂ (· ++ ·) rfl ?_) rfl)⟩
    decide +kernel

end Report
end CodeReview
