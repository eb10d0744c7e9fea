import CodeReview.Proofs.Result.Reordered
import CodeReview.Report.Render
/-!
# Reports of the same files in another order

A report lists findings by path and files by complexity.  Both orders are total on what is listed: of equally complex files
the path decides (`isHotter_antisymm`), and the findings of a path come from one file, which keeps them in order
(`onPath_perm`).  So the text and the Markdown of two results are the same if nothing but the order of the files differs
(`Shown.text`, `Shown.markdown`).
-/
namespace CodeReview.Report

/-! ## Hot spots -/

theorem isHotter_iff {a b : String × Int} : isHotter a b = true ↔ b.2 < a.2 ∨ (a.2 = b.2 ∧ a.1 ≤ b.1) := by
  rw [isHotter, Bool.or_eq_true, Bool.and_eq_true, decide_eq_true_iff, decide_eq_true_iff, beq_iff_eq]

theorem isHotter_trans (a b c : String × Int) (hab : isHotter a b = true) (hbc : isHotter b c = true) :
    isHotter a c = true := by
  rw [isHotter_iff] at hab hbc ⊢
  rcases hab with hab | ⟨hab, hpath⟩
  · rcases hbc with hbc | ⟨hbc, -⟩
    · exact .inl (Int.lt_trans hbc hab)
    · exact .inl (hbc ▸ hab)
  · rcases hbc with hbc | ⟨hbc, hpath'⟩
    · exact .inl (hab.symm ▸ hbc)
    · exact .inr ⟨hab.trans hbc, String.le_trans hpath hpath'⟩

theorem isHotter_total (a b : String × Int) : (isHotter a b || isHotter b a) = true := by
  rw [Bool.or_eq_true, isHotter_iff, isHotter_iff]
  rcases Int.lt_trichotomy a.2 b.2 with h | h | h
  · exact .inr (.inl h)
  · rcases String.le_total a.1 b.1 with hpath | hpath
    · exact .inl (.inr ⟨h, hpath⟩)
    · exact .inr (.inr ⟨h.symm, hpath⟩)
  · exact .inl (.inl h)

theorem isHotter_antisymm {a b : String × Int} (hab : isHotter a b = true) (hba : isHotter b a = true) : a = b := by
  rw [isHotter_iff] at hab hba
  have hcomplexity : a.2 = b.2 := by omega
  rcases hab with h | ⟨-, hpath⟩
  · omega
  · rcases hba with h | ⟨-, hpath'⟩
    · omega
    · exact Prod.ext (String.le_antisymm hpath hpath') hcomplexity

/-- **The ranking of files does not depend on the order in which they come.** -/
theorem ranked_perm {xs ys : List (String × Int)} (h : xs.Perm ys) : ranked xs = ranked ys := by
  have hperm := ((List.mergeSort_perm xs isHotter).trans h).trans (List.mergeSort_perm ys isHotter).symm
  exact hperm.eq_of_pairwise (fun _ _ _ _ => isHotter_antisymm) (List.pairwise_mergeSort isHotter_trans isHotter_total xs)
    (List.pairwise_mergeSort isHotter_trans isHotter_total ys)

theorem hotSpots_perm {c c' : ComplexitySummary} (h : c.files.Perm c'.files) : hotSpots c = hotSpots c' := by
  rw [hotSpots, hotSpots, ranked_perm h]

/-! ## Findings by path -/

/-- Files with different paths whose findings lie in them. -/
structure Placed (files : List FileResult) : Prop where
  paths : (files.map (·.path)).Nodup
  findings : ∀ f ∈ files, ∀ g ∈ f.findings, pathOf g = f.path

theorem onPath_flatMap {files : List FileResult} (h : ∀ f ∈ files, ∀ g ∈ f.findings, pathOf g = f.path) (path : String) :
    onPath (files.flatMap (·.findings)) path = (files.filter (·.path == path)).flatMap (·.findings) := by
  induction files with
  | nil => rfl
  | cons f files ih =>
    rw [List.flatMap_cons, onPath, List.filter_append, List.filter_cons]
    have hrest : (files.flatMap (·.findings)).filter (pathOf · == path) =
        (files.filter (·.path == path)).flatMap (·.findings) :=
      ih fun f' hf' => h f' (List.mem_cons_of_mem f hf')
    have hplace := h f List.mem_cons_self
    rw [hrest]
    by_cases hf : f.path = path
    · have hall : f.findings.filter (pathOf · == path) = f.findings :=
        List.filter_eq_self.2 fun g hg => by rw [hplace g hg, hf, beq_self_eq_true]
      rw [hall, if_pos (beq_iff_eq.2 hf), List.flatMap_cons]
    · have hnone : f.findings.filter (pathOf · == path) = [] :=
        List.filter_eq_nil_iff.2 fun g hg => by rw [hplace g hg, beq_iff_eq]; exact hf
      rw [hnone, if_neg (by rwa [beq_iff_eq]), List.nil_append]

/-- At most one file has a path, so the files of a path are the same in any order. -/
theorem filter_path_perm {files files' : List FileResult} (h : files.Perm files') (hn : (files.map (·.path)).Nodup)
    (path : String) : files.filter (·.path == path) = files'.filter (·.path == path) := by
  have hone : ∀ {fs : List FileResult}, (fs.map (·.path)).Nodup →
      (fs.filter (·.path == path)).Pairwise fun _ _ => False := by
    intro fs hfs
    refine ((List.pairwise_map.1 hfs).filter _).imp_of_mem fun {f g} hf hg hne => ?_
    have hfpath : f.path = path := beq_iff_eq.1 (List.mem_filter.1 hf).2
    have hgpath : g.path = path := beq_iff_eq.1 (List.mem_filter.1 hg).2
    exact hne (hfpath.trans hgpath.symm)
  have hn' : (files'.map (·.path)).Nodup := (h.map _).nodup_iff.1 hn
  exact (h.filter _).eq_of_pairwise (fun _ _ _ _ hf _ => hf.elim) (hone hn) (hone hn')

/-- **The findings of a path do not depend on the order of the files.** -/
theorem onPath_perm {files files' : List FileResult} (hf : Placed files) (h : files.Perm files') (path : String) :
    onPath (files.flatMap (·.findings)) path = onPath (files'.flatMap (·.findings)) path := by
  have hplace : ∀ f ∈ files', ∀ g ∈ f.findings, pathOf g = f.path := fun f hmem => hf.findings f (h.mem_iff.2 hmem)
  rw [onPath_flatMap hf.findings, onPath_flatMap hplace, filter_path_perm h hf.paths]

theorem paths_perm {fs gs : List Finding} (h : fs.Perm gs) : paths fs = paths gs :=
  sorted_distinct_congr fun _ => (h.map pathOf).mem_iff

/-- **The groups of findings do not depend on the order of the files.** -/
theorem byPath_perm {files files' : List FileResult} (hf : Placed files) (h : files.Perm files') :
    byPath (files.flatMap (·.findings)) = byPath (files'.flatMap (·.findings)) := by
  rw [byPath, byPath, paths_perm (h.flatMap_right (·.findings))]
  refine List.map_congr_left fun path _ => ?_
  rw [onPath_perm hf h]

/-! ## Reports -/

/-- That two results have in common what the text and the Markdown of a report show. -/
structure Shown (r r' : RepositoryResult) : Prop extends RepositoryResult.Unordered r r' where
  totalFiles : r.totalFiles = r'.totalFiles
  state : r.state = r'.state
  startedAt : r.startedAt = r'.startedAt
  finishedAt : r.finishedAt = r'.finishedAt
  errors : r.errors = r'.errors
  hotSpots : hotSpots r.complexity = hotSpots r'.complexity
  groups : byPath r.findings = byPath r'.findings

variable {r r' : RepositoryResult}

theorem Shown.text (h : Shown r r') (title : String) : render .text title r = render .text title r' := by
  have hhead : Plain.head title r = Plain.head title r' := by
    rw [Plain.head, Plain.head, h.state, h.analyzedFiles, h.totalFiles, h.totalLines, h.totalIssues, h.tally, h.score]
  have hcomplexity : Plain.complexity r.complexity = Plain.complexity r'.complexity := by
    rw [Plain.complexity, Plain.complexity, h.hotSpots, h.average, h.max]
  have hlines : Plain.lines title r = Plain.lines title r' := by
    rw [Plain.lines, Plain.lines, hhead, hcomplexity, h.groups, h.errors]
  exact congrArg Text.ofLines hlines

theorem Shown.markdown (h : Shown r r') (title : String) : render .markdown title r = render .markdown title r' := by
  have hhead : Markdown.head title r = Markdown.head title r' := by
    rw [Markdown.head, Markdown.head, h.state, h.startedAt, h.finishedAt, h.analyzedFiles, h.totalFiles, h.totalLines,
      h.languages, h.score]
  have hseverities : Markdown.severities r = Markdown.severities r' := by
    rw [Markdown.severities, Markdown.severities, h.tally, h.totalIssues]
  have hcomplexity : Markdown.complexity r.complexity = Markdown.complexity r'.complexity := by
    rw [Markdown.complexity, Markdown.complexity, h.hotSpots, h.average, h.max]
  have hlines : Markdown.lines title r = Markdown.lines title r' := by
    rw [Markdown.lines, Markdown.lines, hhead, hseverities, hcomplexity, h.groups, h.errors]
  exact congrArg Text.ofLines hlines

/-- **Finished results of the same files in different orders are shown alike**, if they have begun and ended alike. -/
theorem shown_of_perm (hr : r.Finished) (hr' : r'.Finished) (hfiles : r.files.Perm r'.files) (hplaced : Placed r.files)
    (htotal : r.totalFiles = r'.totalFiles) (hstate : r.state = r'.state) (hstart : r.startedAt = r'.startedAt)
    (hfinish : r.finishedAt = r'.finishedAt) (herrors : r.errors = r'.errors) : Shown r r' where
  toUnordered := hr.unordered hr' hfiles
  totalFiles := htotal
  state := hstate
  startedAt := hstart
  finishedAt := hfinish
  errors := herrors
  hotSpots := by
    rw [hr.complexity, hr'.complexity]
    exact hotSpots_perm (ComplexitySummary.ofFiles_perm hfiles).2.2
  groups := by
    rw [hr.findings, hr'.findings]
    exact byPath_perm hplaced hfiles

end CodeReview.Report
