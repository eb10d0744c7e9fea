import CodeReview.Proofs.Report.Order
import CodeReview.Proofs.Text.Lines
import Mathlib.Data.List.Induction
/-!
# Reports list every finding once

Findings are gathered in a table, one after the other: a finding is appended to the group of its path, and a path that has
no group gets one (`enter`).  The groups are then sorted.  Their paths differ, so that no two of them are ever told apart by
their findings, which have no order: a sort that would stop there does not (`sorted?_gathered`).  What it makes are the
groups that reports show, and these part the findings (`Parts`).
-/
namespace CodeReview.Report

abbrev Group := String × List Finding

/-- Enters a finding in the group of its path; a path that has no group gets one behind the others. -/
def enter : List Group → Finding → List Group
  | [], f => [(pathOf f, [f])]
  | g :: gs, f => if g.1 = pathOf f then (g.1, g.2 ++ [f]) :: gs else g :: enter gs f

def gathered (fs : List Finding) : List Group := fs.foldl enter []

/-- Whether a group is less than another.  Their paths tell, and in groups of one path it would be the findings: these cannot
be compared. -/
def isLess? (g g' : Group) : Option Bool := if g.1 = g'.1 then none else some (decide (g.1 < g'.1))

def place? (g : Group) : List Group → Option (List Group)
  | [] => some [g]
  | h :: hs => do
    if ← isLess? g h then return g :: h :: hs
    return h :: (← place? g hs)

/-- Sorts groups, unless two of them have to be told apart by their findings. -/
def sorted? : List Group → Option (List Group)
  | [] => some []
  | g :: gs => do place? g (← sorted? gs)

/-! ## The table -/

theorem onPath_concat (fs : List Finding) (f : Finding) (path : String) :
    onPath (fs ++ [f]) path = onPath fs path ++ if pathOf f = path then [f] else [] := by
  rw [onPath, List.filter_append, List.filter_cons, List.filter_nil]
  simp only [beq_iff_eq]
  rfl

theorem onPath_eq_nil_iff {fs : List Finding} {path : String} : onPath fs path = [] ↔ path ∉ fs.map pathOf := by
  rw [onPath, List.filter_eq_nil_iff, List.mem_map, not_exists]
  simp

theorem enter_of_mem {fs : List Finding} {f : Finding} : ∀ {ps : List String}, ps.Nodup → pathOf f ∈ ps →
    enter (ps.map fun p => (p, onPath fs p)) f = ps.map fun p => (p, onPath (fs ++ [f]) p)
  | [], _, h => by cases h
  | p :: ps, hn, h => by
    rw [List.nodup_cons] at hn
    rw [List.map_cons, List.map_cons, enter, onPath_concat]
    by_cases hp : p = pathOf f
    · have hrest : (ps.map fun p => (p, onPath fs p)) = ps.map fun p => (p, onPath (fs ++ [f]) p) := by
        refine List.map_congr_left fun q hq => ?_
        have hq' : pathOf f ≠ q := fun heq => hn.1 (hp.trans heq ▸ hq)
        rw [onPath_concat, if_neg hq', List.append_nil]
      rw [if_pos hp, if_pos hp.symm, hrest]
    · have hmem : pathOf f ∈ ps := (List.mem_cons.1 h).resolve_left (Ne.symm hp)
      rw [if_neg hp, if_neg (Ne.symm hp), List.append_nil, enter_of_mem hn.2 hmem]

theorem enter_of_not_mem {fs : List Finding} {f : Finding} : ∀ {ps : List String}, pathOf f ∉ ps →
    enter (ps.map fun p => (p, onPath fs p)) f = (ps.map fun p => (p, onPath (fs ++ [f]) p)) ++ [(pathOf f, [f])]
  | [], _ => rfl
  | p :: ps, h => by
    rw [List.mem_cons, not_or] at h
    rw [List.map_cons, List.map_cons, enter, if_neg (Ne.symm h.1), enter_of_not_mem h.2, onPath_concat, if_neg h.1,
      List.append_nil, List.cons_append]

/-- **The table has one group for each path**, with the findings of that path in their order. -/
theorem gathered_eq (fs : List Finding) : ∃ ps : List String, ps.Nodup ∧ (∀ p, p ∈ ps ↔ p ∈ fs.map pathOf) ∧
    gathered fs = ps.map fun p => (p, onPath fs p) := by
  -- the table is filled from the front: the last finding is entered into the table of the others
  induction fs using List.reverseRecOn with
  | nil => exact ⟨[], List.nodup_nil, fun p => Iff.rfl, rfl⟩
  | append_singleton fs f ih =>
    obtain ⟨ps, hn, hmem, hps⟩ := ih
    have hstep : gathered (fs ++ [f]) = enter (gathered fs) f := by
      rw [gathered, List.foldl_append]
      rfl
    by_cases hf : pathOf f ∈ ps
    · refine ⟨ps, hn, fun p => ?_, by rw [hstep, hps, enter_of_mem hn hf]⟩
      rw [List.map_append, List.mem_append, ← hmem, List.map_singleton, List.mem_singleton]
      exact ⟨.inl, fun h => h.elim id fun heq => heq ▸ hf⟩
    · refine ⟨ps ++ [pathOf f], ?_, fun p => ?_, ?_⟩
      · rw [List.nodup_append]
        refine ⟨hn, List.nodup_singleton _, fun p hp q hq => ?_⟩
        rw [List.mem_singleton.1 hq]
        exact fun heq => hf (heq ▸ hp)
      · rw [List.map_append, List.mem_append, List.mem_append, hmem, List.map_singleton]
      · have hnew : onPath (fs ++ [f]) (pathOf f) = [f] := by
          rw [onPath_concat, onPath_eq_nil_iff.2 (mt (hmem _).2 hf), if_pos rfl, List.nil_append]
        rw [hstep, hps, enter_of_not_mem hf, List.map_append, List.map_singleton, hnew]

/-! ## The sort -/

theorem less_of_le_of_ne {s t : String} (hle : s ≤ t) (hne : s ≠ t) : s < t :=
  Decidable.byContradiction fun hlt => hne (String.le_antisymm hle (String.not_lt.1 hlt))

theorem isLess?_eq_some {g g' : Group} (h : g.1 ≠ g'.1) : isLess? g g' = some (decide (g.1 < g'.1)) := if_neg h

/-- Putting a group in its place keeps the others in order, and stops nowhere if its path is a new one. -/
theorem exists_place? {g : Group} : ∀ {hs : List Group}, (∀ h ∈ hs, g.1 ≠ h.1) → hs.Pairwise (·.1 < ·.1) →
    ∃ placed, place? g hs = some placed ∧ placed.Perm (g :: hs) ∧ placed.Pairwise (·.1 < ·.1)
  | [], _, _ => ⟨[g], rfl, List.Perm.refl _, List.pairwise_singleton _ _⟩
  | h :: hs, hnew, hsorted => by
    have hless := isLess?_eq_some (hnew h List.mem_cons_self)
    rw [List.pairwise_cons] at hsorted
    by_cases hlt : g.1 < h.1
    · refine ⟨g :: h :: hs, ?_, List.Perm.refl _, List.pairwise_cons.2 ⟨?_, List.pairwise_cons.2 hsorted⟩⟩
      · simp [place?, hless, hlt]
      · intro k hk
        rcases List.mem_cons.1 hk with rfl | hk
        · exact hlt
        · exact String.lt_trans hlt (hsorted.1 k hk)
    · obtain ⟨placed, hplaced, hperm, hpairs⟩ :=
        exists_place? (fun k hk => hnew k (List.mem_cons_of_mem h hk)) hsorted.2
      refine ⟨h :: placed, by simp [place?, hless, hlt, hplaced], (hperm.cons h).trans (List.Perm.swap g h hs),
        List.pairwise_cons.2 ⟨fun k hk => ?_, hpairs⟩⟩
      rcases List.mem_cons.1 (hperm.mem_iff.1 hk) with rfl | hk
      · exact less_of_le_of_ne (String.not_lt.1 hlt) (hnew h List.mem_cons_self).symm
      · exact hsorted.1 k hk

/-- **Groups of different paths are sorted** without a look at their findings. -/
theorem exists_sorted? : ∀ {gs : List Group}, gs.Pairwise (·.1 ≠ ·.1) →
    ∃ sorted, sorted? gs = some sorted ∧ sorted.Perm gs ∧ sorted.Pairwise (·.1 < ·.1)
  | [], _ => ⟨[], rfl, List.Perm.refl _, List.Pairwise.nil⟩
  | g :: gs, h => by
    rw [List.pairwise_cons] at h
    obtain ⟨sorted, hsorted, hperm, hpairs⟩ := exists_sorted? h.2
    obtain ⟨placed, hplaced, hperm', hpairs'⟩ := exists_place? (fun k hk => h.1 k (hperm.mem_iff.1 hk)) hpairs
    exact ⟨placed, by simp [sorted?, hsorted, hplaced], hperm'.trans (hperm.cons g), hpairs'⟩

/-! ## The groups of a report -/

theorem paths_nodup (fs : List Finding) : (paths fs).Nodup :=
  (List.mergeSort_perm _ _).nodup_iff.2 (eraseDups_nodup _)

theorem mem_paths {fs : List Finding} {p : String} : p ∈ paths fs ↔ p ∈ fs.map pathOf := by
  rw [paths, List.mem_mergeSort, List.mem_eraseDups]

theorem paths_ascending (fs : List Finding) : (paths fs).Pairwise (· < ·) :=
  ((sortStrings_sorted _).and (paths_nodup fs)).imp fun h => less_of_le_of_ne h.1 h.2

theorem byPath_ascending (fs : List Finding) : (byPath fs).Pairwise (·.1 < ·.1) :=
  List.pairwise_map.2 (paths_ascending fs)

theorem byPath_perm_gathered (fs : List Finding) : (byPath fs).Perm (gathered fs) := by
  obtain ⟨ps, hn, hmem, hps⟩ := gathered_eq fs
  have hperm : (paths fs).Perm ps :=
    (List.perm_ext_iff_of_nodup (paths_nodup fs) hn).2 fun p => mem_paths.trans (hmem p).symm
  rw [hps]
  exact hperm.map _

theorem gathered_distinct (fs : List Finding) : (gathered fs).Pairwise (·.1 ≠ ·.1) := by
  obtain ⟨ps, hn, -, hps⟩ := gathered_eq fs
  rw [hps]
  exact List.pairwise_map.2 hn

/-- **Sorting what is gathered makes the groups of a report**, and no two findings are compared for it. -/
theorem sorted?_gathered (fs : List Finding) : sorted? (gathered fs) = some (byPath fs) := by
  obtain ⟨sorted, hsorted, hperm, hpairs⟩ := exists_sorted? (gathered_distinct fs)
  have hsame : sorted = byPath fs := (hperm.trans (byPath_perm_gathered fs).symm).eq_of_pairwise
    (fun _ _ _ _ hab hba => absurd hba (String.lt_asymm hab)) hpairs (byPath_ascending fs)
  rw [hsorted, hsame]

theorem flatMap_onPath_perm : ∀ {ps : List String} {fs : List Finding}, ps.Nodup → (∀ f ∈ fs, pathOf f ∈ ps) →
    (ps.flatMap (onPath fs)).Perm fs
  | [], fs, _, h => by
    rw [List.eq_nil_iff_forall_not_mem.2 fun f hf => List.not_mem_nil (h f hf)]
    exact List.Perm.refl _
  | p :: ps, fs, hn, h => by
    rw [List.nodup_cons] at hn
    have hrest : ps.flatMap (onPath fs) = ps.flatMap (onPath (fs.filter fun f => !(pathOf f == p))) := by
      refine List.flatMap_congr fun q hq => ?_
      rw [onPath, onPath, List.filter_filter]
      refine List.filter_congr fun f _ => ?_
      have hpq : q ≠ p := fun heq => hn.1 (heq ▸ hq)
      by_cases hf : pathOf f = q <;> simp [hf, hpq]
    have hothers : ∀ f ∈ fs.filter fun f => !(pathOf f == p), pathOf f ∈ ps := fun f hf => by
      rw [List.mem_filter] at hf
      exact (List.mem_cons.1 (h f hf.1)).resolve_left (by simpa using hf.2)
    rw [List.flatMap_cons, hrest]
    exact ((flatMap_onPath_perm hn.2 hothers).append_left _).trans (List.filter_append_perm _ fs)

/-- That groups part findings: by their paths, which ascend, and in their order, with no group empty. -/
structure Parts (groups : List Group) (fs : List Finding) : Prop where
  ascending : groups.Pairwise (·.1 < ·.1)
  nonempty : ∀ g ∈ groups, g.2 ≠ []
  inOrder : ∀ g ∈ groups, g.2 = fs.filter (pathOf · == g.1)
  unique : ∀ f ∈ fs, ∃! g, g ∈ groups ∧ f ∈ g.2
  all : (groups.flatMap (·.2)).Perm fs

theorem byPath_parts (fs : List Finding) : Parts (byPath fs) fs where
  ascending := byPath_ascending fs
  nonempty := by
    intro g hg
    obtain ⟨p, hp, rfl⟩ := List.mem_map.1 hg
    exact mt onPath_eq_nil_iff.1 (not_not.2 (mem_paths.1 hp))
  inOrder := by
    intro g hg
    obtain ⟨p, -, rfl⟩ := List.mem_map.1 hg
    rfl
  unique := by
    intro f hf
    refine ⟨(pathOf f, onPath fs (pathOf f)), ⟨?_, ?_⟩, ?_⟩
    · exact List.mem_map.2 ⟨_, mem_paths.2 (List.mem_map_of_mem hf), rfl⟩
    · exact List.mem_filter.2 ⟨hf, beq_self_eq_true _⟩
    · rintro g ⟨hg, hfg⟩
      obtain ⟨p, -, rfl⟩ := List.mem_map.1 hg
      rw [beq_iff_eq.1 (List.mem_filter.1 hfg).2]
  all := by
    rw [byPath, List.flatMap_map]
    exact flatMap_onPath_perm (paths_nodup fs) fun f hf => mem_paths.2 (List.mem_map_of_mem hf)

/-! ## What is shown for findings -/

theorem Parts.map_perm {β : Type} {groups : List Group} {fs : List Finding} (h : Parts groups fs) (entry : Finding → β) :
    (groups.flatMap fun g => g.2.map entry).Perm (fs.map entry) := by
  rw [← List.map_flatMap]
  exact h.all.map entry

theorem Parts.filterMap_perm {β : Type} {groups : List Group} {fs : List Finding} (h : Parts groups fs)
    (shown? : Finding → Option β) : (groups.flatMap fun g => g.2.filterMap shown?).Perm (fs.filterMap shown?) := by
  rw [← List.filterMap_flatMap]
  exact h.all.filterMap shown?

theorem Markdown.findingRow_eq (f : Finding) : Markdown.findingRow f = "| " ++ toString f.location.line ++ " | " ++
    f.severity.name ++ " | \x60" ++ f.rule.id ++ "\x60 | " ++ f.title ++ " |" := by
  apply String.toList_injective
  simp [Markdown.findingRow, Markdown.row, Markdown.code]

theorem Parts.eq_nil_iff {groups : List Group} {fs : List Finding} (h : Parts groups fs) : groups = [] ↔ fs = [] := by
  constructor
  · rintro rfl
    exact h.all.nil_eq.symm
  · rintro rfl
    refine List.eq_nil_iff_forall_not_mem.2 fun g hg => h.nonempty g hg ?_
    rw [h.inOrder g hg, List.filter_nil]

end CodeReview.Report

namespace CodeReview.RepositoryResult

/-- The results that come about from adding files and errors and from finishing, in any order and any number of times. -/
inductive Built : RepositoryResult → Prop
  | start (total : Int) (state : RunState) (now : Calendar.Instant) : Built { totalFiles := total, state, startedAt := now }
  | addFile {r : RepositoryResult} (f : FileResult) : Built r → Built (r.addFile f)
  | addError {r : RepositoryResult} (e : RunError) : Built r → Built (r.addError e)
  | finalize {r : RepositoryResult} (state : RunState) (now : Calendar.Instant) : Built r → Built (r.finalize state now)
  | checkedFinalize {r : RepositoryResult} (state : RunState) (now : Calendar.Instant) : Built r →
      Built (r.checkedFinalize state now).2

/-- **The counters count the lists** of whatever result has come about. -/
theorem Built.counted {r : RepositoryResult} (h : r.Built) : r.Counted := by
  induction h with
  | start total state now => exact ⟨rfl, rfl, fun s => by cases s <;> rfl, rfl⟩
  | addFile f _ ih => exact ih.addFile f
  | addError e _ ih => exact ih.addErrors [e]
  | finalize state now _ ih => exact ih.finalize state now
  | checkedFinalize state now _ ih =>
    unfold RepositoryResult.checkedFinalize
    split
    · exact ⟨ih.analyzed, ih.findings, ih.tally, ih.lines⟩
    · split
      · exact ih.finalize state now
      · exact ⟨ih.analyzed, ih.findings, ih.tally, ih.lines⟩

end CodeReview.RepositoryResult

namespace CodeReview.Report

/-- **Reports list every finding once**, in groups of their paths that are sorted without comparing any two findings. -/
theorem findings_listed_once {r : RepositoryResult} (h : r.Built) (title : String) :
    let entry (f : Finding) : String := "  " ++ toString f.location.line ++ ":" ++ toString f.location.column ++ "  " ++
      f.severity.label ++ " " ++ f.title ++ " [" ++ f.rule.id ++ "]"
    let row (f : Finding) : String := "| " ++ toString f.location.line ++ " | " ++ f.severity.name ++ " | \x60" ++
      f.rule.id ++ "\x60 | " ++ f.title ++ " |"
    let bullet (f : Finding) : Option String :=
      f.suggestion.map fun s => "- Line " ++ toString f.location.line ++ ": " ++ s.fix
    (gathered r.findings).Pairwise (·.1 ≠ ·.1) ∧ ∃ groups, sorted? (gathered r.findings) = some groups ∧
      Parts groups r.findings ∧
      (render .text title r).toList = (Plain.head title r ++ Plain.complexity r.complexity ++
        groups.flatMap (fun g => "" :: g.1 :: g.2.map entry) ++ Plain.errors r.errors).flatMap
          (fun l => l.toList ++ ['\n']) ∧
      (groups.flatMap fun g => g.2.map entry).Perm (r.findings.map entry) ∧
      (render .markdown title r).toList = (Markdown.head title r ++ Markdown.severities r ++
        Markdown.complexity r.complexity ++ ("## Findings" :: "" :: if r.findings = [] then ["No issues found."] else
          groups.flatMap fun g => ["### \x60" ++ g.1 ++ "\x60", "", "| Line | Severity | Rule | Issue |", "|---|---|---|---|"] ++
            g.2.map row ++ "" :: g.2.filterMap bullet) ++ Markdown.errors r.errors).flatMap (fun l => l.toList ++ ['\n']) ∧
      (groups.flatMap fun g => g.2.map row).Perm (r.findings.map row) ∧
      ((groups.flatMap fun g => g.2.map row).length : Int) = r.totalIssues ∧
      (groups.flatMap fun g => g.2.filterMap bullet).Perm (r.findings.filterMap bullet) ∧
      (groups.flatMap fun g => g.2.filterMap bullet).length = r.findings.countP (·.suggestion.isSome) := by
  intro entry row bullet
  have hparts := byPath_parts r.findings
  have hrows := hparts.map_perm row
  have hbullets := hparts.filterMap_perm bullet
  have hrow : Markdown.findingRow = row := funext Markdown.findingRow_eq
  refine ⟨gathered_distinct _, byPath r.findings, sorted?_gathered _, hparts, ?_, hparts.map_perm entry, ?_, hrows, ?_,
    hbullets, ?_⟩
  · rw [render, Text.toList_ofLines]
    rfl
  · have hnone : (byPath r.findings).isEmpty = decide (r.findings = []) := by
      rw [Bool.eq_iff_iff, List.isEmpty_iff, decide_eq_true_eq, hparts.eq_nil_iff]
    rw [render, Text.toList_ofLines, Markdown.lines, Markdown.findings, hnone, ← hrow]
    simp only [decide_eq_true_eq]
    rfl
  · rw [hrows.length_eq, List.length_map, h.counted.addsUp.issues]
  · rw [hbullets.length_eq, List.length_filterMap_eq_countP]
    exact List.countP_congr fun f _ => by rw [Option.isSome_map]

def findingAt (path : String) (line : Int) (fix : Option String) : Finding :=
  { id := "f", category := .bug, severity := .low, title := "T", description := "D", location := ⟨path, line, 1, none, none⟩,
    rule := ⟨"r", "R", .bug, none, by decide⟩, suggestion := fix.bind fun s => (Suggestion.make s none none none).toOption }

def fileWith (path : String) (fs : List Finding) : FileResult := ⟨path, none, {}, fs, [], true, .whole 0⟩

/-- Two files, of which the first has findings in two paths and the second one in the first of these. -/
def twoPaths : RepositoryResult :=
  (RepositoryResult.addFile { startedAt := ⟨0⟩ }
    (fileWith "b.js" [findingAt "b.js" 1 none, findingAt "a.js" 2 (some "Mend it")])).addFile
    (fileWith "c.js" [findingAt "b.js" 3 none])

/-- Findings of one path come together, those of the first path first. -/
theorem paths_brought_together : twoPaths.Built ∧
    render .text "two" twoPaths = "two: pending\nFiles: 2/0 analyzed, 0 lines\n" ++
      "Issues: 3 (critical 0, high 0, medium 0, low 3)\nScore: N/A\n" ++
      "\na.js\n  2:1  LOW      T [r]\n\nb.js\n  1:1  LOW      T [r]\n  3:1  LOW      T [r]\n" ∧
    ∃ head, render .markdown "two" twoPaths = head ++ ("## Findings\n\n" ++
      "### \x60a.js\x60\n\n| Line | Severity | Rule | Issue |\n|---|---|---|---|\n" ++
      "| 2 | low | \x60r\x60 | T |\n\n- Line 2: Mend it\n" ++
      "### \x60b.js\x60\n\n| Line | Severity | Rule | Issue |\n|---|---|---|---|\n" ++
      "| 1 | low | \x60r\x60 | T |\n| 3 | low | \x60r\x60 | T |\n\n") := by
  have hbuilt : twoPaths.Built := .addFile _ (.addFile _ (.start 0 .pending ⟨0⟩))
  obtain ⟨-, groups, hsorted, -, htext, -, hmarkdown, -⟩ := findings_listed_once hbuilt "two"
  have hgroups : sorted? (gathered twoPaths.findings) =
      some [("a.js", [findingAt "a.js" 2 (some "Mend it")]),
        ("b.js", [findingAt "b.js" 1 none, findingAt "b.js" 3 none])] := rfl
  rw [Option.some.inj (hsorted.symm.trans hgroups), ← Text.eq_ofLines_iff] at htext hmarkdown
  constructor
  · exact hbuilt
  constructor
  · rw [htext]
    decide +kernel
  · rw [List.append_assoc, Text.ofLines_append] at hmarkdown
    refine ⟨_, hmarkdown.trans (congrArg₂ (· ++ ·) rfl ?_)⟩
    decide +kernel

end CodeReview.Report
