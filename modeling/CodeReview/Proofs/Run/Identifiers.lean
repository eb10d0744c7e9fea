import CodeReview.Proofs.Number.Numerals
import CodeReview.Proofs.Rule.Overrides
import CodeReview.Proofs.Run.Course
import CodeReview.Proofs.Run.Produced
import Mathlib.Data.List.Nodup
/-!
# Identifiers of findings

An identifier is read from both ends: the rule stands before its first colon, the ordinal and the line behind its last
two, and what is left is the path, colons and all (`numberedId_inj`).  So findings of one file differ in their ordinals,
findings of different files in their paths (`files_nodup`), and no identifier stands twice in a run (`run_ids_nodup`).

Each file of a run is that of one of its entries, read and analyzed with what those before it have loaded
(`exists_of_mem_contributions`).  To number what has been found in it changes the identifiers only (`number_eq_mapIdx`).
-/
namespace CodeReview.Run

open Grammar (Session)
open Syntax (Deadline)

/-! ## Parts between separators -/

theorem cut_last_inj {α : Type} {a : α} {xs ys us vs : List α} (hu : a ∉ us) (hv : a ∉ vs)
    (h : xs ++ a :: us = ys ++ a :: vs) : xs = ys ∧ us = vs := by
  -- of two different cuts the later one would put the separator behind the earlier one
  rcases List.append_eq_append_iff.1 h with ⟨cs, rfl, hc⟩ | ⟨cs, rfl, hc⟩
  · cases cs with
    | nil =>
      cases hc
      exact ⟨(List.append_nil xs).symm, rfl⟩
    | cons c cs =>
      rw [List.cons_append, List.cons.injEq] at hc
      exact absurd (hc.2 ▸ by simp) hu
  · cases cs with
    | nil =>
      cases hc
      exact ⟨List.append_nil ys, rfl⟩
    | cons c cs =>
      rw [List.cons_append, List.cons.injEq] at hc
      exact absurd (hc.2 ▸ by simp) hv

theorem cut_first_inj {α : Type} {a : α} {xs ys us vs : List α} (hx : a ∉ xs) (hy : a ∉ ys)
    (h : xs ++ a :: us = ys ++ a :: vs) : xs = ys ∧ us = vs := by
  have hrev : us.reverse ++ a :: xs.reverse = vs.reverse ++ a :: ys.reverse := by
    simpa using congrArg List.reverse h
  obtain ⟨hus, hxs⟩ := cut_last_inj (by rwa [List.mem_reverse]) (by rwa [List.mem_reverse]) hrev
  exact ⟨List.reverse_injective hxs, List.reverse_injective hus⟩

theorem colon_notMem_toDigits (n : Nat) : ':' ∉ Nat.toDigits 10 n := fun h =>
  absurd (Nat.isDigit_of_mem_toDigits (by decide) (by decide) h) (by decide)

theorem colon_notMem_toString (n : Int) : ':' ∉ (toString n).toList := by
  rw [Number.toString_toList, List.mem_append, not_or]
  refine ⟨?_, colon_notMem_toDigits _⟩
  split <;> decide

/-! ## Numbered findings -/

namespace FileAnalyzer

theorem numberedId_toList (path : String) (f : Finding) (n : Nat) :
    (numberedId path f n).toList =
      ((f.rule.id.toList ++ ':' :: path.toList) ++ ':' :: (toString f.line).toList) ++ ':' :: Nat.toDigits 10 n := by
  rw [numberedId]
  simp only [String.toList_append, Nat.toString_eq_repr, Nat.toList_repr]
  simp

/-- **An identifier tells the rule, the path and the ordinal of its finding**, whatever characters the path has. -/
theorem numberedId_inj {p q : String} {f g : Finding} {m n : Nat} (hf : ':' ∉ f.rule.id.toList)
    (hg : ':' ∉ g.rule.id.toList) (h : numberedId p f m = numberedId q g n) :
    f.rule.id = g.rule.id ∧ p = q ∧ m = n := by
  have hlist := congrArg String.toList h
  rw [numberedId_toList, numberedId_toList] at hlist
  obtain ⟨hlines, hordinal⟩ := cut_last_inj (colon_notMem_toDigits m) (colon_notMem_toDigits n) hlist
  obtain ⟨hpaths, -⟩ := cut_last_inj (colon_notMem_toString f.line) (colon_notMem_toString g.line) hlines
  obtain ⟨hrule, hpath⟩ := cut_first_inj hf hg hpaths
  exact ⟨String.toList_inj.1 hrule, String.toList_inj.1 hpath, Number.toDigits_injective hordinal⟩

theorem numbered_nodup (path : String) : ∀ (fs : List Finding) (k : Nat), (∀ f ∈ fs, ':' ∉ f.rule.id.toList) →
    ((fs.zipIdx k).map fun x => numberedId path x.1 x.2).Nodup
  | [], _, _ => List.nodup_nil
  | f :: fs, k, h => by
    rw [List.zipIdx_cons, List.map_cons, List.nodup_cons]
    refine ⟨fun hmem => ?_, numbered_nodup path fs (k + 1) fun g hg => h g (by simp [hg])⟩
    obtain ⟨⟨g, i⟩, hg, heq⟩ := List.mem_map.1 hmem
    have hi : k + 1 ≤ i := List.le_snd_of_mem_zipIdx hg
    have hgmem : g ∈ fs := List.fst_mem_of_mem_zipIdx hg
    obtain ⟨-, -, hik⟩ := numberedId_inj (h g (by simp [hgmem])) (h f (by simp)) heq
    omega

theorem number_ids (path : String) (fs : List Finding) :
    (number path fs).map (·.id) = (fs.zipIdx 1).map fun x => numberedId path x.1 x.2 := by
  rw [number, List.map_map]
  rfl

/-- **The identifiers of numbered findings end in the numbers from one**, and nothing else about the findings is changed. -/
theorem number_eq_mapIdx (path : String) (fs : List Finding) : number path fs = fs.mapIdx fun i f =>
    { f with id := f.rule.id ++ ":" ++ path ++ ":" ++ toString f.location.line ++ ":" ++ toString (i + 1) } := by
  rw [number, List.mapIdx_eq_zipIdx_map, List.zipIdx_eq_map_add, List.map_map]
  refine List.map_congr_left fun x _ => ?_
  show x.1.withId (numberedId path x.1 (1 + x.2)) = _
  rw [Nat.add_comm 1 x.2]
  rfl

/-- A file whose findings are numbered ones of rules without a colon. -/
def IsNumbered (r : FileResult) : Prop :=
  ∃ fs : List Finding, (∀ f ∈ fs, ':' ∉ f.rule.id.toList) ∧ r.findings = number r.path fs

theorem IsNumbered.nodup {r : FileResult} (h : IsNumbered r) : (r.findings.map (·.id)).Nodup := by
  obtain ⟨fs, hfs, hr⟩ := h
  rw [hr, number_ids]
  exact numbered_nodup r.path fs 1 hfs

theorem IsNumbered.mem_ids {r : FileResult} (h : IsNumbered r) {id : String} (hid : id ∈ r.findings.map (·.id)) :
    ∃ f : Finding, ∃ n, ':' ∉ f.rule.id.toList ∧ id = numberedId r.path f n := by
  obtain ⟨fs, hfs, hr⟩ := h
  rw [hr, number_ids] at hid
  obtain ⟨⟨f, n⟩, hf, rfl⟩ := List.mem_map.1 hid
  exact ⟨f, n, hfs f (List.fst_mem_of_mem_zipIdx hf), rfl⟩

/-- **Findings of files with different paths have different identifiers.** -/
theorem files_nodup {rs : List FileResult} (hn : ∀ r ∈ rs, IsNumbered r) (hp : (rs.map (·.path)).Nodup) :
    ((rs.flatMap (·.findings)).map (·.id)).Nodup := by
  rw [List.map_flatMap, List.nodup_flatMap]
  refine ⟨fun r hr => (hn r hr).nodup, ?_⟩
  refine (List.pairwise_map.1 hp).imp_of_mem fun {r s} hr hs hne => ?_
  rw [Function.onFun, List.disjoint_left]
  -- an identifier of both files would tell both paths
  intro id hid hid'
  obtain ⟨f, m, hf, rfl⟩ := (hn r hr).mem_ids hid
  obtain ⟨g, n, hg, heq⟩ := (hn s hs).mem_ids hid'
  exact hne (numberedId_inj hf hg heq).2.1

/-! ## The findings of a run -/

variable {a : FileAnalyzer}

/-- **A file that an entry adds reports what has been found in it**, filtered and numbered. -/
theorem contribution_found {e : Entry} {c : Contribution} (h : c.Of a.known e) {r : FileResult} (hr : r ∈ c.files) :
    r.path = e.path ∧ ∃ session text language dl fs, Found a session e.path text language dl fs ∧
      r.findings = a.finish e.path fs := by
  cases h with
  | skipped => cases hr
  | unread => cases hr
  | crashed => cases hr
  | added _ _ ha =>
    rw [Contribution.files, List.mem_singleton] at hr
    subst hr
    obtain ⟨dl, fs, hfs, hpath, hfindings⟩ := known_found ha
    exact ⟨hpath, _, _, _, dl, fs, hfs, hfindings⟩

theorem contribution_paths {e : Entry} {c : Contribution} (h : c.Of a.known e) :
    (c.files.map (·.path)).Sublist [e.path] := by
  cases c with
  | added r =>
    have hpath : r.path = e.path := (contribution_found h (List.mem_singleton_self r)).1
    rw [← hpath]
    exact List.Sublist.refl _
  | _ => exact List.nil_sublist _

theorem paths_sublist {α : Type} {files : α → List FileResult} {path : α → String} : ∀ {xs : List α},
    (∀ x ∈ xs, ((files x).map (·.path)).Sublist [path x]) → ((xs.flatMap files).map (·.path)).Sublist (xs.map path)
  | [], _ => List.nil_sublist _
  | x :: xs, h => by
    have ih := paths_sublist fun y hy => h y (List.mem_cons_of_mem x hy)
    rw [List.flatMap_cons, List.map_append, List.map_cons]
    exact (h x List.mem_cons_self).append ih

theorem found_colonFree {overrides : Entries Value} (hrules : RuleSet.builtin.withOverrides overrides = .ok a.rules)
    (hx : ∀ x ∈ a.registry.analyzers, x.Grounded) {session : Session} {path text language : String}
    {dl : Option Deadline} {fs : List Finding} (h : Found a session path text language dl fs) :
    ∀ f ∈ fs, ':' ∉ f.rule.id.toList := fun f hf => by
  rcases found_grounded hx h f hf with hhas | hid
  · exact RuleSet.colonFree_of_has hrules hhas
  · rw [hid]
    decide

/-! ## What is loaded before a file -/

/-- What is loaded after an entry has been parsed within a time budget. -/
def loads (a : FileAnalyzer) (dl : Option Deadline) (session : Session) (e : Entry) : Session :=
  match Language.ofPath? e.path, e.read with
  | some l, .ok text => (a.parse session e.path text l.name dl).1.session
  | _, _ => session

theorem contribute_session {dl : Option Deadline} (hb : a.budget = .ok dl) (session : Session) (e : Entry) :
    (contribute a.known session e).2 = a.loads dl session e := by
  unfold contribute loads
  cases Language.ofPath? e.path with
  | none => rfl
  | some l =>
    cases e.read with
    | error u => rfl
    | ok text =>
      dsimp only
      rw [known_of_budget hb]
      exact a.analyzeWithin_session session e.path text l.name dl

theorem exists_of_mem_contribute {session : Session} {e : Entry} {f : FileResult}
    (h : f ∈ (contribute a.known session e).1.files) : ∃ dl l text, a.budget = .ok dl ∧
      Language.ofPath? e.path = some l ∧ e.read = .ok text ∧
      f = (a.analyzeWithin session e.path text l.name dl).result := by
  unfold contribute at h
  cases hl : Language.ofPath? e.path with
  | none =>
    rw [hl] at h
    cases h
  | some l =>
    cases hread : e.read with
    | error u =>
      rw [hl, hread] at h
      cases h
    | ok text =>
      rw [hl, hread] at h
      dsimp only at h
      cases hb : a.budget with
      | error why =>
        rw [known_of_no_budget hb] at h
        cases h
      | ok dl =>
        rw [known_of_budget hb] at h
        exact ⟨dl, l, text, rfl, rfl, rfl, List.mem_singleton.1 h⟩

/-- **A file that entries contribute is that of one of them**, analyzed with what those before it have loaded. -/
theorem exists_of_mem_contributions {f : FileResult} : ∀ (entries : List Entry) (session : Session),
    f ∈ (contributions a.known session entries).flatMap (·.files) →
    ∃ dl before e after l text, a.budget = .ok dl ∧ entries = before ++ e :: after ∧ Language.ofPath? e.path = some l ∧
      e.read = .ok text ∧ f = (a.analyzeWithin (before.foldl (a.loads dl) session) e.path text l.name dl).result
  | [], _, h => by cases h
  | e :: rest, session, h => by
    rw [contributions, List.flatMap_cons] at h
    rcases List.mem_append.1 h with h | h
    · obtain ⟨dl, l, text, hb, hl, hread, hf⟩ := exists_of_mem_contribute h
      exact ⟨dl, [], e, rest, l, text, hb, rfl, hl, hread, hf⟩
    · obtain ⟨dl, before, e', after, l, text, hb, rfl, hl, hread, hf⟩ := exists_of_mem_contributions rest _ h
      rw [contribute_session hb] at hf
      exact ⟨dl, e :: before, e', after, l, text, hb, rfl, hl, hread, hf⟩

/-- **No identifier stands twice among the findings of a run** with the built-in rules, whatever the overrides, if the
selected paths differ.  Those of a file are what has been found in the text of one of the entries, within the time budget and
with what the entries before it have loaded: those that the severity keeps, in order and unchanged but for their identifiers,
which end in the numbers from one. -/
theorem run_ids_nodup {σ : Type} (overrides : Entries Value) (o : Observers σ) (token : Token) (selection : Selection)
    (listing : Listing) (state : σ) (r : RepositoryResult)
    (hrules : RuleSet.builtin.withOverrides overrides = .ok a.rules)
    (hx : ∀ x ∈ a.registry.analyzers, x.Grounded)
    (hpaths : ((selected selection listing.entries).map (·.path)).Nodup)
    (hr : (repository a.known o token selection listing state).result = .ok r) :
    r.findings = r.files.flatMap (·.findings) ∧ (r.findings.map (·.id)).Nodup ∧
      ∀ f ∈ r.files, ∃ dl before e after l text produced,
        a.budget = .ok dl ∧ selected selection listing.entries = before ++ e :: after ∧
        Language.ofPath? e.path = some l ∧ e.read = .ok text ∧ f.path = e.path ∧
        Found a (before.foldl (a.loads dl) {}) e.path text l.name dl produced ∧
        f.findings = (produced.filter fun g => decide (a.minSeverity ≤ g.severity) || g.rule.id == parseErrorId).mapIdx
          fun i g => { g with id :=
            g.rule.id ++ ":" ++ f.path ++ ":" ++ toString g.location.line ++ ":" ++ toString (i + 1) } := by
  obtain ⟨entries, st, xs, progress, sink, ⟨rest, hrest⟩, hran⟩ := repository_result hr
  have hfiles : ∀ f ∈ r.files, ∃ dl before e after l text produced, a.budget = .ok dl ∧ entries = before ++ e :: after ∧
      Language.ofPath? e.path = some l ∧ e.read = .ok text ∧ f.path = e.path ∧
      Found a (before.foldl (a.loads dl) {}) e.path text l.name dl produced ∧ f.findings = a.finish f.path produced := by
    intro f hf
    rw [hran.files] at hf
    obtain ⟨dl, before, e, after, l, text, hb, hentries, hl, hread, rfl⟩ := exists_of_mem_contributions entries {} hf
    obtain ⟨produced, hfound, hpath, hfindings⟩ :=
      analyzeWithin_found (a := a) (before.foldl (a.loads dl) {}) e.path text l.name dl
    exact ⟨dl, before, e, after, l, text, produced, hb, hentries, hl, hread, hpath, hfound, hpath.symm ▸ hfindings⟩
  obtain ⟨ys, hys⟩ := repository_settled hr
  refine ⟨hys.addsUp.findings, ?_, fun f hf => ?_⟩
  · rw [hys.addsUp.findings]
    refine files_nodup (fun f hf => ?_) ?_
    · obtain ⟨_, _, _, _, _, _, fs, -, -, -, -, -, hfs, hfindings⟩ := hfiles f hf
      exact ⟨fs.filter a.keeps, fun g hg => found_colonFree hrules hx hfs g (List.mem_of_mem_filter hg), hfindings⟩
    · rw [hran.files_eq]
      have hadded := paths_sublist fun x hmem => contribution_paths (hran.contribution_of x hmem)
      have hsub : (xs.map (·.entry.path)).Sublist ((selected selection listing.entries).map (·.path)) := by
        rw [← hrest, ← hran.course, List.map_append, List.map_map]
        exact List.sublist_append_left _ _
      exact (hadded.trans hsub).nodup hpaths
  · obtain ⟨dl, before, e, after, l, text, produced, hb, hentries, hl, hread, hpath, hfound, hfindings⟩ := hfiles f hf
    refine ⟨dl, before, e, after ++ rest, l, text, produced, hb, ?_, hl, hread, hpath, hfound, ?_⟩
    · rw [← hrest, hentries, List.append_assoc, List.cons_append]
    · rw [hfindings, finish, number_eq_mapIdx]
      rfl

/-- Two files whose paths could be told apart wrongly, and which no grammar parses. -/
def colonListing : Listing := { entries := [.ofText "a:1.py" "x", .ofText "a.py" "x"] }

/-- The findings of these files have different identifiers. -/
theorem colon_paths_ids_nodup : ∃ r, (repository ({ parse := hostParse .bare false } : FileAnalyzer).known
    (Observers.idle fun s => (⟨0⟩, s)) Token.never { exclude := [] } colonListing ()).result = .ok r ∧
      (r.findings.map (·.id)).Nodup ∧ r.findings.map (·.id) = ["parse-error:a:1.py:1:1", "parse-error:a.py:1:1"] := by
  refine ⟨_, rfl, ?_, by decide +kernel⟩
  exact (run_ids_nodup (a := { parse := hostParse .bare false }) [] (Observers.idle fun s => (⟨0⟩, s)) Token.never
    { exclude := [] } colonListing () _ rfl Analyzer.builtin_grounded (by decide) rfl).2.1

end FileAnalyzer
end CodeReview.Run
