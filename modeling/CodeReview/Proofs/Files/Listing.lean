import CodeReview.Files.Listing
import CodeReview.Proofs.Path.Pruning
import Mathlib.Data.List.Nodup
/-!
# Listings of folders

A listing has the files below a folder, each once, in the order of their paths (`mem_paths`, `paths_sorted`,
`paths_nodup`).  A file that is passed over with a pruned folder would not be accepted by itself (`accepts_of_pruned`), so
pruning leaves the accepted part of a listing as it is (`listed_accepted`).
-/
namespace CodeReview
namespace Files

open Text (Bytes)

/-- That a table of files has each place once, and that its places are of names without slashes. -/
structure IsTree (fs : Files) : Prop where
  apart : (fs.items.map (·.1)).Nodup
  named : ∀ e ∈ fs.items, ∀ part ∈ e.1, '/' ∉ part.toList

/-! ## Places as texts -/

theorem relative_append {xs ys : Place} (hx : xs ≠ []) (hy : ys ≠ []) :
    relative (xs ++ ys) = relative xs ++ "/" ++ relative ys := by
  induction xs with
  | nil => exact absurd rfl hx
  | cons x xs ih =>
    cases xs with
    | nil =>
      obtain ⟨y, ys, rfl⟩ := List.exists_cons_of_ne_nil hy
      rw [List.cons_append, List.nil_append, relative, String.intercalate_cons_cons]
      simp [relative]
    | cons x' xs =>
      have ih := ih (List.cons_ne_nil x' xs)
      rw [List.cons_append, List.cons_append, relative, String.intercalate_cons_cons, ← List.cons_append, ← relative, ih,
        relative, relative, relative, String.intercalate_cons_cons]
      simp only [String.append_assoc]

theorem splitOn_free {cs : List Char} (h : '/' ∉ cs) : Text.splitOn '/' cs = [cs] := by
  induction cs with
  | nil => simp [Text.splitOn]
  | cons c cs ih =>
    rw [List.mem_cons, not_or] at h
    rw [Text.splitOn, if_neg (by simpa using Ne.symm h.1), ih h.2]

theorem splitOn_relative : ∀ {p : Place}, p ≠ [] → (∀ part ∈ p, '/' ∉ part.toList) →
    Text.splitOn '/' (relative p).toList = p.map String.toList
  | [], h, _ => absurd rfl h
  | [x], _, hp => by
    have hx : relative [x] = x := by simp [relative]
    rw [hx, splitOn_free (hp x (by simp))]
    rfl
  | x :: y :: p, _, hp => by
    have hsplit : relative (x :: y :: p) = x ++ "/" ++ relative (y :: p) := String.intercalate_cons_cons
    have hchars : (relative (x :: y :: p)).toList = x.toList ++ '/' :: (relative (y :: p)).toList := by
      rw [hsplit]
      simp
    rw [hchars, Text.splitOn_append, splitOn_free (hp x (by simp)),
      splitOn_relative (List.cons_ne_nil y p) fun part hpart => hp part (List.mem_cons_of_mem x hpart)]
    rfl

theorem relative_inj {p q : Place} (hp : p ≠ []) (hq : q ≠ []) (hpn : ∀ part ∈ p, '/' ∉ part.toList)
    (hqn : ∀ part ∈ q, '/' ∉ part.toList) (h : relative p = relative q) : p = q := by
  have hparts : p.map String.toList = q.map String.toList := by
    rw [← splitOn_relative hp hpn, ← splitOn_relative hq hqn, h]
  exact List.map_injective_iff.2 (fun _ _ => String.toList_inj.1) hparts

/-! ## The files below a folder -/

theorem behind?_eq_some {root p rest : Place} : behind? root p = some rest ↔ p = root ++ rest ∧ rest ≠ [] := by
  unfold behind?
  constructor
  · intro h
    split at h
    · rename_i hcond
      rw [Bool.and_eq_true, List.isPrefixOf_iff_prefix, decide_eq_true_eq] at hcond
      obtain ⟨⟨tail, rfl⟩, hlength⟩ := hcond
      rw [List.drop_left] at h
      cases h
      refine ⟨rfl, fun hnil => ?_⟩
      rw [hnil, List.append_nil] at hlength
      exact Nat.lt_irrefl _ hlength
    · cases h
  · rintro ⟨rfl, hne⟩
    have hpos := List.length_pos_of_ne_nil hne
    have hleads : root.isPrefixOf (root ++ rest) = true := List.isPrefixOf_iff_prefix.2 (List.prefix_append root rest)
    have hlength : root.length < (root ++ rest).length := by
      rw [List.length_append]
      omega
    rw [hleads, decide_eq_true hlength, List.drop_left]
    rfl

theorem mem_below {fs : Files} {root rest : Place} {content : Bytes} :
    (rest, content) ∈ fs.below root ↔ rest ≠ [] ∧ (root ++ rest, .file content) ∈ fs.items := by
  rw [below, List.mem_filterMap]
  constructor
  · rintro ⟨⟨p, item⟩, hmem, h⟩
    cases item with
    | folder => cases h
    | file bytes =>
      obtain ⟨r, hr, heq⟩ := Option.map_eq_some_iff.1 h
      cases heq
      obtain ⟨rfl, hne⟩ := behind?_eq_some.1 hr
      exact ⟨hne, hmem⟩
  · rintro ⟨hne, hmem⟩
    refine ⟨(root ++ rest, .file content), hmem, ?_⟩
    dsimp only
    rw [behind?_eq_some.2 ⟨rfl, hne⟩]
    rfl

theorem below_nodup {fs : Files} (h : fs.IsTree) (root : Place) : ((fs.below root).map (·.1)).Nodup := by
  have happart : fs.items.Pairwise fun e e' => e.1 ≠ e'.1 := List.pairwise_map.1 h.apart
  refine List.pairwise_map.2 ((List.Pairwise.filterMap _ ?_) happart)
  intro e e' hne x hx x' hx' hsame
  rcases e with ⟨p, _ | content⟩
  · cases hx
  rcases e' with ⟨p', _ | content'⟩
  · cases hx'
  obtain ⟨rest, hrest, rfl⟩ := Option.map_eq_some_iff.1 hx
  obtain ⟨rest', hrest', rfl⟩ := Option.map_eq_some_iff.1 hx'
  -- two files with one place behind the folder stand at one place
  have hplace : p = root ++ rest := (behind?_eq_some.1 hrest).1
  have hplace' : p' = root ++ rest' := (behind?_eq_some.1 hrest').1
  have hrests : rest = rest' := hsame
  exact hne (hplace.trans (hrests ▸ hplace'.symm))

/-! ## Listings -/

def isListed (selection : Option Selection) (p : Place) : Bool :=
  match selection with
  | none => true
  | some s => !isPruned s p

theorem listed_eq (fs : Files) (root : Place) (selection : Option Selection) :
    fs.listed root selection =
      (((fs.below root).filter fun e => isListed selection e.1).map fun e => (relative e.1, e.2)).mergeSort
        fun a b => a.1 ≤ b.1 := by
  cases selection <;> rfl

variable {fs : Files} {root : Place} {selection : Option Selection} {s : Selection}

theorem listed_perm (fs : Files) (root : Place) (selection : Option Selection) :
    (fs.listed root selection).Perm
      (((fs.below root).filter fun e => isListed selection e.1).map fun e => (relative e.1, e.2)) := by
  rw [listed_eq]
  exact List.mergeSort_perm _ _

theorem listed_sorted (fs : Files) (root : Place) (selection : Option Selection) :
    (fs.listed root selection).Pairwise fun a b => a.1 ≤ b.1 := by
  rw [listed_eq]
  have htrans : ∀ a b c : String × Bytes, decide (a.1 ≤ b.1) = true → decide (b.1 ≤ c.1) = true →
      decide (a.1 ≤ c.1) = true := fun a b c hab hbc =>
    decide_eq_true (String.le_trans (of_decide_eq_true hab) (of_decide_eq_true hbc))
  have htotal : ∀ a b : String × Bytes, (decide (a.1 ≤ b.1) || decide (b.1 ≤ a.1)) = true := fun a b => by
    simpa using String.le_total a.1 b.1
  have h := List.pairwise_mergeSort htrans htotal
    (((fs.below root).filter fun e => isListed selection e.1).map fun e => (relative e.1, e.2))
  exact h.imp fun hab => of_decide_eq_true hab

/-- **A listing is in the order of its paths.** -/
theorem paths_sorted (fs : Files) (root : Place) (selection : Option Selection) :
    (fs.paths root selection).Pairwise (· ≤ ·) :=
  List.pairwise_map.2 (fs.listed_sorted root selection)

/-- **A listing has each path once.** -/
theorem paths_nodup (h : fs.IsTree) (root : Place) (selection : Option Selection) : (fs.paths root selection).Nodup := by
  have hperm := (fs.listed_perm root selection).map (·.1)
  rw [List.map_map] at hperm
  refine hperm.nodup_iff.2 ?_
  have hplaces : (((fs.below root).filter fun e => isListed selection e.1).map (·.1)).Nodup :=
    (below_nodup h root).sublist (List.filter_sublist.map _)
  rw [List.Nodup, List.pairwise_map] at hplaces ⊢
  have hnamed : ∀ e ∈ (fs.below root).filter fun e => isListed selection e.1,
      e.1 ≠ [] ∧ ∀ part ∈ e.1, '/' ∉ part.toList := by
    rintro ⟨rest, content⟩ he
    obtain ⟨hne, hmem⟩ := mem_below.1 (List.mem_of_mem_filter he)
    exact ⟨hne, fun part hpart => h.named _ hmem part (List.mem_append_right root hpart)⟩
  refine hplaces.imp_of_mem fun {e e'} he he' hne hsame => hne ?_
  exact relative_inj (hnamed e he).1 (hnamed e' he').1 (hnamed e he).2 (hnamed e' he').2 hsame

/-- **Without pruning a listing has every file below its folder**, and nothing else. -/
theorem mem_paths (fs : Files) (root : Place) (path : String) :
    path ∈ fs.paths root none ↔
      ∃ rest content, rest ≠ [] ∧ (root ++ rest, .file content) ∈ fs.items ∧ path = relative rest := by
  have hall : ((fs.below root).filter fun e => isListed none e.1) = fs.below root := List.filter_eq_self.2 fun _ _ => rfl
  have hperm := (fs.listed_perm root none).map (·.1)
  rw [hall, List.map_map] at hperm
  rw [paths, hperm.mem_iff, List.mem_map]
  constructor
  · rintro ⟨⟨rest, content⟩, hmem, rfl⟩
    obtain ⟨hne, hitem⟩ := mem_below.1 hmem
    exact ⟨rest, content, hne, hitem, rfl⟩
  · rintro ⟨rest, content, hne, hitem, rfl⟩
    exact ⟨(rest, content), mem_below.2 ⟨hne, hitem⟩, rfl⟩

/-! ## Pruning -/

/-- **A file in a pruned folder is not accepted by itself.** -/
theorem accepts_of_pruned {p : Place} (h : isPruned s p = true) : s.accepts (relative p) = false := by
  rw [isPruned, List.any_eq_true] at h
  obtain ⟨folder, hfolder, hprunes⟩ := h
  obtain ⟨k, hk, rfl⟩ := List.mem_map.1 hfolder
  have hbounds : 0 < k ∧ k < p.length := by
    obtain ⟨i, hi, rfl⟩ := List.mem_drop_iff_getElem.1 hk
    simp at hi ⊢
    omega
  have hx : p.take k ≠ [] := List.ne_nil_of_length_pos (by rw [List.length_take]; omega)
  have hy : p.drop k ≠ [] := List.ne_nil_of_length_pos (by rw [List.length_drop]; omega)
  have hsplit : relative p = relative (p.take k) ++ "/" ++ relative (p.drop k) := by
    rw [← relative_append hx hy, List.take_append_drop]
  rw [hsplit]
  exact Selection.prunes_below hprunes (relative (p.drop k))

/-- **Pruning leaves the accepted part of a listing as it is.** -/
theorem listed_accepted (h : fs.IsTree) (root : Place) (s : Selection) :
    (fs.listed root (some s)).filter (fun e => s.accepts e.1) =
      (fs.listed root none).filter fun e => s.accepts e.1 := by
  have hsame : (((fs.below root).filter fun e => isListed (some s) e.1).map fun e => (relative e.1, e.2)).filter
      (fun e => s.accepts e.1) =
      (((fs.below root).filter fun e => isListed none e.1).map fun e => (relative e.1, e.2)).filter
        fun e => s.accepts e.1 := by
    rw [List.filter_map, List.filter_map, List.filter_filter, List.filter_filter]
    refine congrArg _ (List.filter_congr fun e _ => ?_)
    cases hp : isPruned s e.1 with
    | false => simp [isListed, hp]
    | true => simp [accepts_of_pruned hp]
  have hperm : ((fs.listed root (some s)).filter fun e => s.accepts e.1).Perm
      ((fs.listed root none).filter fun e => s.accepts e.1) := by
    have hpruned := (fs.listed_perm root (some s)).filter fun e => s.accepts e.1
    rw [hsame] at hpruned
    have hwhole := (fs.listed_perm root none).filter fun e => s.accepts e.1
    exact hpruned.trans hwhole.symm
  refine List.Perm.eq_of_pairwise ?_ ((fs.listed_sorted root (some s)).filter _) ((fs.listed_sorted root none).filter _)
    hperm
  -- entries with one path are one entry, since the paths of the whole listing are distinct
  intro a b ha hb hab hba
  have hpath : a.1 = b.1 := String.le_antisymm hab hba
  have ha' : a ∈ fs.listed root none := List.mem_of_mem_filter (hperm.mem_iff.1 ha)
  have hb' : b ∈ fs.listed root none := List.mem_of_mem_filter hb
  exact List.inj_on_of_nodup_map (paths_nodup h root none) ha' hb' hpath

end Files
end CodeReview
