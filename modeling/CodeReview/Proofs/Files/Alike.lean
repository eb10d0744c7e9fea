import CodeReview.Files.Basic
/-!
# Trees of the same shape

What can be written into a file tree is up to what stands where, and not to what the files hold: trees of one shape
(`Alike`) let the same writes through, and have one shape after them.
-/
namespace CodeReview

open Text (Bytes)

def FileItem.blank : FileItem → FileItem
  | .folder => .folder
  | .file _ => .file []

namespace Files

/-- That two trees have the same folders and files, whatever the files hold. -/
def Alike (fs fs' : Files) : Prop := ∀ p, (fs.find? p).map FileItem.blank = (fs'.find? p).map FileItem.blank

/-! ## What stands where after something was put -/

theorem lookup_replace (p q : Place) (i : FileItem) : ∀ l : List (Place × FileItem),
    (l.map fun e => if e.1 == p then (p, i) else e).lookup q =
      if q = p then (l.lookup p).map (fun _ => i) else l.lookup q
  | [] => by
    rw [List.map_nil, List.lookup_nil, List.lookup_nil, Option.map_none, ite_self]
  | (k, j) :: l => by
    have ih := lookup_replace p q i l
    rw [List.map_cons]
    by_cases hk : k = p
    · subst hk
      rw [if_pos (beq_self_eq_true k), List.lookup_cons, List.lookup_cons_self, ih]
      by_cases hq : q = k
      · subst hq
        rw [beq_self_eq_true]
        exact (if_pos rfl).symm
      · rw [if_neg hq, if_neg hq, List.lookup_cons, beq_eq_false_iff_ne.2 hq]
    · have hpk : (p == k) = false := beq_eq_false_iff_ne.2 (Ne.symm hk)
      rw [if_neg (by simpa using hk), List.lookup_cons, List.lookup_cons, List.lookup_cons, hpk, ih]
      by_cases hq : q = p
      · subst hq
        rw [if_pos rfl, if_pos rfl, hpk]
      · rw [if_neg hq, if_neg hq]

theorem find?_put (fs : Files) (p q : Place) (i : FileItem) (hq : q ≠ []) :
    (fs.put p i).find? q = if q = p then some i else fs.find? q := by
  have hempty : ¬ q.isEmpty = true := fun h => hq (List.isEmpty_iff.1 h)
  rw [find?, find?, if_neg hempty, if_neg hempty, put]
  cases hp : fs.items.lookup p with
  | some j =>
    rw [Option.isSome_some, if_pos rfl, lookup_replace, hp]
    rfl
  | none =>
    rw [Option.isSome_none, if_neg Bool.false_ne_true, List.lookup_append]
    by_cases h : q = p
    · subst h
      rw [hp, if_pos rfl, List.lookup_cons_self]
      rfl
    · rw [if_neg h, List.lookup_cons, beq_eq_false_iff_ne.2 h, List.lookup_nil, Option.or_none]

namespace Alike

variable {fs fs' : Files}

theorem refl (fs : Files) : fs.Alike fs := fun _ => rfl

theorem put (h : fs.Alike fs') (p : Place) {i i' : FileItem} (hi : i.blank = i'.blank) :
    (fs.put p i).Alike (fs'.put p i') := by
  intro q
  by_cases hq : q = []
  · subst hq
    rfl
  · rw [find?_put fs p q i hq, find?_put fs' p q i' hq]
    by_cases hqp : q = p
    · rw [if_pos hqp, if_pos hqp, Option.map_some, Option.map_some, hi]
    · rw [if_neg hqp, if_neg hqp]
      exact h q

theorem folder_iff (h : fs.Alike fs') (p : Place) : fs.find? p = some .folder ↔ fs'.find? p = some .folder := by
  have hblank : ∀ o : Option FileItem, o = some .folder ↔ o.map FileItem.blank = some .folder := by
    rintro (_ | _ | content) <;> simp [FileItem.blank]
  rw [hblank (fs.find? p), h p, ← hblank]

theorem isFolder (h : fs.Alike fs') (p : Place) : fs.isFolder p = fs'.isFolder p := by
  rw [Bool.eq_iff_iff, Files.isFolder, Files.isFolder, beq_iff_eq, beq_iff_eq]
  exact h.folder_iff p

theorem isSome (h : fs.Alike fs') (p : Place) : (fs.find? p).isSome = (fs'.find? p).isSome := by
  have hp := congrArg Option.isSome (h p)
  rwa [Option.isSome_map, Option.isSome_map] at hp

/-- **Paths lead to the same places.** -/
theorem walk (h : fs.Alike fs') : ∀ (parts : List String) (at_ : Place), fs.walk at_ parts = fs'.walk at_ parts
  | [], _ => rfl
  | part :: rest, at_ => by
    rw [Files.walk, Files.walk, h.isFolder, h.walk rest]
    dsimp only
    rw [h.isSome, h.walk rest]

theorem target (h : fs.Alike fs') (here : Place) (path : Path) : fs.target here path = fs'.target here path := by
  have hfollow : fs.follow here path.parent = fs'.follow here path.parent := h.walk _ _
  have hfolder : fs.isFolder = fs'.isFolder := funext h.isFolder
  rw [Files.target, Files.target, hfollow, hfolder]

/-! ## Writing -/

theorem makeFoldersFrom {out : Files} : ∀ (parts : List String) (at_ : Place) {fs fs' : Files}, fs.Alike fs' →
    fs.makeFoldersFrom at_ parts = .ok out → ∃ out', fs'.makeFoldersFrom at_ parts = .ok out' ∧ out.Alike out'
  | [], _, fs, fs', h, ho => by
    cases ho
    exact ⟨fs', rfl, h⟩
  | part :: rest, at_, fs, fs', h, ho => by
    rw [Files.makeFoldersFrom] at ho ⊢
    by_cases hup : (part == "..") = true
    · rw [if_pos hup] at ho ⊢
      exact makeFoldersFrom rest _ h ho
    · rw [if_neg hup] at ho ⊢
      dsimp only at ho ⊢
      have hsome := h.isSome (at_ ++ [part])
      cases hi : fs.find? (at_ ++ [part]) with
      | none =>
        rw [hi] at ho hsome
        have hnone : fs'.find? (at_ ++ [part]) = none := Option.isNone_iff_eq_none.1 (Option.isSome_eq_false_iff.1 hsome.symm)
        rw [hnone]
        exact makeFoldersFrom rest _ (h.put _ rfl) ho
      | some i =>
        rw [hi] at ho
        cases i with
        | file content => cases ho
        | folder =>
          rw [(h.folder_iff _).1 hi]
          exact makeFoldersFrom rest _ h ho

theorem makeFolders {out : Files} (h : fs.Alike fs') (here : Place) (path : Path)
    (ho : fs.makeFolders here path = .ok out) : ∃ out', fs'.makeFolders here path = .ok out' ∧ out.Alike out' :=
  makeFoldersFrom _ _ h ho

/-- **What can be written is not up to what it is.** -/
theorem write {out : Files} (h : fs.Alike fs') (here : Place) (path : Path) {content : Bytes} (content' : Bytes)
    (ho : fs.write here path content = .ok out) : ∃ out', fs'.write here path content' = .ok out' ∧ out.Alike out' := by
  rw [Files.write, h.target] at ho
  rw [Files.write]
  cases ht : fs'.target here path with
  | error e => rw [ht] at ho; cases ho
  | ok p =>
    rw [ht] at ho
    simp only [bind, Except.bind, h.isFolder] at ho ⊢
    by_cases hp : fs'.isFolder p = true
    · rw [if_pos hp] at ho
      cases ho
    · rw [if_neg hp] at ho ⊢
      cases ho
      exact ⟨_, rfl, h.put p rfl⟩

theorem append {out : Files} (h : fs.Alike fs') (here : Place) (path : Path) {content : Bytes} (content' : Bytes)
    (ho : fs.append here path content = .ok out) : ∃ out', fs'.append here path content' = .ok out' ∧ out.Alike out' := by
  rw [Files.append, h.target] at ho
  rw [Files.append]
  cases ht : fs'.target here path with
  | error e => rw [ht] at ho; cases ho
  | ok p =>
    rw [ht] at ho
    have hp := h p
    simp only [bind, Except.bind] at ho ⊢
    cases hi : fs.find? p with
    | none =>
      rw [hi] at ho hp
      rw [Option.map_eq_none_iff.1 hp.symm]
      cases ho
      exact ⟨_, rfl, h.put p rfl⟩
    | some i =>
      rw [hi] at ho hp
      obtain ⟨i', hi', hblank⟩ := Option.map_eq_some_iff.1 hp.symm
      rw [hi']
      cases i with
      | folder => cases ho
      | file old =>
        cases i' with
        | folder => cases hblank
        | file old' =>
          cases ho
          exact ⟨_, rfl, h.put p rfl⟩

end Alike
end Files
end CodeReview
