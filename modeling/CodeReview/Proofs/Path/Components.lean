import CodeReview.Proofs.Path.Pruning
/-!
# Plain patterns and components

A filter compares texts: it cuts blanks and slashes off a pattern, turns backslashes of a path into slashes, and looks for
a beginning.  On paths and plain patterns that are made of components this is a comparison of lists (`selects_iff`): a
pattern of one component selects the paths that have it, and a longer one the paths whose first components are its own.
-/
namespace CodeReview.Path

/-- That a text stands for one component of a path. -/
structure IsName (s : String) : Prop where
  ne_empty : s ≠ ""
  ne_dot : s ≠ "."
  slash : '/' ∉ s.toList
  backslash : '\\' ∉ s.toList

instance (s : String) : Decidable (IsName s) :=
  decidable_of_iff (s ≠ "" ∧ s ≠ "." ∧ '/' ∉ s.toList ∧ '\\' ∉ s.toList)
    ⟨fun ⟨hempty, hdot, hslash, hback⟩ => ⟨hempty, hdot, hslash, hback⟩,
      fun h => ⟨h.ne_empty, h.ne_dot, h.slash, h.backslash⟩⟩

def relative (ps : List String) : String := "/".intercalate ps

/-- That a text is a relative path of components, written with slashes or backslashes, and with or without a leading dot. -/
def Spells (path : String) (ps : List String) : Prop :=
  slashed path = (relative ps).toList ∨ slashed path = '.' :: '/' :: (relative ps).toList

/-- That components make a plain pattern: no wildcard in it, and no blank at either end. -/
structure IsPlain (qs : List String) : Prop where
  names : ∀ q ∈ qs, IsName q
  literal : isGlob (relative qs) = false
  first : ∀ c ∈ (relative qs).toList.head?, Text.isBlank c = false
  last : ∀ c ∈ (relative qs).toList.getLast?, Text.isBlank c = false

/-- That a pattern is a text with any number of slashes behind it, and then blanks around. -/
def Pads (pattern text : String) : Prop :=
  ∃ before slashes after, pattern.toList = before ++ (text.toList ++ List.replicate slashes '/') ++ after ∧
    (∀ c ∈ before, Text.isBlank c = true) ∧ ∀ c ∈ after, Text.isBlank c = true

/-! ## Joining and cutting -/

theorem relative_nil : relative [] = "" := rfl

theorem relative_singleton (p : String) : relative [p] = p := String.toList_inj.1 (by simp [relative])

theorem relative_cons_cons (p p' : String) (ps : List String) :
    relative (p :: p' :: ps) = p ++ "/" ++ relative (p' :: ps) := String.intercalate_cons_cons

theorem relative_append : ∀ {ps qs : List String}, ps ≠ [] → qs ≠ [] →
    relative (ps ++ qs) = relative ps ++ "/" ++ relative qs
  | [], _, h, _ => absurd rfl h
  | [p], q :: qs, _, _ => by
    rw [List.singleton_append, relative_cons_cons, relative_singleton]
  | p :: p' :: ps, qs, _, hqs => by
    have ih := relative_append (List.cons_ne_nil p' ps) hqs
    rw [List.cons_append, List.cons_append, relative_cons_cons, ← List.cons_append, ih, relative_cons_cons]
    simp only [String.append_assoc]

theorem IsName.components {p : String} (h : IsName p) : components p = [p] := by
  have hsplit : Text.splitOn '/' (p.toList ++ []) = (Text.splitOn '/' []).modifyHead (p.toList ++ ·) :=
    Text.splitOn_append_left h.slash
  rw [List.append_nil] at hsplit
  rw [Path.components, hsplit, Text.splitOn, List.modifyHead_cons, List.append_nil, List.map_singleton,
    String.ofList_toList]
  simp [h.ne_empty, h.ne_dot]

/-- **The components of a relative path are those it is made of.** -/
theorem components_relative : ∀ {ps : List String}, (∀ p ∈ ps, IsName p) → components (relative ps) = ps
  | [], _ => by decide
  | [p], h => by rw [relative_singleton, (h p List.mem_cons_self).components]
  | p :: p' :: ps, h => by
    have ih := components_relative fun q hq => h q (List.mem_cons_of_mem p hq)
    rw [relative_cons_cons, components_below, (h p List.mem_cons_self).components, ih, List.singleton_append]

/-- **A path goes on from another one as a text, behind a slash or not at all, just if it does so as a list.** -/
theorem relative_prefix_iff {qs ps : List String} (hne : qs ≠ []) (hqs : ∀ q ∈ qs, IsName q) (hps : ∀ p ∈ ps, IsName p) :
    relative ps = relative qs ∨ (relative qs ++ "/").toList <+: (relative ps).toList ↔ qs <+: ps := by
  constructor
  · rintro (heq | ⟨rest, hrest⟩)
    · have hcomponents := congrArg components heq
      rw [components_relative hps, components_relative hqs] at hcomponents
      exact hcomponents ▸ List.prefix_refl ps
    · have hbelow : relative ps = relative qs ++ "/" ++ String.ofList rest :=
        String.toList_inj.1 (by rw [String.toList_append, String.toList_ofList, hrest])
      have hcomponents := congrArg components hbelow
      rw [components_relative hps, components_below, components_relative hqs] at hcomponents
      exact ⟨_, hcomponents.symm⟩
  · rintro ⟨rs, rfl⟩
    cases rs with
    | nil => exact .inl (by rw [List.append_nil])
    | cons r rs =>
      have hchars := congrArg String.toList (relative_append hne (List.cons_ne_nil r rs))
      rw [String.toList_append] at hchars
      exact .inr ⟨_, hchars.symm⟩

theorem slash_mem_relative_iff {qs : List String} (hqs : ∀ q ∈ qs, IsName q) :
    '/' ∈ (relative qs).toList ↔ 2 ≤ qs.length := by
  cases qs with
  | nil => simp [relative_nil]
  | cons q qs =>
    cases qs with
    | nil => simp [relative_singleton, (hqs q List.mem_cons_self).slash]
    | cons q' qs => simp [relative_cons_cons]

theorem takeWhile_relative {p : String} (hp : IsName p) (ps : List String) :
    (relative (p :: ps)).toList.takeWhile (· != '/') = p.toList := by
  have hname : ∀ c ∈ p.toList, (c != '/') = true := fun c hc => bne_iff_ne.2 fun heq => hp.slash (heq ▸ hc)
  cases ps with
  | nil => rw [relative_singleton, List.takeWhile_eq_self_iff.2 hname]
  | cons p' ps =>
    rw [relative_cons_cons, String.toList_append, String.toList_append, List.append_assoc,
      List.takeWhile_append_of_pos hname]
    exact List.append_nil _

/-! ## Paths as they are compared -/

theorem relative_start {ps : List String} (hps : ∀ p ∈ ps, IsName p) (cs : List Char) :
    (relative ps).toList ≠ '/' :: cs ∧ (relative ps).toList ≠ '.' :: '/' :: cs := by
  cases ps with
  | nil => simp [relative_nil]
  | cons p ps =>
    have hp : IsName p := hps p List.mem_cons_self
    have hfirst := takeWhile_relative hp ps
    constructor <;> intro h <;> rw [h] at hfirst
    · exact hp.ne_empty (String.toList_inj.1 hfirst.symm)
    · exact hp.ne_dot (String.toList_inj.1 hfirst.symm)

theorem Spells.forward_eq {path : String} {ps : List String} (h : Spells path ps) (hps : ∀ p ∈ ps, IsName p) :
    forward path = relative ps := by
  rcases h with h | h
  · rw [forward_of_not_dot fun cs hcs => (relative_start hps cs).2 (h ▸ hcs), h, String.ofList_toList]
  · rw [forward_of_dot h, String.ofList_toList]

theorem allParts_relative {ps : List String} (hps : ∀ p ∈ ps, IsName p) : (ofString (relative ps)).allParts = ps := by
  have hroot : rootOf (relative ps) = "" := by
    have hnone : (relative ps).toList.takeWhile (· == '/') = [] := by
      cases hchars : (relative ps).toList with
      | nil => rfl
      | cons c cs =>
        have hc : ¬ (c == '/') = true := fun hc => (relative_start hps cs).1 (beq_iff_eq.1 hc ▸ hchars)
        rw [List.takeWhile_cons, if_neg hc]
    rw [rootOf, hnone]
    rfl
  rw [ofString, hroot, components_relative hps]
  rfl

/-! ## Patterns as they are compared -/

theorem dropEndWhile_of_last {p : Char → Bool} {cs : List Char} (h : ∀ c ∈ cs.getLast?, p c = false) :
    Text.dropEndWhile p cs = cs := by
  rcases List.eq_nil_or_concat cs with rfl | ⟨front, c, rfl⟩
  · rfl
  · have hc : ¬ p c = true := Bool.eq_false_iff.1 (h c (by simp))
    simp [Text.dropEndWhile, hc]

theorem dropEndWhile_append {p : Char → Bool} {cs ds : List Char} (h : ∀ d ∈ ds, p d = true) :
    Text.dropEndWhile p (cs ++ ds) = Text.dropEndWhile p cs := by
  rw [Text.dropEndWhile, List.reverse_append, List.dropWhile_append_of_pos fun d hd => h d (List.mem_reverse.1 hd)]
  rfl

/-- Trimming takes off the blanks around what has none at its ends. -/
theorem trim_around {before cs after : List Char} (hbefore : ∀ c ∈ before, Text.isBlank c = true)
    (hafter : ∀ c ∈ after, Text.isBlank c = true) (hfirst : ∀ c ∈ cs.head?, Text.isBlank c = false)
    (hlast : ∀ c ∈ cs.getLast?, Text.isBlank c = false) : Text.trim (before ++ cs ++ after) = cs := by
  rw [Text.trim, Text.trimStart, List.append_assoc, List.dropWhile_append_of_pos hbefore]
  cases cs with
  | nil => rw [List.nil_append, List.dropWhile_eq_nil_iff.2 hafter, dropEndWhile_of_last (by simp)]
  | cons c cs =>
    have hc : ¬ Text.isBlank c = true := Bool.eq_false_iff.1 (hfirst c rfl)
    rw [List.cons_append, List.dropWhile_cons_of_neg hc, ← List.cons_append, dropEndWhile_append hafter,
      dropEndWhile_of_last hlast]

theorem relative_last : ∀ {qs : List String}, (∀ q ∈ qs, IsName q) → ∀ c ∈ (relative qs).toList.getLast?, c ≠ '/'
  | [], _, c, hc => by
    cases hc
  | [q], h, c, hc => by
    rw [relative_singleton] at hc
    exact fun heq => (h q List.mem_cons_self).slash (heq ▸ List.mem_of_getLast? hc)
  | q :: q' :: qs, h, c, hc => by
    have hrest : ∀ p ∈ q' :: qs, IsName p := fun p hp => h p (List.mem_cons_of_mem q hp)
    rw [relative_cons_cons, String.toList_append, List.getLast?_append, Option.mem_def, Option.or_eq_some_iff] at hc
    rcases hc with hc | ⟨hnone, -⟩
    · exact relative_last hrest c hc
    · have hempty : components (relative (q' :: qs)) = components "" :=
        congrArg components (String.toList_inj.1 (List.getLast?_eq_none_iff.1 hnone))
      rw [components_relative hrest] at hempty
      cases hempty

/-- **A pattern is compared without what it is padded with.** -/
theorem Pads.cleanPattern_eq {pattern : String} {qs : List String} (h : Pads pattern (relative qs)) (hqs : IsPlain qs) :
    cleanPattern pattern = relative qs := by
  obtain ⟨before, slashes, after, hchars, hbefore, hafter⟩ := h
  have hslash : ∀ c ∈ List.replicate slashes '/', c = '/' := fun c hc => List.eq_of_mem_replicate hc
  have hslashBlank : ∀ c ∈ List.replicate slashes '/', Text.isBlank c = false := fun c hc => by
    rw [hslash c hc]
    decide
  have hfirst : ∀ c ∈ ((relative qs).toList ++ List.replicate slashes '/').head?, Text.isBlank c = false := by
    intro c hc
    rw [List.head?_append, Option.mem_def, Option.or_eq_some_iff] at hc
    rcases hc with hc | ⟨-, hc⟩
    · exact hqs.first c hc
    · exact hslashBlank c (List.mem_of_head? hc)
  have hlast : ∀ c ∈ ((relative qs).toList ++ List.replicate slashes '/').getLast?, Text.isBlank c = false := by
    intro c hc
    rw [List.getLast?_append, Option.mem_def, Option.or_eq_some_iff] at hc
    rcases hc with hc | ⟨-, hc⟩
    · exact hslashBlank c (List.mem_of_getLast? hc)
    · exact hqs.last c hc
  rw [cleanPattern, hchars, trim_around hbefore hafter hfirst hlast,
    dropEndWhile_append fun c hc => beq_iff_eq.2 (hslash c hc),
    dropEndWhile_of_last fun c hc => beq_eq_false_iff_ne.2 (relative_last hqs.names c hc), String.ofList_toList]

theorem isGlob_eq_false_iff {pattern : String} :
    isGlob pattern = false ↔ ∀ c ∈ pattern.toList, c ≠ '*' ∧ c ≠ '?' ∧ c ≠ '[' := by
  have hwild : ∀ c, ¬ "*?[".contains c = true ↔ c ≠ '*' ∧ c ≠ '?' ∧ c ≠ '[' := by
    intro c
    rw [String.contains_char_eq, decide_eq_true_eq]
    simp
  rw [isGlob, List.any_eq_false]
  exact forall₂_congr fun c _ => hwild c

theorem Pads.literal {pattern text : String} (h : Pads pattern text) (htext : isGlob text = false) :
    isGlob pattern = false := by
  obtain ⟨before, slashes, after, hchars, hbefore, hafter⟩ := h
  have hblank : ∀ c, Text.isBlank c = true → c ≠ '*' ∧ c ≠ '?' ∧ c ≠ '[' := by
    intro c hc
    refine ⟨?_, ?_, ?_⟩ <;> rintro rfl <;> revert hc <;> decide
  rw [isGlob_eq_false_iff] at htext ⊢
  intro c hc
  rw [hchars, List.mem_append, List.mem_append, List.mem_append] at hc
  rcases hc with (hc | hc | hc) | hc
  · exact hblank c (hbefore c hc)
  · exact htext c hc
  · rw [List.eq_of_mem_replicate hc]
    decide
  · exact hblank c (hafter c hc)

/-! ## The comparison -/

theorem isPlain_nil : IsPlain [] where
  names := nofun
  literal := isGlob_eq_false_iff.2 nofun
  first := nofun
  last := nofun

theorem not_selects_of_blank {pattern : String} (h : Pads pattern "") (path : String) : selects pattern path = false := by
  have hclean : cleanPattern pattern = relative [] := Pads.cleanPattern_eq h isPlain_nil
  rw [selects_plain (h.literal isPlain_nil.literal), hclean]
  rfl

/-- **A plain pattern of one component selects the paths that have it, and a longer one those that begin with it.** -/
theorem selects_iff {qs ps : List String} {pattern path : String} (hqs : IsPlain qs) (hps : ∀ p ∈ ps, IsName p)
    (hpattern : Pads pattern (relative qs)) (hpath : Spells path ps) :
    selects pattern path = true ↔ (∃ q ∈ ps, qs = [q]) ∨ (2 ≤ qs.length ∧ qs <+: ps) := by
  by_cases hempty : qs = []
  · subst hempty
    simp [not_selects_of_blank hpattern]
  have hne : (relative qs != "") = true := by
    rw [bne_iff_ne]
    intro heq
    have hcomponents := congrArg components heq
    rw [components_relative hqs.names] at hcomponents
    exact hempty hcomponents
  have hslash : (relative qs).contains '/' = true ↔ 2 ≤ qs.length := by
    rw [String.contains_char_eq, decide_eq_true_eq, slash_mem_relative_iff hqs.names]
  rw [selects_plain (hpattern.literal hqs.literal), hpattern.cleanPattern_eq hqs, hpath.forward_eq hps, hne, Bool.true_and]
  -- a pattern with a slash in it is compared from the start of the path, one without with each component
  by_cases hlength : 2 ≤ qs.length
  · rw [if_pos (hslash.2 hlength), Bool.or_eq_true, beq_iff_eq, List.isPrefixOf_iff_prefix,
      relative_prefix_iff hempty hqs.names hps]
    constructor
    · exact fun h => .inr ⟨hlength, h⟩
    · rintro (⟨q, -, rfl⟩ | ⟨-, h⟩)
      · exact absurd hlength (Nat.not_succ_le_self 1)
      · exact h
  · obtain ⟨q, rfl⟩ : ∃ q, qs = [q] := List.length_eq_one_iff.1 (by have := List.length_pos_iff.2 hempty; omega)
    rw [if_neg (hlength ∘ hslash.1), relative_singleton, allParts_relative hps, List.contains_iff_mem]
    simp

/-- **Plain patterns match by whole components.**  It does not matter how the path is written; what selects a path selects
all that lies below it; and blanks and slashes alone select nothing. -/
theorem plain_patterns_match_components (qs ps : List String) (pattern path : String) (hqs : IsPlain qs)
    (hps : ∀ p ∈ ps, IsName p) (hpattern : Pads pattern (relative qs)) (hpath : Spells path ps) :
    (selects pattern path = true ↔ (∃ q ∈ ps, qs = [q]) ∨ (2 ≤ qs.length ∧ qs <+: ps)) ∧
    (∀ path', Spells path' ps → selects pattern path' = selects pattern path) ∧
    (∀ rs below, (∀ r ∈ rs, IsName r) → Spells below (ps ++ rs) → selects pattern path = true →
      selects pattern below = true) ∧
    ∀ blank path', Pads blank "" → selects blank path' = false := by
  refine ⟨selects_iff hqs hps hpattern hpath, fun path' hpath' => ?_, fun rs below hrs hbelow hselects => ?_,
    fun blank path' hblank => not_selects_of_blank hblank path'⟩
  · rw [Bool.eq_iff_iff, selects_iff hqs hps hpattern hpath', selects_iff hqs hps hpattern hpath]
  · have hnames : ∀ r ∈ ps ++ rs, IsName r := fun r hr => (List.mem_append.1 hr).elim (hps r) (hrs r)
    rw [selects_iff hqs hps hpattern hpath] at hselects
    rw [selects_iff hqs hnames hpattern hbelow]
    rcases hselects with ⟨q, hq, rfl⟩ | ⟨hlength, hprefix⟩
    · exact .inl ⟨q, List.mem_append_left rs hq, rfl⟩
    · exact .inr ⟨hlength, hprefix.trans (List.prefix_append ps rs)⟩

/-- A pattern of two components selects what lies below it, and neither a longer name nor a folder further down. -/
theorem generated_folder_only :
    selects "\tsrc/generated// " ".\\src/generated\\api.ts" = true ∧
    selects "\tsrc/generated// " "src/generated_api.ts" = false ∧
    selects "\tsrc/generated// " "lib/src/generated" = false := by
  have hchars : (relative ["src", "generated"]).toList = ['s', 'r', 'c', '/', 'g', 'e', 'n', 'e', 'r', 'a', 't', 'e', 'd'] := by
    decide
  have hpattern : Pads "\tsrc/generated// " (relative ["src", "generated"]) :=
    ⟨['\t'], 2, [' '], by decide, List.forall_mem_singleton.2 (by decide), List.forall_mem_singleton.2 (by decide)⟩
  have hplain : IsPlain ["src", "generated"] := by
    refine ⟨by decide, isGlob_eq_false_iff.2 (by simp [hchars]), ?_, ?_⟩
    · rw [hchars]
      rintro c ⟨⟩
      decide
    · rw [hchars]
      rintro c ⟨⟩
      decide
  have hmatches := fun ps path hps hpath =>
    (plain_patterns_match_components ["src", "generated"] ps "\tsrc/generated// " path hplain hps hpattern hpath).1
  refine ⟨?_, ?_, ?_⟩
  · exact (hmatches ["src", "generated", "api.ts"] _ (by decide) (.inr (by decide))).2 (by decide)
  · rw [← Bool.not_eq_true, hmatches ["src", "generated_api.ts"] _ (by decide) (.inl (by decide))]
    decide
  · rw [← Bool.not_eq_true, hmatches ["lib", "src", "generated"] _ (by decide) (.inl (by decide))]
    decide

end CodeReview.Path
