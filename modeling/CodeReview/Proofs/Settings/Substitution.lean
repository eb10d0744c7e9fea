import CodeReview.Proofs.Settings.Pieces
/-!
# Variables in values

To fill a value is to look up the variables that its texts refer to, from the first on, and to put their values in place of
the references (`fill_eq`): it fails at the first variable that is not set, and else leaves everything but the texts as it is
(`mapTexts_changesTexts`).  A text without references stays as it is (`fillText_of_no_reference`), and texts in a row may be
filled one by one unless the point between them is inside a reference (`fillText_append`).
-/
namespace CodeReview.Settings

/-! ## Texts of values -/

mutual

/-- The texts of a value in the order in which they are gone through, without the keys of tables. -/
def textsOf : Value → List String
  | .text s => [s]
  | .list vs => textsOfAll vs
  | .map es => textsOfEntries es
  | .keyed es => textsOfPairs es
  | _ => []

def textsOfAll : List Value → List String
  | [] => []
  | v :: vs => textsOf v ++ textsOfAll vs

def textsOfEntries : List (String × Value) → List String
  | [] => []
  | (_, v) :: es => textsOf v ++ textsOfEntries es

def textsOfPairs : List (Value × Value) → List String
  | [] => []
  | (_, v) :: es => textsOf v ++ textsOfPairs es

end

mutual

def mapTexts (f : String → String) : Value → Value
  | .text s => .text (f s)
  | .list vs => .list (mapTextsAll f vs)
  | .map es => .map (mapTextsEntries f es)
  | .keyed es => .keyed (mapTextsPairs f es)
  | v => v

def mapTextsAll (f : String → String) : List Value → List Value
  | [] => []
  | v :: vs => mapTexts f v :: mapTextsAll f vs

def mapTextsEntries (f : String → String) : List (String × Value) → List (String × Value)
  | [] => []
  | (k, v) :: es => (k, mapTexts f v) :: mapTextsEntries f es

def mapTextsPairs (f : String → String) : List (Value × Value) → List (Value × Value)
  | [] => []
  | (k, v) :: es => (k, mapTexts f v) :: mapTextsPairs f es

end

def isScalar : Value → Bool
  | .text _ | .list _ | .map _ | .keyed _ => false
  | _ => true

/-- That values are changed in their texts only, and how: the keys of a table, the order of values and the scalars stay. -/
structure ChangesTexts (f : String → String) (T : Value → Value) : Prop where
  text : ∀ s, T (.text s) = .text (f s)
  scalar : ∀ v, isScalar v = true → T v = v
  list : ∀ vs, T (.list vs) = .list (vs.map T)
  map : ∀ es, T (.map es) = .map (es.map fun e => (e.1, T e.2))
  keyed : ∀ es, T (.keyed es) = .keyed (es.map fun e => (e.1, T e.2))

theorem mapTexts_changesTexts (f : String → String) : ChangesTexts f (mapTexts f) where
  text _ := rfl
  scalar v h := by
    cases v with
    | text | list | map | keyed => cases h
    | _ => rfl
  list vs := by
    rw [mapTexts]
    induction vs with
    | nil => rfl
    | cons v vs ih => rw [mapTextsAll, List.map_cons, Value.list.inj ih]
  map es := by
    rw [mapTexts]
    induction es with
    | nil => rfl
    | cons e es ih => rw [mapTextsEntries, List.map_cons, Value.map.inj ih]
  keyed es := by
    rw [mapTexts]
    induction es with
    | nil => rfl
    | cons e es ih => rw [mapTextsPairs, List.map_cons, Value.keyed.inj ih]

/-! ## Looking variables up -/

def Piece.name? : Piece → Option String
  | .char _ => none
  | .reference name => some name

def references (s : String) : List String := (pieces s).filterMap Piece.name?

theorem mem_references {s name : String} : name ∈ references s ↔ .reference name ∈ pieces s := by
  rw [references, List.mem_filterMap]
  constructor
  · rintro ⟨p, hp, hname⟩
    cases p with
    | char c => cases hname
    | reference name' => cases hname; exact hp
  · intro h
    exact ⟨_, h, rfl⟩

section

variable (env : Environment)

def Piece.expand : Piece → String
  | .char c => String.singleton c
  | .reference name => (env name).getD ""

def expand (s : String) : String := String.join ((pieces s).map (Piece.expand env))

def firstUnset? (names : List String) : Option String := names.find? fun name => (env name).isNone

/-- What is made if some variables are set. -/
def whenSet {α : Type} (names : List String) (a : α) : Except Unset α :=
  match firstUnset? env names with
  | some name => .error ⟨name⟩
  | none => .ok a

variable {env}

theorem whenSet_eq_error {α : Type} {names : List String} {a : α} {u : Unset} :
    whenSet env names a = .error u ↔ firstUnset? env names = some u.name := by
  unfold whenSet
  cases firstUnset? env names with
  | none => exact ⟨fun h => (by cases h), fun h => (by cases h)⟩
  | some name => exact ⟨fun h => (by cases h; rfl), fun h => (by cases h; rfl)⟩

theorem whenSet_eq_ok {α : Type} {names : List String} {a b : α} :
    whenSet env names a = .ok b ↔ firstUnset? env names = none ∧ b = a := by
  unfold whenSet
  cases firstUnset? env names with
  | none => exact ⟨fun h => ⟨rfl, (Except.ok.inj h).symm⟩, fun h => congrArg Except.ok h.2.symm⟩
  | some name => exact ⟨fun h => (by cases h), fun h => (by cases h.1)⟩

theorem whenSet_map {α β : Type} (names : List String) (a : α) (f : α → β) :
    (whenSet env names a).map f = whenSet env names (f a) := by
  unfold whenSet
  cases firstUnset? env names <;> rfl

/-- **Variables are looked up one after the other.** -/
theorem whenSet_both {α β γ : Type} (names more : List String) (a : α) (b : β) (f : α → β → γ) :
    (do let x ← whenSet env names a; let y ← whenSet env more b; return f x y) =
      whenSet env (names ++ more) (f a b) := by
  have happend : firstUnset? env (names ++ more) = (firstUnset? env names).or (firstUnset? env more) := List.find?_append
  unfold whenSet
  rw [happend]
  cases firstUnset? env names with
  | some name => rfl
  | none => cases firstUnset? env more <;> rfl

theorem firstUnset?_eq_none {names : List String} : firstUnset? env names = none ↔ ∀ name ∈ names, (env name).isSome = true := by
  rw [firstUnset?, List.find?_eq_none]
  exact forall₂_congr fun name _ => by cases env name <;> simp

/-! ## Filling -/

theorem Piece.fill_eq (p : Piece) : p.fill env = whenSet env p.name?.toList (p.expand env) := by
  cases p with
  | char c => rfl
  | reference name =>
    have hfirst : firstUnset? env [name] = if (env name).isNone = true then some name else none := List.find?_singleton ..
    rw [Piece.fill, Piece.name?, Option.toList_some, whenSet, hfirst, Piece.expand]
    cases env name <;> rfl

theorem mapM_fill_eq : ∀ ps : List Piece, ps.mapM (Piece.fill env) =
    whenSet env (ps.filterMap Piece.name?) (ps.map (Piece.expand env))
  | [] => rfl
  | p :: ps => by
    have hnames : (p :: ps).filterMap Piece.name? = p.name?.toList ++ ps.filterMap Piece.name? := by
      rw [List.filterMap_cons]
      cases p.name? <;> rfl
    rw [List.mapM_cons, p.fill_eq, mapM_fill_eq ps, whenSet_both, hnames, List.map_cons]

/-- **A text is filled with the values of its variables**, if they are set. -/
theorem fillText_eq (s : String) : fillText env s = whenSet env (references s) (expand env s) := by
  have hmap : fillText env s = ((pieces s).mapM (Piece.fill env)).map String.join := by
    unfold fillText
    cases (pieces s).mapM (Piece.fill env) <;> rfl
  rw [hmap, mapM_fill_eq, whenSet_map]
  rfl

mutual

/-- **A value is filled text by text**, in order. -/
theorem fill_eq : ∀ v : Value, fill env v = whenSet env ((textsOf v).flatMap references) (mapTexts (expand env) v)
  | .text s => by rw [fill, fillText_eq, whenSet_map, textsOf, List.flatMap_singleton, mapTexts]
  | .list vs => by rw [fill, fillAll_eq vs, whenSet_map, textsOf, mapTexts]
  | .map es => by rw [fill, fillEntries_eq es, whenSet_map, textsOf, mapTexts]
  | .keyed es => by rw [fill, fillPairs_eq es, whenSet_map, textsOf, mapTexts]
  | .null | .bool _ | .int _ | .float _ | .special _ => rfl

theorem fillAll_eq : ∀ vs : List Value,
    fillAll env vs = whenSet env ((textsOfAll vs).flatMap references) (mapTextsAll (expand env) vs)
  | [] => rfl
  | v :: vs => by rw [fillAll, fill_eq v, fillAll_eq vs, whenSet_both, textsOfAll, List.flatMap_append, mapTextsAll]

theorem fillEntries_eq : ∀ es : List (String × Value),
    fillEntries env es = whenSet env ((textsOfEntries es).flatMap references) (mapTextsEntries (expand env) es)
  | [] => rfl
  | (k, v) :: es => by
    rw [fillEntries, fill_eq v, fillEntries_eq es, whenSet_both, textsOfEntries, List.flatMap_append, mapTextsEntries]

theorem fillPairs_eq : ∀ es : List (Value × Value),
    fillPairs env es = whenSet env ((textsOfPairs es).flatMap references) (mapTextsPairs (expand env) es)
  | [] => rfl
  | (k, v) :: es => by
    rw [fillPairs, fill_eq v, fillPairs_eq es, whenSet_both, textsOfPairs, List.flatMap_append, mapTextsPairs]

end

/-! ## Texts without references, and texts in a row -/

theorem expand_of_no_reference {ps : List Piece} (h : ∀ name, .reference name ∉ ps) :
    (String.join (ps.map (Piece.expand env))).toList = ps.flatMap Piece.source := by
  rw [String.toList_join, List.flatMap_map]
  refine List.flatMap_congr fun p hp => ?_
  cases p with
  | char c => exact String.toList_singleton c
  | reference name => exact absurd hp (h name)

theorem fillText_of_no_reference {s : String} (h : ¬ ∃ name, IsName name ∧ (Piece.reference name).source <:+: s.toList) :
    fillText env s = .ok s := by
  rw [← (cut_pieces s).exists_reference_iff] at h
  have hnone : ∀ name, .reference name ∉ pieces s := fun name hname => h ⟨name, hname⟩
  have hsame : expand env s = s := by
    apply String.toList_injective
    rw [expand, expand_of_no_reference hnone, (cut_pieces s).source]
  rw [fillText_eq, whenSet_eq_ok, firstUnset?_eq_none]
  exact ⟨fun name hname => absurd (mem_references.1 hname) (hnone name), hsame.symm⟩

/-- **Texts in a row are filled one by one**, unless the point between them is inside a reference. -/
theorem fillText_append {a b : String} (h : ¬ InReference (pieces (a ++ b)) a.length) :
    fillText env (a ++ b) = (do let x ← fillText env a; let y ← fillText env b; return x ++ y) := by
  have hreferences : references (a ++ b) = references a ++ references b := by
    rw [references, pieces_append h, List.filterMap_append]
    rfl
  have hexpand : expand env (a ++ b) = expand env a ++ expand env b := by
    rw [expand, pieces_append h, List.map_append, String.join_append]
    rfl
  rw [fillText_eq, fillText_eq, fillText_eq, whenSet_both, hreferences, hexpand]

end

/-- **Variables are filled in by a single pass from the left.**  A value with a reference to a variable that is not set is
refused for the first such variable in the order of its texts.  Any other value keeps its shape, and each of its texts becomes
what its pieces become: a character stays, and a reference becomes the value of its variable as that is.  The pieces are those
into which the text is cut from the left.

A text that has no reference in it stays as it is, and two texts in a row are filled one by one, unless the point between them
is inside a reference. -/
theorem fill_single_pass (env : Environment) :
    (∀ s ps, Cut s.toList ps ↔ ps = pieces s) ∧
    (∀ v u, fill env v = .error u ↔
      ((textsOf v).flatMap references).find? (fun name => (env name).isNone) = some u.name) ∧
    (∀ v, (∃ u, fill env v = .error u) ↔ ∃ s ∈ textsOf v, ∃ name, .reference name ∈ pieces s ∧ env name = none) ∧
    (∀ v w, fill env v = .ok w ↔
      (∀ s ∈ textsOf v, ∀ name, .reference name ∈ pieces s → (env name).isSome = true) ∧ w = mapTexts (expand env) v) ∧
    ChangesTexts (expand env) (mapTexts (expand env)) ∧
    (∀ s, (¬ ∃ name, IsName name ∧ (Piece.reference name).source <:+: s.toList) → fillText env s = .ok s) ∧
    ∀ a b, ¬ InReference (pieces (a ++ b)) a.length →
      fillText env (a ++ b) = (do let x ← fillText env a; let y ← fillText env b; return x ++ y) := by
  have hset : ∀ v, firstUnset? env ((textsOf v).flatMap references) = none ↔
      ∀ s ∈ textsOf v, ∀ name, .reference name ∈ pieces s → (env name).isSome = true := by
    intro v
    rw [firstUnset?_eq_none]
    simp only [List.mem_flatMap, mem_references]
    exact ⟨fun h s hs name hname => h name ⟨s, hs, hname⟩, fun h name ⟨s, hs, hname⟩ => h s hs name hname⟩
  refine ⟨cut_iff, fun v u => ?_, fun v => ?_, fun v w => ?_, mapTexts_changesTexts _, fun s => fillText_of_no_reference,
    fun a b => fillText_append⟩
  · rw [fill_eq, whenSet_eq_error]
    rfl
  · rw [fill_eq]
    cases hfirst : firstUnset? env ((textsOf v).flatMap references) with
    | none =>
      refine iff_of_false (fun ⟨u, hu⟩ => ?_) (fun ⟨s, hs, name, hname, hunset⟩ => ?_)
      · rw [whenSet_eq_error, hfirst] at hu
        cases hu
      · have hisSome := (hset v).1 hfirst s hs name hname
        rw [hunset] at hisSome
        cases hisSome
    | some name =>
      refine iff_of_true ⟨⟨name⟩, whenSet_eq_error.2 hfirst⟩ ?_
      obtain ⟨s, hs, hname⟩ := List.mem_flatMap.1 (List.mem_of_find?_eq_some hfirst)
      have hunset := List.find?_some hfirst
      exact ⟨s, hs, name, mem_references.1 hname, Option.isNone_iff_eq_none.1 hunset⟩
  · rw [fill_eq, whenSet_eq_ok, hset]

/-- Variables of which one has a bracket in its name and in its value. -/
def twoVariables : Environment
  | "a$\x7bb" => some "$\x7bx\x7d"
  | "x" => some "1"
  | _ => none

theorem pieces_nested : pieces "$\x7ba$\x7bb\x7d" = [.reference "a$\x7bb"] := by decide +kernel

theorem pieces_doubled : pieces "$$\x7bx\x7d" = [.char '$', .reference "x"] := by decide +kernel

theorem pieces_unclosed : pieces "$\x7b\x7d$\x7bx" =
    [.char '$', .char '\x7b', .char '\x7d', .char '$', .char '\x7b', .char 'x'] := by decide +kernel

/-- A value is not looked into again, a key is no text, and what is not set is named. -/
theorem filled_once :
    fill twoVariables (.map [("$\x7by\x7d", .list [.text "$\x7ba$\x7bb\x7d", .int 3, .text "$$\x7bx\x7d"])]) =
      .ok (.map [("$\x7by\x7d", .list [.text "$\x7bx\x7d", .int 3, .text "$1"])]) ∧
    fill twoVariables (.list [.text "$$\x7bx\x7d", .text "$\x7by\x7d$\x7bz\x7d"]) = .error ⟨"y"⟩ ∧
    fillText twoVariables "$\x7b\x7d$\x7bx" = .ok "$\x7b\x7d$\x7bx" ∧
    fillText twoVariables ("$" ++ "$\x7bx\x7d") = (do
      let x ← fillText twoVariables "$"
      let y ← fillText twoVariables "$\x7bx\x7d"
      return x ++ y) := by
  obtain ⟨-, herror, -, hok, hchanges, hplain, happend⟩ := fill_single_pass twoVariables
  refine ⟨(hok _ _).2 ⟨?_, ?_⟩, (herror _ _).2 (by decide +kernel), hplain _ ?_, happend _ _ ?_⟩
  · intro s hs name hname
    rcases List.mem_pair.1 hs with rfl | rfl
    · rw [pieces_nested, List.mem_singleton] at hname
      cases hname
      rfl
    · rw [pieces_doubled] at hname
      cases hname with
      | tail _ h =>
        cases List.mem_singleton.1 h
        rfl
  · have hnested : expand twoVariables "$\x7ba$\x7bb\x7d" = "$\x7bx\x7d" := by rw [expand, pieces_nested]; rfl
    have hdoubled : expand twoVariables "$$\x7bx\x7d" = "$1" := by rw [expand, pieces_doubled]; decide
    rw [hchanges.map, List.map_singleton, hchanges.list]
    simp only [List.map_cons, List.map_nil, hchanges.text, hnested, hdoubled]
    rw [hchanges.scalar (.int 3) rfl]
  · rw [← (cut_pieces _).exists_reference_iff, pieces_unclosed]
    simp
  · rintro ⟨before, name, after, heq, hbefore, -⟩
    have hjoined : pieces ("$" ++ "$\x7bx\x7d") = [.char '$', .reference "x"] := by
      rw [← pieces_doubled]
      rfl
    rw [hjoined] at heq
    cases before with
    | nil => cases heq
    | cons p before =>
      have hp : p = .char '$' := (List.cons.inj heq).1.symm
      have hone : "$".length = 1 := rfl
      rw [hp, List.flatMap_cons, List.length_append, Piece.source, List.length_singleton, hone] at hbefore
      omega

end CodeReview.Settings
