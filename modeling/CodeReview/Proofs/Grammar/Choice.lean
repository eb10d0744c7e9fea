import CodeReview.Proofs.Concrete.Order
import CodeReview.Proofs.Grammar.History
import CodeReview.Proofs.Grammar.Stack
import Mathlib.Data.List.TakeWhile
/-!
# The choice of a tree

A grammar settles which tree is used if it makes none, or one without an error.  The tree is that of the first grammar
that settles it, or of the first of all if none does (`chooseTree_outcome`).  Without a time budget a tolerant parse makes
the canonical tree of it, and a strict one too unless it has errors (`parseAfter_outcome`), whatever the parser has been
asked before.

Of the two modes `strict_against_tolerant` says what they come to where all grammars make trees.
-/
namespace CodeReview.Grammar

def Host.settles (host : Host) (text : String) (l : Language) (g : String) : Bool :=
  match host.treeBy text l g with
  | .ok tree => !tree.label.hasError
  | .error _ => true

/-- The grammar that decides on the tree of a text. -/
def Host.decisive (host : Host) (text : String) (t : Table) : String :=
  (t.grammars.find? (host.settles text t.language)).getD t.grammar

/-- A parse without a time budget by a parser that has answered other calls before. -/
def parseAfter (host : Host) (tolerant : Bool) (before : List Request) (text language : String) : Parsed Syntax.Node :=
  (parse host tolerant (history host tolerant before).session text language none).1

variable {host : Host} {text : String} {l : Language}

theorem Host.settles_of_error {g : String} {e : ParseError} (h : host.treeBy text l g = .error e) :
    host.settles text l g = true := by rw [settles, h]

theorem Host.settles_of_ok {g : String} {tree : Concrete.Node} (h : host.treeBy text l g = .ok tree) :
    host.settles text l g = !tree.label.hasError := by rw [settles, h]

/-! ## The tree that is used -/

theorem firstClean_outcome (first : Concrete.Node) : ∀ (gs : List String) (s : Session), s.Recalls host →
    (firstClean host text l first gs s).outcome =
      match gs.find? (host.settles text l) with
      | some g => host.treeBy text l g
      | none => .ok first
  | [], _, _ => rfl
  | g :: gs, s, hs => by
    obtain ⟨hout, hasks⟩ := treeOf_steady host text l g s hs
    rw [firstClean, Parsed.andThen, hout, List.find?_cons]
    cases hg : host.treeBy text l g with
    | error e => rw [Host.settles_of_error hg]; exact hg.symm
    | ok tree =>
      rw [Host.settles_of_ok hg]
      cases he : tree.label.hasError with
      | true =>
        have ih := firstClean_outcome first gs _ hasks.recalls
        simpa [he] using ih
      | false => simpa [he] using hg.symm

/-- **The tree of the decisive grammar is used.** -/
theorem chooseTree_outcome (t : Table) {s : Session} (hs : s.Recalls host) :
    (chooseTree host text t s).outcome = host.treeBy text t.language (host.decisive text t) := by
  obtain ⟨hout, hasks⟩ := treeOf_steady host text t.language t.grammar s hs
  rw [chooseTree, Parsed.andThen, hout, Host.decisive, Table.grammars, List.find?_cons]
  cases hg : host.treeBy text t.language t.grammar with
  | error e => rw [Host.settles_of_error hg]; exact hg.symm
  | ok tree =>
    rw [Host.settles_of_ok hg]
    cases he : tree.label.hasError with
    | true =>
      have hrest := @firstClean_outcome host text t.language tree t.fallbacks _ hasks.recalls
      simp only [he, if_true, Bool.not_true]
      rw [hrest]
      cases t.fallbacks.find? (host.settles text t.language) with
      | none => exact hg.symm
      | some g => rfl
    | false => simpa [he] using hg.symm

theorem tableOf_language (l : Language) : (tableOf l).language = l := by cases l <;> rfl

theorem ofName?_name (l : Language) : Language.ofName? l.name = some l := by cases l <;> rfl

/-- **What a parse comes to**, whatever has been asked before: the canonical tree of the decisive grammar's tree, unless that
grammar makes no tree, or one with an error of which the parser is not tolerant. -/
theorem parseAfter_outcome (host : Host) (tolerant : Bool) (before : List Request) (text : String) (l : Language) :
    (parseAfter host tolerant before text l.name).outcome =
      (host.treeBy text l (host.decisive text (tableOf l))).bind fun tree =>
        if tree.label.hasError && !tolerant then .error (.malformed l (Concrete.firstFault tree))
        else .ok (normal (tableOf l) (Source.ofText text) tree) := by
  have hchosen := @chooseTree_outcome host text (tableOf l) _ (history_kept host tolerant before).recalls
  rw [tableOf_language] at hchosen
  rw [parseAfter, parse, ofName?_name]
  dsimp only
  rw [hchosen]
  cases host.treeBy text l (host.decisive text (tableOf l)) with
  | error e => rfl
  | ok tree =>
    dsimp only [canonical, Except.bind]
    rw [tableOf_language]
    cases tree.label.hasError && !tolerant with
    | true => rfl
    | false =>
      rw [if_neg Bool.false_ne_true, if_neg Bool.false_ne_true, normalize_none]
      rfl

/-! ## Grammars that make trees -/

/-- That some grammars can be loaded and make trees of a text. -/
structure Host.Makes (host : Host) (text : String) (trees : String → Concrete.Node) (gs : List String) : Prop where
  pack : host.pack.isInstalled = true
  loads : ∀ g ∈ gs, host.broken g = none
  parses : ∀ g ∈ gs, host.tree g text = .ok (trees g)

/-- The first grammar whose tree has no error, or the first of all. -/
def Table.chosen (t : Table) (trees : String → Concrete.Node) : String :=
  (t.grammars.find? fun g => !(trees g).label.hasError).getD t.grammar

/-- The grammars up to the first whose tree has no error. -/
def upToClean (trees : String → Concrete.Node) (gs : List String) : List String :=
  gs.takeWhile (fun g => (trees g).label.hasError) ++ (gs.find? fun g => !(trees g).label.hasError).toList

variable {trees : String → Concrete.Node}

theorem upToClean_cons_of_error {g : String} (h : (trees g).label.hasError = true) (gs : List String) :
    upToClean trees (g :: gs) = g :: upToClean trees gs := by
  simp [upToClean, h]

theorem upToClean_cons_of_clean {g : String} (h : (trees g).label.hasError = false) (gs : List String) :
    upToClean trees (g :: gs) = [g] := by
  simp [upToClean, h]

theorem upToClean_subset (gs : List String) : ∀ g ∈ upToClean trees gs, g ∈ gs := by
  intro g hg
  rcases List.mem_append.1 hg with hg | hg
  · exact (List.takeWhile_sublist _).subset hg
  · exact List.mem_of_find?_eq_some (Option.mem_toList.1 hg)

theorem Host.Makes.mono {gs gs' : List String} (h : host.Makes text trees gs) (hsub : ∀ g ∈ gs', g ∈ gs) :
    host.Makes text trees gs' :=
  ⟨h.pack, fun g hg => h.loads g (hsub g hg), fun g hg => h.parses g (hsub g hg)⟩

theorem Host.Makes.treeBy {gs : List String} (h : host.Makes text trees gs) (l : Language) {g : String} (hg : g ∈ gs) :
    host.treeBy text l g = .ok (trees g) := by
  rw [Host.treeBy, if_pos h.pack, h.loads g hg, h.parses g hg]
  rfl

/-- No grammar behind the first whose tree has no error makes a difference. -/
theorem Host.Makes.find?_settles : ∀ {gs : List String}, host.Makes text trees (upToClean trees gs) →
    gs.find? (host.settles text l) = gs.find? fun g => !(trees g).label.hasError
  | [], _ => rfl
  | g :: gs, h => by
    rw [List.find?_cons, List.find?_cons]
    cases he : (trees g).label.hasError with
    | true =>
      rw [upToClean_cons_of_error he] at h
      rw [settles_of_ok (h.treeBy l (List.mem_cons_self ..)), he]
      exact (h.mono fun x hx => List.mem_cons_of_mem g hx).find?_settles
    | false =>
      rw [upToClean_cons_of_clean he] at h
      rw [settles_of_ok (h.treeBy l (List.mem_cons_self ..)), he]
      rfl

theorem Host.Makes.tried : ∀ {gs : List String}, host.Makes text trees (upToClean trees gs) →
    host.tried text gs = upToClean trees gs
  | [], _ => rfl
  | g :: gs, h => by
    rw [Host.tried]
    cases he : (trees g).label.hasError with
    | true =>
      rw [upToClean_cons_of_error he] at h ⊢
      rw [h.loads g (List.mem_cons_self ..), h.parses g (List.mem_cons_self ..)]
      dsimp only
      rw [if_pos he, (h.mono fun x hx => List.mem_cons_of_mem g hx).tried]
    | false =>
      rw [upToClean_cons_of_clean he] at h ⊢
      rw [h.loads g (List.mem_cons_self ..), h.parses g (List.mem_cons_self ..)]
      simp [he]

theorem Table.chosen_of_clean {t : Table} {g : String}
    (h : (t.grammars.find? fun g => !(trees g).label.hasError) = some g) : t.chosen trees = g := by
  rw [Table.chosen, h]
  rfl

theorem Table.chosen_of_none {t : Table} (h : (t.grammars.find? fun g => !(trees g).label.hasError) = none) :
    t.chosen trees = t.grammar ∧ ∀ g ∈ t.grammars, (trees g).label.hasError = true := by
  refine ⟨by rw [Table.chosen, h]; rfl, fun g hg => ?_⟩
  simpa using List.find?_eq_none.1 h g hg

theorem Table.chosen_mem (t : Table) (trees : String → Concrete.Node) : t.chosen trees ∈ upToClean trees t.grammars := by
  cases h : t.grammars.find? fun g => !(trees g).label.hasError with
  | some g =>
    rw [Table.chosen_of_clean h, upToClean, h]
    exact List.mem_append_right _ (List.mem_singleton_self g)
  | none =>
    obtain ⟨hfirst, hall⟩ := Table.chosen_of_none h
    have hself : t.grammars.takeWhile (fun g => (trees g).label.hasError) = t.grammars :=
      List.takeWhile_eq_self_iff.2 hall
    rw [hfirst, upToClean, hself]
    exact List.mem_append_left _ (List.mem_cons_self ..)

/-- The tree that is used has an error only where all have one, and then it is that of the first grammar. -/
theorem Table.chosen_error {t : Table} (h : (trees (t.chosen trees)).label.hasError = true) :
    t.chosen trees = t.grammar ∧ ∀ g ∈ t.grammars, (trees g).label.hasError = true := by
  cases hf : t.grammars.find? fun g => !(trees g).label.hasError with
  | none => exact Table.chosen_of_none hf
  | some g =>
    have hclean := List.find?_some hf
    rw [Table.chosen_of_clean hf] at h
    rw [h] at hclean
    cases hclean

theorem Host.Makes.parseAfter_outcome (h : host.Makes text trees (upToClean trees (tableOf l).grammars))
    (tolerant : Bool) (before : List Request) : (parseAfter host tolerant before text l.name).outcome =
      if (trees ((tableOf l).chosen trees)).label.hasError && !tolerant then
        .error (.malformed l (Concrete.firstFault (trees ((tableOf l).chosen trees))))
      else .ok (normal (tableOf l) (Source.ofText text) (trees ((tableOf l).chosen trees))) := by
  have hdecisive : host.decisive text (tableOf l) = (tableOf l).chosen trees := by
    rw [Host.decisive, Host.Makes.find?_settles h, Table.chosen]
  rw [Grammar.parseAfter_outcome, hdecisive, h.treeBy l (Table.chosen_mem _ _)]
  rfl

theorem parseAfter_asked {tolerant : Bool} {before : List Request} {g : String}
    (h : .asked g ∈ (parseAfter host tolerant before text l.name).events) :
    g ∈ host.tried text (tableOf l).grammars := by
  obtain ⟨_, _, hsteady, -⟩ := parse_steady host tolerant text l.name none
  obtain ⟨-, hasks⟩ := hsteady _ (history_kept host tolerant before).recalls
  have hneeds : g ∈ host.needs text l.name := ((hasks.asked_iff g).1 h).1
  rw [Host.needs, ofName?_name] at hneeds
  exact Host.mem_of_mem_within hneeds

/-- **Strict against tolerant parsing**, where all grammars of a language make trees.  The first tree without an error is used,
or else that of the first grammar; a tolerant parser always makes the canonical tree of it.  A strict parser makes the same
one, unless all trees have errors; then it fails, and tells of the first error in the tree of the first grammar.  The grammars
behind the first whose tree has no error are not asked for, and whatever they do makes no difference. -/
theorem strict_against_tolerant (host : Host) (text : String) (l : Language) (trees : String → Concrete.Node)
    (h : host.Makes text trees (tableOf l).grammars) (before before' : List Request) :
    let t := tableOf l
    let strict := parseAfter host false before text l.name
    let tolerant := parseAfter host true before' text l.name
    tolerant.outcome = .ok (normal t (Source.ofText text) (trees (t.chosen trees))) ∧
    ((trees (t.chosen trees)).label.hasError = false → strict.outcome = tolerant.outcome) ∧
    ((trees (t.chosen trees)).label.hasError = true →
      t.chosen trees = t.grammar ∧
      strict.outcome = .error (.malformed l (Concrete.firstFault (trees t.grammar))) ∧
      ((trees t.grammar).Truthful →
        ∃ ahead m behind, (trees t.grammar).nodes = ahead ++ m :: behind ∧ (∀ b ∈ ahead, b.isFault = false) ∧
          m.label.fault? = some (Concrete.firstFault (trees t.grammar)))) ∧
    (∀ root, strict.outcome = .ok root → tolerant.outcome = .ok root) ∧
    ((∃ e, strict.outcome = .error e) ↔ ∀ g ∈ t.grammars, (trees g).label.hasError = true) ∧
    (∀ g, .asked g ∈ strict.events ∨ .asked g ∈ tolerant.events → g ∈ upToClean trees t.grammars) ∧
    ∀ other : Host, other.Makes text trees (upToClean trees t.grammars) → ∀ before,
      (parseAfter other false before text l.name).outcome = strict.outcome ∧
      (parseAfter other true before text l.name).outcome = tolerant.outcome := by
  intro t strict tolerant
  have hup : host.Makes text trees (upToClean trees t.grammars) := h.mono (upToClean_subset t.grammars)
  have htolerant : tolerant.outcome = .ok (normal t (Source.ofText text) (trees (t.chosen trees))) := by
    rw [hup.parseAfter_outcome, Bool.not_true, Bool.and_false, if_neg Bool.false_ne_true]
  have hstrict := hup.parseAfter_outcome false before
  rw [Bool.not_false, Bool.and_true] at hstrict
  have hclean : (trees (t.chosen trees)).label.hasError = false → strict.outcome = tolerant.outcome := fun hclean => by
    rw [htolerant]
    rwa [hclean, if_neg Bool.false_ne_true] at hstrict
  have herror : (trees (t.chosen trees)).label.hasError = true →
      strict.outcome = .error (.malformed l (Concrete.firstFault (trees t.grammar))) := fun herror => by
    rwa [herror, if_pos rfl, (Table.chosen_error herror).1] at hstrict
  refine ⟨htolerant, hclean, fun he => ⟨(Table.chosen_error he).1, herror he, fun htruthful => ?_⟩, ?_, ⟨?_, ?_⟩, ?_, ?_⟩
  · rw [(Table.chosen_error he).1] at he
    obtain ⟨ahead, m, behind, hnodes, hahead, -, hm⟩ := Concrete.exists_first htruthful he
    exact ⟨ahead, m, behind, hnodes, hahead, hm⟩
  · intro root hroot
    cases he : (trees (t.chosen trees)).label.hasError with
    | true => rw [herror he] at hroot; cases hroot
    | false => rw [← hclean he, hroot]
  · rintro ⟨e, hfails⟩
    cases he : (trees (t.chosen trees)).label.hasError with
    | true => exact (Table.chosen_error he).2
    | false => rw [hclean he, htolerant] at hfails; cases hfails
  · exact fun hall => ⟨_, herror (hall _ (upToClean_subset _ _ (Table.chosen_mem t trees)))⟩
  · intro g hg
    rw [← hup.tried]
    rcases hg with hg | hg
    · exact parseAfter_asked hg
    · exact parseAfter_asked hg
  · intro other hother before
    exact ⟨by rw [hother.parseAfter_outcome, ← hup.parseAfter_outcome], by
      rw [hother.parseAfter_outcome, ← hup.parseAfter_outcome]⟩

def Host.constant (tree : Concrete.Node) : Host :=
  ⟨⟨some "", none⟩, ⟨some "", none⟩, fun _ => none, fun _ _ => .ok tree⟩

theorem Host.constant_makes (tree : Concrete.Node) (text : String) (gs : List String) :
    (Host.constant tree).Makes text (fun _ => tree) gs :=
  ⟨rfl, fun _ _ => rfl, fun _ _ => rfl⟩

def errorAt (column : Int) : Concrete.Node :=
  .mk ⟨"program", 0, 3, true, false, false, none, ⟨0, 0⟩, ⟨0, 3⟩, true⟩
    [.mk ⟨"ERROR", column, 3, true, true, false, none, ⟨0, column⟩, ⟨0, 3⟩, true⟩ []]

theorem firstFault_errorAt (column : Int) : Concrete.firstFault (errorAt column) = ⟨.unexpected, ⟨0, column⟩⟩ := by
  simp [Concrete.firstFault, errorAt, Concrete.firstFaultIn, Concrete.Label.fault?, Concrete.Label.entered]

/-- A host whose grammars find an error, but not all at the same place. -/
def quarrel : Host :=
  ⟨⟨some "", none⟩, ⟨some "", none⟩, fun _ => none, fun g _ => .ok (if g == "tsx" then errorAt 1 else errorAt 2)⟩

/-- Both grammars of TypeScript find an error, and that of the first is told. -/
theorem first_grammar_told : (parseAfter quarrel false [] "(()" "typescript").outcome =
      .error (.malformed .typescript ⟨.unexpected, ⟨0, 2⟩⟩) ∧
    (parseAfter quarrel true [] "(()" "typescript").outcome =
      .ok (normal (tableOf .typescript) (Source.ofText "(()") (errorAt 2)) := by
  have hmakes : quarrel.Makes "(()" (fun g => if g == "tsx" then errorAt 1 else errorAt 2)
      (tableOf .typescript).grammars := ⟨rfl, fun _ _ => rfl, fun _ _ => rfl⟩
  obtain ⟨htolerant, -, hstrict, -⟩ := strict_against_tolerant quarrel "(()" .typescript _ hmakes [] []
  have htree : (if (tableOf .typescript).grammar == "tsx" then errorAt 1 else errorAt 2) = errorAt 2 := rfl
  obtain ⟨hchosen, hfault, -⟩ := hstrict rfl
  rw [hchosen, htree] at htolerant
  rw [htree, firstFault_errorAt] at hfault
  exact ⟨hfault, htolerant⟩

end CodeReview.Grammar
