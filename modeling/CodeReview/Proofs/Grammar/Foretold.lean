import CodeReview.Preflight
import CodeReview.Proofs.Grammar.Choice
import CodeReview.Proofs.Result.Reordered
/-!
# What a preflight foretells

A parse fails for lack of a parser exactly if the pack of grammars is not installed or the decisive grammar does not load
(`parse_lacksParser_iff`), whatever the parser has been asked before.  A preflight looks at the same two things on the same
host, but before there is any text: it needs every grammar of a language, and a parse only those up to the decisive one.  So
a good preflight rules such failures out, and a first grammar that is missing brings one about
(`preflight_foretells_parses`).
-/
namespace CodeReview

namespace Grammar

open Syntax (Deadline)

/-- Whether a parse has failed because there is no parser: the pack of grammars cannot be imported, or a grammar does not
load. -/
def ParseError.lacksParser : ParseError → Bool
  | .noPack | .noGrammar .. => true
  | .unknownLanguage _ | .malformed .. | .failed _ => false

variable {host : Host} {text : String} {l : Language}

theorem Host.treeBy_lacksParser_iff (text : String) (l : Language) {g : String} :
    (∃ e, host.treeBy text l g = .error e ∧ e.lacksParser = true) ↔
      host.pack.isInstalled = false ∨ ∃ why, host.broken g = some why := by
  rw [treeBy]
  cases hpack : host.pack.isInstalled with
  | false => simp [ParseError.lacksParser]
  | true =>
    cases hb : host.broken g with
    | some why => simp [ParseError.lacksParser]
    | none => cases host.tree g text <;> simp [Except.mapError, ParseError.lacksParser]

theorem canonical_hasParser {tolerant : Bool} {t : Table} {tree : Concrete.Node} {deadline : Option Deadline}
    {e : ParseError} (h : (canonical tolerant t text tree deadline).1 = .error e) : e.lacksParser = false := by
  unfold canonical at h
  split at h
  · cases h
    rfl
  · dsimp only at h
    cases hn : (normalize t (Source.ofText text) tree deadline).1 with
    | error why =>
      rw [hn] at h
      cases h
      rfl
    | ok root =>
      rw [hn] at h
      cases h

theorem decisive_mem (host : Host) (text : String) (t : Table) : host.decisive text t ∈ t.grammars := by
  unfold Host.decisive
  cases hfind : t.grammars.find? (host.settles text t.language) with
  | none => exact List.mem_cons_self
  | some g => exact List.mem_of_find?_eq_some hfind

theorem decisive_of_broken {t : Table} {why : String} (h : host.broken t.grammar = some why) :
    host.decisive text t = t.grammar := by
  have hfails : ∃ e, host.treeBy text t.language t.grammar = .error e := by
    obtain ⟨e, he, -⟩ := (Host.treeBy_lacksParser_iff text _).2 (.inr ⟨why, h⟩)
    exact ⟨e, he⟩
  obtain ⟨e, he⟩ := hfails
  rw [Host.decisive, Table.grammars, List.find?_cons_of_pos (Host.settles_of_error he), Option.getD_some]

/-- **A parse lacks a parser exactly if the decisive grammar cannot be loaded**, however much time it has. -/
theorem parse_lacksParser_iff (tolerant : Bool) {s : Session} (hs : s.Recalls host) (text : String) (l : Language)
    (deadline : Option Deadline) :
    (∃ e, (parse host tolerant s text l.name deadline).1.outcome = .error e ∧ e.lacksParser = true) ↔
      host.pack.isInstalled = false ∨ ∃ why, host.broken (host.decisive text (tableOf l)) = some why := by
  have hchosen := @chooseTree_outcome host text (tableOf l) s hs
  rw [tableOf_language] at hchosen
  rw [← Host.treeBy_lacksParser_iff text l, parse, ofName?_name]
  dsimp only
  rw [hchosen]
  cases host.treeBy text l (host.decisive text (tableOf l)) with
  | error e => simp only [Except.error.injEq]
  | ok tree =>
    constructor
    · rintro ⟨e, he, hlacks⟩
      rw [canonical_hasParser he] at hlacks
      cases hlacks
    · rintro ⟨e, he, -⟩
      cases he

theorem tableOf_grammar (l : Language) : (tableOf l).grammar = l.name := by cases l <;> rfl

end Grammar

/-! ## What is checked -/

namespace Preflight

open Grammar (Host Table tableOf)

variable {host : Host} {languages : List String}

def needed (languages : List String) : List String :=
  languages.flatMap fun name => ((Language.ofName? name).map fun l => (tableOf l).grammars).getD []

theorem mem_needsOf_unsupported {name x : String} (h : .unsupported x ∈ needsOf name) :
    Language.ofName? x = none := by
  unfold needsOf at h
  split at h
  · obtain ⟨g, -, hg⟩ := List.mem_map.1 h
    cases hg
  · rename_i hnone
    cases List.mem_singleton.1 h
    exact hnone

theorem checkRuntime_available_iff (required : Bool) :
    (checkRuntime host required).available = true ↔ host.runtime.isInstalled = true ∧ host.pack.isInstalled = true := by
  unfold checkRuntime
  cases host.runtime.isInstalled <;> cases host.pack.isInstalled <;> simp [missing]

theorem checkRuntime_required (required : Bool) : (checkRuntime host required).required = required := by
  unfold checkRuntime
  cases host.runtime.isInstalled <;> cases host.pack.isInstalled <;> rfl

theorem checkRuntime_name (required : Bool) : (checkRuntime host required).name = runtimeName := by
  unfold checkRuntime
  cases host.runtime.isInstalled <;> cases host.pack.isInstalled <;> rfl

theorem checkGrammar_available_iff {g : String} (required : Bool) :
    (checkGrammar host g required).available = true ↔ host.pack.isInstalled = true ∧ host.broken g = none := by
  unfold checkGrammar
  cases host.pack.isInstalled <;> cases host.broken g <;> simp

theorem checkGrammar_required (g : String) (required : Bool) : (checkGrammar host g required).required = required := by
  unfold checkGrammar
  cases host.pack.isInstalled <;> cases host.broken g <;> rfl

theorem checkNeed_required (n : Need) : (checkNeed host n).required = true := by
  cases n with
  | unsupported language => rfl
  | grammar g => exact checkGrammar_required g true

theorem checkGrammar_name (g : String) (required : Bool) : (checkGrammar host g required).name = grammarName g := by
  unfold checkGrammar
  cases host.pack.isInstalled <;> cases host.broken g <;> rfl

theorem mem_firstNeeds {n : Need} : ∀ (ns : List Need) (seen : List String),
    n ∈ firstNeeds seen ns ↔ n ∈ ns ∧ ∀ g ∈ seen, n ≠ .grammar g
  | [], _ => by simp [firstNeeds]
  | .unsupported language :: ns, seen => by
    rw [firstNeeds, List.mem_cons, List.mem_cons, mem_firstNeeds ns seen]
    constructor
    · rintro (rfl | ⟨hn, hseen⟩)
      · exact ⟨.inl rfl, fun g _ hg => by cases hg⟩
      · exact ⟨.inr hn, hseen⟩
    · rintro ⟨rfl | hn, hseen⟩
      · exact .inl rfl
      · exact .inr ⟨hn, hseen⟩
  | .grammar g :: ns, seen => by
    rw [firstNeeds, List.mem_cons]
    by_cases hg : seen.contains g = true
    · rw [if_pos hg, mem_firstNeeds ns seen]
      have hmem : g ∈ seen := List.contains_iff_mem.1 hg
      constructor
      · exact fun ⟨hn, hseen⟩ => ⟨.inr hn, hseen⟩
      · rintro ⟨rfl | hn, hseen⟩
        · exact absurd rfl (hseen g hmem)
        · exact ⟨hn, hseen⟩
    · rw [if_neg hg, List.mem_cons, mem_firstNeeds ns (g :: seen), List.forall_mem_cons]
      have hnew : ∀ x ∈ seen, Need.grammar g ≠ .grammar x := by
        rintro x hx hgx
        cases hgx
        exact hg (List.contains_iff_mem.2 hx)
      constructor
      · rintro (rfl | ⟨hn, -, hseen⟩)
        · exact ⟨.inl rfl, hnew⟩
        · exact ⟨.inr hn, hseen⟩
      · rintro ⟨hn, hseen⟩
        by_cases hsame : n = .grammar g
        · exact .inl hsame
        · exact .inr ⟨hn.resolve_left hsame, hsame, hseen⟩

/-- **Of grammars each is needed first once**, in order. -/
theorem firstNeeds_grammars : ∀ (gs seen : List String),
    firstNeeds seen (gs.map .grammar) = ((gs.filter fun g => !seen.contains g).eraseDups).map .grammar
  | [], _ => rfl
  | g :: gs, seen => by
    rw [List.map_cons, firstNeeds, List.filter_cons]
    by_cases hg : seen.contains g = true
    · rw [if_pos hg, firstNeeds_grammars gs seen, hg]
      rfl
    · have hrest : (gs.filter fun x => !(g :: seen).contains x) =
          (gs.filter fun x => !seen.contains x).filter fun x => !x == g := by
        rw [List.filter_filter]
        exact List.filter_congr fun x _ => by rw [List.contains_cons, Bool.not_or]
      rw [if_neg hg, firstNeeds_grammars gs (g :: seen), hrest, if_pos (by simpa using hg), List.eraseDups_cons]
      rfl

theorem needs_of_known : ∀ (languages : List String), (∀ name ∈ languages, (Language.ofName? name).isSome = true) →
    languages.flatMap needsOf = (needed languages).map .grammar
  | [], _ => rfl
  | name :: rest, h => by
    rw [List.forall_mem_cons] at h
    obtain ⟨l, hl⟩ := Option.isSome_iff_exists.1 h.1
    have ih := needs_of_known rest h.2
    rw [needed, List.flatMap_cons, List.flatMap_cons, List.map_append, ih, needsOf, hl]
    rfl

theorem languagesOr_known (h : ∀ name ∈ languages, (Language.ofName? name).isSome = true) :
    ∀ name ∈ languagesOr languages, (Language.ofName? name).isSome = true := by
  unfold languagesOr
  split
  · decide
  · exact h

theorem mem_languagesOr {name : String} (h : name ∈ languages) : name ∈ languagesOr languages := by
  unfold languagesOr
  rw [if_neg (by simpa using List.ne_nil_of_mem h)]
  exact h

/-! ## The checks of a preflight -/

theorem checks_of_unavailable (h : (checkRuntime host true).available = false) :
    (ofLanguages host languages).checks = [checkRuntime host true] := by
  rw [ofLanguages, h]
  rfl

theorem checks_of_available (h : (checkRuntime host true).available = true) :
    (ofLanguages host languages).checks =
      checkRuntime host true :: (firstNeeds [] ((languagesOr languages).flatMap needsOf)).map (checkNeed host) := by
  rw [ofLanguages, h]
  rfl

theorem checks_required : ∀ c ∈ (ofLanguages host languages).checks, c.required = true := by
  intro c hc
  cases hr : (checkRuntime host true).available with
  | false =>
    rw [checks_of_unavailable hr] at hc
    rw [List.mem_singleton.1 hc, checkRuntime_required]
  | true =>
    rw [checks_of_available hr] at hc
    rcases List.mem_cons.1 hc with rfl | hc
    · exact checkRuntime_required true
    · obtain ⟨n, -, rfl⟩ := List.mem_map.1 hc
      exact checkNeed_required n

theorem success_iff : (ofLanguages host languages).success = true ↔
    ∀ c ∈ (ofLanguages host languages).checks, c.available = true := by
  rw [success, List.all_eq_true]
  refine forall₂_congr fun c hc => ?_
  rw [checks_required c hc, Bool.not_true, Bool.or_false]

theorem errors_eq : (ofLanguages host languages).errors =
    ((ofLanguages host languages).checks.filter fun c => !c.available).map fun c =>
      "Required dependency not available: " ++ c.name := by
  rw [errors]
  refine congrArg _ (List.filter_congr fun c hc => ?_)
  rw [checks_required c hc, Bool.and_true]

/-- A good preflight has loaded every grammar of the languages that are listed, all of which are known. -/
theorem loads_of_success (h : (ofLanguages host languages).success = true) {name : String} (hname : name ∈ languages) :
    host.pack.isInstalled = true ∧
      ∃ l : Language, name = l.name ∧ ∀ g ∈ (tableOf l).grammars, host.broken g = none := by
  rw [success_iff] at h
  have hruntime : (checkRuntime host true).available = true := by
    by_contra hno
    rw [checks_of_unavailable (by simpa using hno)] at h
    exact hno (h _ List.mem_cons_self)
  rw [checks_of_available hruntime, List.forall_mem_cons] at h
  have hneed : ∀ n ∈ needsOf name, (checkNeed host n).available = true := fun n hn =>
    h.2 _ (List.mem_map_of_mem ((mem_firstNeeds _ []).2
      ⟨List.mem_flatMap.2 ⟨name, mem_languagesOr hname, hn⟩, fun g hg => (by cases hg)⟩))
  refine ⟨((checkRuntime_available_iff true).1 hruntime).2, ?_⟩
  cases hl : Language.ofName? name with
  | none =>
    -- a language without a table is a check of its own, which is not good
    rw [needsOf, hl] at hneed
    exact absurd (hneed _ (List.mem_singleton_self _)) (by simp [checkNeed])
  | some l =>
    rw [needsOf, hl] at hneed
    have hsame : l.name = name := by simpa using List.find?_some hl
    refine ⟨l, hsame.symm, fun g hg => ?_⟩
    have hgood : (checkGrammar host g true).available = true := hneed _ (List.mem_map_of_mem hg)
    exact ((checkGrammar_available_iff true).1 hgood).2

/-- The check of a language's first grammar tells whether that loads, whatever else is checked. -/
theorem broken_of_check (l : Language) {c : ToolCheck} (hc : c ∈ (ofLanguages host languages).checks)
    (hname : c.name = grammarName (tableOf l).grammar) (hbad : c.available = false) :
    ∃ why, host.broken (tableOf l).grammar = some why := by
  have hother : runtimeName ≠ grammarName (tableOf l).grammar := by cases l <;> decide
  have hinj : ∀ g g', grammarName g = grammarName g' → g = g' := fun g g' h => (String.append_right_inj _).1 h
  cases hr : (checkRuntime host true).available with
  | false =>
    rw [checks_of_unavailable hr] at hc
    rw [List.mem_singleton.1 hc, checkRuntime_name] at hname
    exact absurd hname hother
  | true =>
    have hpack := ((checkRuntime_available_iff true).1 hr).2
    rw [checks_of_available hr] at hc
    rcases List.mem_cons.1 hc with rfl | hc
    · rw [checkRuntime_name] at hname
      exact absurd hname hother
    obtain ⟨n, hn, rfl⟩ := List.mem_map.1 hc
    cases n with
    | unsupported x =>
      -- no language without a table bears the name of a first grammar, as these are named for their languages
      obtain ⟨name, -, hx⟩ := List.mem_flatMap.1 ((mem_firstNeeds _ []).1 hn).1
      have hx' : x = l.name := (hinj _ _ hname).trans (Grammar.tableOf_grammar l)
      have hnone := mem_needsOf_unsupported hx
      rw [hx', Grammar.ofName?_name] at hnone
      cases hnone
    | grammar g =>
      rw [checkNeed, checkGrammar_name] at hname
      rw [← hinj _ _ hname]
      refine Option.ne_none_iff_exists'.1 fun hloads => ?_
      have hgood : (checkNeed host (.grammar g)).available = true := (checkGrammar_available_iff true).2 ⟨hpack, hloads⟩
      rw [hgood] at hbad
      cases hbad

/-- **A preflight foretells which parses lack a parser.**  If it is good, no parse of a text in a listed language does,
whatever the parser has been asked before; if it reports the first grammar of a language, every parse in that language
does.  With the runtime at hand and known languages only, each grammar that is needed is checked once, in the order of first
need.  A preflight is good exactly if all its checks are, it has an error for each of the others in order, and without the
runtime there is no other check. -/
theorem preflight_foretells_parses (host : Host) (languages : List String) :
    let p := ofLanguages host languages
    let runtime := checkRuntime host true
    (p.success = true → ∀ name ∈ languages, ∀ tolerant before text deadline e,
      (Grammar.parse host tolerant (Grammar.history host tolerant before).session text name deadline).1.outcome = .error e →
      e.lacksParser = false) ∧
    (∀ (l : Language), ∀ c ∈ p.checks, c.name = grammarName (tableOf l).grammar → c.available = false →
      ∀ tolerant before text deadline, ∃ e,
        (Grammar.parse host tolerant (Grammar.history host tolerant before).session text l.name deadline).1.outcome =
          .error e ∧ e.lacksParser = true) ∧
    (runtime.available = true → (∀ name ∈ languages, (Language.ofName? name).isSome = true) →
      ∃ grammars, p.checks = runtime :: grammars.map (checkGrammar host · true) ∧ grammars.Nodup ∧
        grammars = (needed (languagesOr languages)).eraseDups) ∧
    (p.success = true ↔ ∀ c ∈ p.checks, c.available = true) ∧
    p.errors = (p.checks.filter fun c => !c.available).map (fun c => "Required dependency not available: " ++ c.name) ∧
    (runtime.available = false → p.checks = [runtime]) := by
  intro p runtime
  refine ⟨fun hgood name hname tolerant before text deadline e he => ?_,
    fun l c hc hname hbad tolerant before text deadline => ?_, fun hr hknown => ?_, success_iff, errors_eq,
    checks_of_unavailable⟩
  · obtain ⟨hpack, l, rfl, hloads⟩ := loads_of_success hgood hname
    have hrecalls := (Grammar.history_kept host tolerant before).recalls
    have hlacks := Grammar.parse_lacksParser_iff tolerant hrecalls text l deadline
    rw [hpack, hloads _ (Grammar.decisive_mem host text (tableOf l))] at hlacks
    by_contra hno
    obtain hpack | ⟨why, hwhy⟩ := hlacks.1 ⟨e, he, by simpa using hno⟩
    · cases hpack
    · cases hwhy
  · obtain ⟨why, hwhy⟩ := broken_of_check l hc hname hbad
    have hrecalls := (Grammar.history_kept host tolerant before).recalls
    refine (Grammar.parse_lacksParser_iff tolerant hrecalls text l deadline).2 (.inr ?_)
    exact ⟨why, by rw [Grammar.decisive_of_broken hwhy, hwhy]⟩
  · refine ⟨(needed (languagesOr languages)).eraseDups, ?_, eraseDups_nodup _, rfl⟩
    have hall : ((needed (languagesOr languages)).filter fun g => !([] : List String).contains g) =
        needed (languagesOr languages) := List.filter_eq_self.2 fun g _ => rfl
    have hchecks : p.checks = _ := checks_of_available hr
    rw [hchecks, needs_of_known _ (languagesOr_known hknown), firstNeeds_grammars, hall, List.map_map]
    rfl

end Preflight
end CodeReview
