import CodeReview.Proofs.Grammar.Choice
/-!
# Fallback grammars

While the trees of a text have errors the parser goes on with the next grammar, also if it is tolerant and has a tree that it
could use.  So a tolerant parse of a text of which the first grammar makes a tree fails exactly if that tree has an error
and one of the grammars that are tried after it makes none (`tolerant_completes_iff`).
-/
namespace CodeReview.Grammar

variable {host : Host} {text : String} {l : Language}

theorem exists_ok_iff {ε α : Type} {x : Except ε α} : (∃ a, x = .ok a) ↔ ∀ e, x ≠ .error e := by
  cases x <;> simp

theorem Host.treeBy_ok_iff (hpack : host.pack.isInstalled = true) {g : String} {tree : Concrete.Node} :
    host.treeBy text l g = .ok tree ↔ host.broken g = none ∧ host.tree g text = .ok tree := by
  rw [treeBy, if_pos hpack]
  cases host.broken g with
  | some why => simp
  | none => cases host.tree g text <;> simp [Except.mapError]

theorem Host.exists_treeBy_iff (hpack : host.pack.isInstalled = true) (l : Language) (g : String) :
    (∃ tree, host.treeBy text l g = .ok tree) ↔ host.broken g = none ∧ ∃ tree, host.tree g text = .ok tree := by
  simp only [treeBy_ok_iff hpack, exists_and_left]

theorem Host.treeBy_error_iff (hpack : host.pack.isInstalled = true) {g : String} {e : ParseError} :
    host.treeBy text l g = .error e ↔ (∃ why, host.broken g = some why ∧ e = .noGrammar l g why) ∨
      ∃ why, host.broken g = none ∧ host.tree g text = .error why ∧ e = .failed why := by
  rw [treeBy, if_pos hpack]
  cases host.broken g with
  | some why => simp [eq_comm]
  | none => cases host.tree g text <;> simp [Except.mapError, eq_comm]

theorem Host.tried_of_error (hpack : host.pack.isInstalled = true) {g : String} {e : ParseError}
    (h : host.treeBy text l g = .error e) (rest : List String) : host.tried text (g :: rest) = [g] := by
  have hwithin := Host.within_tried_of_error h rest
  rwa [within, within, if_pos hpack, if_pos hpack] at hwithin

theorem Host.tried_of_ok (hpack : host.pack.isInstalled = true) {g : String} {tree : Concrete.Node}
    (h : host.treeBy text l g = .ok tree) (rest : List String) :
    host.tried text (g :: rest) = g :: if tree.label.hasError then host.tried text rest else [] := by
  have hwithin := Host.within_tried_of_ok h rest
  rwa [within, within, within, if_pos hpack, if_pos hpack, if_pos hpack] at hwithin

/-- **The search ends in a failure exactly if a grammar that it comes to makes no tree.** -/
theorem Host.settled_error_iff (hpack : host.pack.isInstalled = true) (e : ParseError) : ∀ gs : List String,
    (∃ g, gs.find? (host.settles text l) = some g ∧ host.treeBy text l g = .error e) ↔
      ∃ g ∈ host.tried text gs, host.treeBy text l g = .error e
  | [] => by simp [Host.tried]
  | g :: gs => by
    have ih := settled_error_iff hpack e gs
    rw [List.find?_cons]
    cases hg : host.treeBy text l g with
    | error e' => simp [settles_of_error hg, tried_of_error hpack hg, hg]
    | ok tree =>
      rw [settles_of_ok hg, tried_of_ok hpack hg]
      cases he : tree.label.hasError with
      | true => simpa [hg] using ih
      | false => simp [hg]

/-! ## Tolerant parsing -/

/-- A tolerant parse makes the canonical tree of the tree that is used, and fails only where there is none. -/
theorem tolerant_outcome (host : Host) (before : List Request) (text : String) (l : Language) :
    (parseAfter host true before text l.name).outcome =
      (host.treeBy text l (host.decisive text (tableOf l))).map (normal (tableOf l) (Source.ofText text)) := by
  rw [parseAfter_outcome]
  cases host.treeBy text l (host.decisive text (tableOf l)) with
  | error e => rfl
  | ok tree =>
    dsimp only [Except.bind, Except.map]
    rw [Bool.not_true, Bool.and_false, if_neg Bool.false_ne_true]

variable {trees : String → Concrete.Node}

/-- Of the first grammar's tree, only an error in it lets the fallback grammars decide. -/
theorem Host.Makes.decisive {t : Table} (h : host.Makes text trees [t.grammar]) :
    host.decisive text t = if (trees t.grammar).label.hasError then
      (t.fallbacks.find? (host.settles text t.language)).getD t.grammar else t.grammar := by
  rw [Host.decisive, Table.grammars, List.find?_cons,
    Host.settles_of_ok (h.treeBy t.language (List.mem_singleton_self t.grammar))]
  cases (trees t.grammar).label.hasError <;> rfl

/-- A tree is used that the first grammar or a fallback grammar has made, the latter only without an error. -/
theorem Host.Makes.decisive_cases {t : Table} (h : host.Makes text trees [t.grammar]) {tree : Concrete.Node}
    (hout : host.treeBy text t.language (host.decisive text t) = .ok tree) :
    tree = trees t.grammar ∨ ∃ g ∈ t.fallbacks, host.treeBy text t.language g = .ok tree ∧ tree.label.hasError = false := by
  have hfirst := h.treeBy t.language (List.mem_singleton_self t.grammar)
  rw [h.decisive] at hout
  by_cases he : (trees t.grammar).label.hasError = true
  · rw [if_pos he] at hout
    cases hfind : t.fallbacks.find? (host.settles text t.language) with
    | none =>
      rw [hfind, Option.getD_none, hfirst] at hout
      exact .inl (by cases hout; rfl)
    | some g =>
      rw [hfind, Option.getD_some] at hout
      have hsettles := List.find?_some hfind
      rw [Host.settles_of_ok hout] at hsettles
      exact .inr ⟨g, List.mem_of_find?_eq_some hfind, hout, by simpa using hsettles⟩
  · rw [if_neg he, hfirst] at hout
    exact .inl (by cases hout; rfl)

theorem Host.Makes.decisive_error_iff {t : Table} (h : host.Makes text trees [t.grammar]) (e : ParseError) :
    host.treeBy text t.language (host.decisive text t) = .error e ↔ (trees t.grammar).label.hasError = true ∧
      ∃ g ∈ host.tried text t.fallbacks, host.treeBy text t.language g = .error e := by
  have hfirst := h.treeBy t.language (List.mem_singleton_self t.grammar)
  rw [h.decisive, ← Host.settled_error_iff h.pack]
  by_cases he : (trees t.grammar).label.hasError = true
  · rw [if_pos he]
    cases t.fallbacks.find? (host.settles text t.language) <;> simp [he, hfirst]
  · simp [he, hfirst]

/-- **When a tolerant parse completes**, if the first grammar makes a tree.  It fails as soon as a grammar that is tried
because of an error in that tree does not load or fails on the text, although the first grammar's tree could be used. -/
theorem tolerant_completes_iff (host : Host) (text : String) (l : Language) (trees : String → Concrete.Node)
    (h : host.Makes text trees [(tableOf l).grammar]) (before : List Request) :
    let t := tableOf l
    let first := trees t.grammar
    let tolerant := parseAfter host true before text l.name
    ((∃ root, tolerant.outcome = .ok root) ↔ first.label.hasError = false ∨
      ∀ g ∈ host.tried text t.fallbacks, host.broken g = none ∧ ∃ tree, host.tree g text = .ok tree) ∧
    (∀ e, tolerant.outcome = .error e ↔ first.label.hasError = true ∧ ∃ g ∈ host.tried text t.fallbacks,
      (∃ why, host.broken g = some why ∧ e = .noGrammar l g why) ∨
        ∃ why, host.broken g = none ∧ host.tree g text = .error why ∧ e = .failed why) ∧
    (∀ root, tolerant.outcome = .ok root → ∃ tree, root = normal t (Source.ofText text) tree ∧
      (tree = first ∨ ∃ g ∈ t.fallbacks, host.tree g text = .ok tree ∧ tree.label.hasError = false)) ∧
    (l ≠ .typescript → tolerant.outcome = .ok (normal t (Source.ofText text) first)) := by
  intro t first tolerant
  have hl : t.language = l := tableOf_language l
  have houtcome : tolerant.outcome = (host.treeBy text l (host.decisive text t)).map (normal t (Source.ofText text)) :=
    tolerant_outcome host before text l
  have herror : ∀ e, tolerant.outcome = .error e ↔ first.label.hasError = true ∧
      ∃ g ∈ host.tried text t.fallbacks, host.treeBy text l g = .error e := by
    intro e
    have hdecisive := h.decisive_error_iff e
    rw [hl] at hdecisive
    rw [← hdecisive, houtcome]
    cases host.treeBy text l (host.decisive text t) <;> simp [Except.map]
  refine ⟨?_, ?_, ?_, ?_⟩
  · -- there is a root exactly if there is no error
    simp only [← Host.exists_treeBy_iff h.pack l]
    constructor
    · rintro ⟨root, hroot⟩
      refine or_iff_not_imp_left.2 fun he g hg => exists_ok_iff.2 fun e hge => ?_
      rw [(herror e).2 ⟨by simpa using he, g, hg, hge⟩] at hroot
      cases hroot
    · refine fun hmakes => exists_ok_iff.2 fun e hfails => ?_
      obtain ⟨he, g, hg, hge⟩ := (herror e).1 hfails
      rcases hmakes with hclean | hall
      · exact Bool.false_ne_true (hclean.symm.trans he)
      · exact exists_ok_iff.1 (hall g hg) e hge
  · intro e
    rw [herror e]
    simp only [Host.treeBy_error_iff h.pack]
  · intro root hroot
    rw [houtcome] at hroot
    cases htree : host.treeBy text l (host.decisive text t) with
    | error e => rw [htree] at hroot; cases hroot
    | ok tree =>
      rw [htree] at hroot
      rw [← hl] at htree
      refine ⟨tree, by cases hroot; rfl, (h.decisive_cases htree).imp_right ?_⟩
      rintro ⟨g, hg, hmade, hclean⟩
      exact ⟨g, hg, ((Host.treeBy_ok_iff h.pack).1 hmade).2, hclean⟩
  · intro hne
    have hnone : t.fallbacks = [] := by revert hne; cases l <;> simp [t, tableOf]
    have hdecisive : host.decisive text t = t.grammar := by rw [h.decisive, hnone]; exact ite_self _
    rw [houtcome, hdecisive, h.treeBy l (List.mem_singleton_self _)]
    rfl

/-- A host with the grammar `typescript`, which finds an error, but without `tsx`. -/
def halfInstalled : Host :=
  ⟨⟨some "", none⟩, ⟨some "", none⟩, fun g => if g == "tsx" then some "no such grammar" else none,
    fun _ _ => .ok (errorAt 2)⟩

theorem halfInstalled_makes : halfInstalled.Makes "(()" (fun _ => errorAt 2) [(tableOf .typescript).grammar] :=
  ⟨rfl, by decide, fun _ _ => rfl⟩

/-- A tolerant parse fails, though the first grammar loads and makes a tree. -/
theorem tolerant_without_fallback : (errorAt 2).label.hasError = true ∧ halfInstalled.tried "(()" ["tsx"] = ["tsx"] ∧
    (parseAfter halfInstalled true [] "(()" "typescript").outcome =
      .error (.noGrammar .typescript "tsx" "no such grammar") := by
  obtain ⟨-, herror, -⟩ := tolerant_completes_iff halfInstalled "(()" .typescript _ halfInstalled_makes []
  refine ⟨rfl, rfl, (herror _).2 ⟨rfl, "tsx", ?_, .inl ⟨"no such grammar", rfl, rfl⟩⟩⟩
  exact List.mem_singleton_self "tsx"

/-- That the first grammar loads and makes a tree of a text does not let a tolerant parse complete. -/
theorem first_tree_not_enough : ¬ ∀ (host : Host) (text : String) (l : Language) (trees : String → Concrete.Node),
    host.Makes text trees [(tableOf l).grammar] → ∃ root, (parseAfter host true [] text l.name).outcome = .ok root := by
  intro hcompletes
  obtain ⟨root, hroot⟩ := hcompletes halfInstalled "(()" .typescript _ halfInstalled_makes
  cases hroot

end CodeReview.Grammar
