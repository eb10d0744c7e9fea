import CodeReview.Grammar.Parser
import Mathlib.Data.List.Basic
/-!
# Histories of parsers

A parser remembers what its host has answered (`Session.Recalls`), and a host always answers alike.  So a step that loads
grammars has an outcome which no session changes, and asks for those of the grammars it needs that are not loaded
(`Steady`); `parse_steady` says so of a parse.

Calls of one parser are a `history`.  Each gives what it gives a fresh parser, and over all of them each grammar is loaded
once at most (`history_kept`); a call asks for the grammars it needs that no call before has loaded (`serve_steady`).
-/
namespace CodeReview.Grammar

open Syntax (Deadline)

/-! ## What is needed -/

def Host.attempt (host : Host) (g : String) : List Event :=
  match host.broken g with
  | some _ => [.asked g]
  | none => [.asked g, .loaded g]

/-- The grammars that a text is tried with: each has made a tree with an error, but the last. -/
def Host.tried (host : Host) (text : String) : List String → List String
  | [] => []
  | g :: rest =>
    match host.broken g, host.tree g text with
    | none, .ok tree => if tree.label.hasError then g :: tried host text rest else [g]
    | _, _ => [g]

/-- The grammars that can be asked for: none without the pack that they come in. -/
def Host.within (host : Host) (gs : List String) : List String := if host.pack.isInstalled then gs else []

def Host.treeBy (host : Host) (text : String) (language : Language) (g : String) : Except ParseError Concrete.Node :=
  if host.pack.isInstalled then
    match host.broken g with
    | some reason => .error (.noGrammar language g reason)
    | none => (host.tree g text).mapError .failed
  else .error .noPack

theorem Host.tried_sublist (host : Host) (text : String) : ∀ gs : List String, (host.tried text gs).Sublist gs
  | [] => List.Sublist.refl []
  | g :: rest => by
    rw [tried]
    split
    · split
      · exact (tried_sublist host text rest).cons_cons g
      · simp
    · simp

theorem Host.mem_of_mem_within {host : Host} {g : String} {gs : List String} (h : g ∈ host.within gs) : g ∈ gs := by
  unfold within at h
  split at h
  · exact h
  · cases h

theorem Host.notMem_within_tried {host : Host} {text g : String} {rest : List String} (h : (g :: rest).Nodup) :
    ∀ x ∈ host.within (host.tried text rest), x ∉ host.within [g] := by
  intro x hx hxg
  have hmem : x ∈ rest := (host.tried_sublist text rest).subset (mem_of_mem_within hx)
  have hsame : x = g := List.mem_singleton.1 (mem_of_mem_within hxg)
  exact (List.nodup_cons.1 h).1 (hsame ▸ hmem)

theorem Host.within_tried_of_error {host : Host} {text : String} {l : Language} {g : String} {e : ParseError}
    (h : host.treeBy text l g = .error e) (rest : List String) :
    host.within (host.tried text (g :: rest)) = host.within [g] := by
  unfold within
  split
  · rename_i hpack
    rw [treeBy, if_pos hpack] at h
    rw [tried]
    cases hb : host.broken g with
    | some reason => simp
    | none =>
      cases ht : host.tree g text with
      | error why => simp
      | ok tree =>
        simp only [hb, ht] at h
        cases h
  · rfl

theorem Host.within_tried_of_ok {host : Host} {text : String} {l : Language} {g : String} {tree : Concrete.Node}
    (h : host.treeBy text l g = .ok tree) (rest : List String) :
    host.within (host.tried text (g :: rest)) =
      host.within [g] ++ if tree.label.hasError then host.within (host.tried text rest) else [] := by
  have hpack : host.pack.isInstalled = true := by
    by_contra hno
    rw [treeBy, if_neg hno] at h
    cases h
  rw [treeBy, if_pos hpack] at h
  rw [tried]
  cases hb : host.broken g with
  | some reason => simp [hb] at h
  | none =>
    cases ht : host.tree g text with
    | error why =>
      simp only [hb, ht] at h
      cases h
    | ok tree' =>
      simp only [hb, ht] at h
      obtain rfl : tree' = tree := by simpa [Except.mapError] using h
      by_cases he : tree'.label.hasError = true <;> simp [he, within, hpack]

/-! ## What is remembered -/

/-- That all a parser remembers is what its host has answered. -/
structure Session.Recalls (s : Session) (host : Host) : Prop where
  imported : s.imported = true → host.pack.isInstalled = true
  refusal : ∀ e, s.refusal = some e → host.pack.isInstalled = false ∧ e = .noPack
  loaded : ∀ g ∈ s.loaded, host.broken g = none

theorem Session.fresh_recalls (host : Host) : ({} : Session).Recalls host where
  imported h := by cases h
  refusal e h := by cases h
  loaded g h := by cases h

/-- That in a session grammars have been needed, of which those that were not loaded have been asked for, and what is
remembered then. -/
structure Asks (host : Host) (s : Session) (needs : List String) (events : List Event) (s' : Session) : Prop where
  events : events = (needs.filter fun g => !s.loaded.contains g).flatMap host.attempt
  loaded : s'.loaded = s.loaded ++ needs.filter fun g => !s.loaded.contains g && (host.broken g).isNone
  recalls : s'.Recalls host

theorem Asks.nothing {host : Host} {s s' : Session} (hl : s'.loaded = s.loaded) (h : s'.Recalls host) :
    Asks host s [] [] s' :=
  ⟨rfl, by rw [hl, List.filter_nil, List.append_nil], h⟩

/-- **Needs one after the other add up**, if none of them is the same. -/
theorem Asks.trans {host : Host} {s s₁ s₂ : Session} {needs₁ needs₂ : List String} {events₁ events₂ : List Event}
    (h₁ : Asks host s needs₁ events₁ s₁) (h₂ : Asks host s₁ needs₂ events₂ s₂) (hnew : ∀ g ∈ needs₂, g ∉ needs₁) :
    Asks host s (needs₁ ++ needs₂) (events₁ ++ events₂) s₂ := by
  have hloaded : ∀ g ∈ needs₂, s₁.loaded.contains g = s.loaded.contains g := by
    intro g hg
    have hno : g ∉ needs₁.filter fun g => !s.loaded.contains g && (host.broken g).isNone :=
      fun hmem => hnew g hg (List.mem_of_mem_filter hmem)
    rw [h₁.loaded, List.contains_eq_mem, List.contains_eq_mem, decide_eq_decide, List.mem_append]
    exact or_iff_left hno
  refine ⟨?_, ?_, h₂.recalls⟩
  · have hsame : (needs₂.filter fun g => !s₁.loaded.contains g) = needs₂.filter fun g => !s.loaded.contains g :=
      List.filter_congr fun g hg => by rw [hloaded g hg]
    rw [h₁.events, h₂.events, hsame, List.filter_append, List.flatMap_append]
  · have hsame : (needs₂.filter fun g => !s₁.loaded.contains g && (host.broken g).isNone) =
        needs₂.filter fun g => !s.loaded.contains g && (host.broken g).isNone :=
      List.filter_congr fun g hg => by rw [hloaded g hg]
    rw [h₂.loaded, hsame, h₁.loaded, List.filter_append, List.append_assoc]

/-! ## Steps that load grammars -/

/-- A step with an outcome that no session changes which recalls the host, and with the grammars it needs. -/
def Steady {α : Type} (host : Host) (needs : List String) (out : Except ParseError α) (step : Session → Parsed α) : Prop :=
  ∀ s, s.Recalls host → (step s).outcome = out ∧ Asks host s needs (step s).events (step s).session

theorem Steady.done {α : Type} {host : Host} (out : Except ParseError α) : Steady host [] out fun s => ⟨out, s, []⟩ :=
  fun _ hs => ⟨rfl, .nothing rfl hs⟩

theorem Steady.andThen_error {α β : Type} {host : Host} {needs : List String} {e : ParseError} {step : Session → Parsed α}
    (h : Steady host needs (.error e) step) (next : α → Session → Parsed β) :
    Steady host needs (.error e) fun s => (step s).andThen next := by
  intro s hs
  obtain ⟨hout, hasks⟩ := h s hs
  simp only [Parsed.andThen, hout]
  exact ⟨trivial, hasks⟩

theorem Steady.andThen_ok {α β : Type} {host : Host} {needs needs' : List String} {a : α} {out : Except ParseError β}
    {step : Session → Parsed α} {next : α → Session → Parsed β} (h : Steady host needs (.ok a) step)
    (hnext : Steady host needs' out (next a)) (hnew : ∀ g ∈ needs', g ∉ needs) :
    Steady host (needs ++ needs') out fun s => (step s).andThen next := by
  intro s hs
  obtain ⟨hout, hasks⟩ := h s hs
  obtain ⟨hout', hasks'⟩ := hnext (step s).session hasks.recalls
  simp only [Parsed.andThen, hout]
  exact ⟨hout', hasks.trans hasks' hnew⟩

theorem importPack_steady (host : Host) :
    Steady host [] (if host.pack.isInstalled then .ok () else .error .noPack) (importPack host) := by
  intro s hs
  unfold importPack
  by_cases hi : s.imported = true
  · rw [if_pos hi, if_pos (hs.imported hi)]
    exact ⟨rfl, .nothing rfl hs⟩
  · rw [if_neg hi]
    cases hr : s.refusal with
    | some e =>
      obtain ⟨hpack, rfl⟩ := hs.refusal e hr
      rw [hpack, if_neg Bool.false_ne_true]
      exact ⟨rfl, .nothing rfl hs⟩
    | none =>
      by_cases hpack : host.pack.isInstalled = true
      · simp only [hpack, if_true]
        exact ⟨trivial, .nothing rfl ⟨fun _ => hpack, fun _ he => (nomatch he), hs.loaded⟩⟩
      · simp only [hpack, if_false, Bool.false_eq_true]
        refine ⟨trivial, .nothing rfl ⟨hs.imported, fun e he => ?_, hs.loaded⟩⟩
        exact ⟨by simpa using hpack, (Option.some.inj he).symm⟩

/-- Loading a grammar asks for it unless it is loaded; one that does not load is not remembered. -/
theorem load_steady (host : Host) (l : Language) (g : String) :
    Steady host [g] (match host.broken g with
        | some reason => .error (.noGrammar l g reason)
        | none => .ok ())
      fun s => load host l s g := by
  intro s hs
  dsimp only [load]
  by_cases hg : g ∈ s.loaded
  · have hb : host.broken g = none := hs.loaded g hg
    have hc : s.loaded.contains g = true := List.contains_iff_mem.2 hg
    simp only [hc, hb, if_true]
    exact ⟨trivial, by simp [hg], by simp [hg], hs⟩
  · have hc : s.loaded.contains g = false := by simp [hg]
    simp only [hc, if_false, Bool.false_eq_true]
    cases hb : host.broken g with
    | some reason => exact ⟨rfl, by simp [hg, Host.attempt, hb], by simp [hg, hb], hs⟩
    | none =>
      refine ⟨rfl, by simp [hg, Host.attempt, hb], by simp [hg, hb], hs.imported, hs.refusal, fun x hx => ?_⟩
      rcases List.mem_append.1 hx with hx | hx
      · exact hs.loaded x hx
      · rwa [List.mem_singleton.1 hx]

theorem treeOf_steady (host : Host) (text : String) (l : Language) (g : String) :
    Steady host (host.within [g]) (host.treeBy text l g) fun s => treeOf host text l s g := by
  have himport := importPack_steady host
  rw [Host.within, Host.treeBy]
  by_cases hpack : host.pack.isInstalled = true
  · rw [if_pos hpack] at himport ⊢
    rw [if_pos hpack]
    have hready : Steady host [g] _ fun s => ready host l s g := himport.andThen_ok (load_steady host l g) (by simp)
    cases hb : host.broken g with
    | some reason =>
      simp only [hb] at hready
      exact hready.andThen_error _
    | none =>
      simp only [hb] at hready
      exact hready.andThen_ok (.done _) (by simp)
  · rw [if_neg hpack] at himport ⊢
    rw [if_neg hpack]
    exact (himport.andThen_error _).andThen_error _

/-- The tree of a grammar, and with an error in it what comes of the others. -/
theorem first_then_steady {host : Host} {text : String} {l : Language} {g : String} {rest : List String}
    (hnodup : (g :: rest).Nodup) {next : Concrete.Node → Session → Parsed Concrete.Node}
    (hnext : ∀ tree, ∃ out, Steady host (host.within (host.tried text rest)) out (next tree)) :
    ∃ out, Steady host (host.within (host.tried text (g :: rest))) out fun s =>
      (treeOf host text l s g).andThen fun tree s => if tree.label.hasError then next tree s else ⟨.ok tree, s, []⟩ := by
  have htree := treeOf_steady host text l g
  cases hby : host.treeBy text l g with
  | error e =>
    rw [hby] at htree
    rw [Host.within_tried_of_error hby]
    exact ⟨_, htree.andThen_error _⟩
  | ok tree =>
    rw [hby] at htree
    rw [Host.within_tried_of_ok hby]
    by_cases he : tree.label.hasError = true
    · obtain ⟨out, hrest⟩ := hnext tree
      rw [if_pos he]
      refine ⟨out, htree.andThen_ok ?_ (Host.notMem_within_tried hnodup)⟩
      simpa only [if_pos he] using hrest
    · rw [if_neg he]
      refine ⟨.ok tree, htree.andThen_ok ?_ (by simp)⟩
      simpa only [if_neg he] using Steady.done _

/-- **Falling back** on the other grammars has one outcome, whichever of them are loaded. -/
theorem firstClean_steady (host : Host) (text : String) (l : Language) (first : Concrete.Node) :
    ∀ gs : List String, gs.Nodup →
      ∃ out, Steady host (host.within (host.tried text gs)) out (firstClean host text l first gs)
  | [], _ => by
    have hno : host.within (host.tried text []) = [] := by rw [Host.tried, Host.within, ite_self]
    rw [hno]
    exact ⟨.ok first, .done _⟩
  | _ :: rest, hnodup =>
    first_then_steady hnodup fun _ => firstClean_steady host text l first rest (List.nodup_cons.1 hnodup).2

theorem grammars_nodup (l : Language) : (tableOf l).grammars.Nodup := by
  cases l <;> decide

/-- The grammars that the parse of a text needs: none in a language without a table. -/
def Host.needs (host : Host) (text language : String) : List String :=
  match Language.ofName? language with
  | none => []
  | some l => host.within (host.tried text (tableOf l).grammars)

theorem chooseTree_steady (host : Host) (text : String) {t : Table} (h : t.grammars.Nodup) :
    ∃ out, Steady host (host.within (host.tried text t.grammars)) out (chooseTree host text t) :=
  first_then_steady h fun tree =>
    firstClean_steady host text t.language tree t.fallbacks (List.nodup_cons.1 h).2

/-- **A parse has one outcome**, and leaves one time budget, whichever grammars are loaded. -/
theorem parse_steady (host : Host) (tolerant : Bool) (text language : String) (deadline : Option Deadline) :
    ∃ out left, Steady host (host.needs text language) out (fun s => (parse host tolerant s text language deadline).1) ∧
      ∀ s : Session, s.Recalls host → (parse host tolerant s text language deadline).2 = left := by
  cases hl : Language.ofName? language with
  | none =>
    have hp : ∀ s, parse host tolerant s text language deadline =
        (⟨.error (.unknownLanguage language), s, []⟩, deadline) := fun s => by rw [parse, hl]
    simp only [Host.needs, hl, hp]
    exact ⟨_, deadline, .done _, fun _ _ => rfl⟩
  | some l =>
    obtain ⟨out, hchosen⟩ := chooseTree_steady host text (grammars_nodup l)
    have hneeds : host.needs text language = host.within (host.tried text (tableOf l).grammars) := by
      rw [Host.needs, hl]
    rw [hneeds]
    cases out with
    | error e =>
      have hp : ∀ s : Session, s.Recalls host → parse host tolerant s text language deadline =
          (⟨.error e, (chooseTree host text (tableOf l) s).session, (chooseTree host text (tableOf l) s).events⟩,
            deadline) := by
        intro s hs
        rw [parse, hl]
        dsimp only
        rw [(hchosen s hs).1]
      refine ⟨.error e, deadline, fun s hs => ?_, fun s hs => by rw [hp s hs]⟩
      dsimp only
      rw [hp s hs]
      exact ⟨rfl, (hchosen s hs).2⟩
    | ok tree =>
      have hp : ∀ s : Session, s.Recalls host → parse host tolerant s text language deadline =
          (⟨(canonical tolerant (tableOf l) text tree deadline).1, (chooseTree host text (tableOf l) s).session,
            (chooseTree host text (tableOf l) s).events⟩, (canonical tolerant (tableOf l) text tree deadline).2) := by
        intro s hs
        rw [parse, hl]
        dsimp only
        rw [(hchosen s hs).1]
      refine ⟨(canonical tolerant (tableOf l) text tree deadline).1, _, fun s hs => ?_, fun s hs => by rw [hp s hs]⟩
      dsimp only
      rw [hp s hs]
      exact ⟨rfl, (hchosen s hs).2⟩

/-! ## Histories -/

inductive Request where
  /-- Whether grammars can be asked for. -/
  | check
  | parse (text language : String) (deadline : Option Deadline)

inductive Answer where
  | available (yes : Bool)
  | tree (outcome : Except ParseError Syntax.Node)

structure Served where
  answer : Answer
  session : Session
  events : List Event

def Request.serve (host : Host) (tolerant : Bool) (s : Session) : Request → Served
  | .check =>
    let (yes, session) := checkAvailable host s
    ⟨.available yes, session, []⟩
  | .parse text language deadline =>
    let p := (Grammar.parse host tolerant s text language deadline).1
    ⟨.tree p.outcome, p.session, p.events⟩

def Request.needs (host : Host) : Request → List String
  | .check => []
  | .parse text language _ => host.needs text language

def Event.loaded? : Event → Option String
  | .asked _ => none
  | .loaded g => some g

theorem Event.loaded?_eq_some {e : Event} {g : String} : e.loaded? = some g ↔ e = .loaded g := by
  cases e <;> simp [loaded?]

structure History where
  answers : List Answer := []
  session : Session := {}
  events : List Event := []

def History.next (host : Host) (tolerant : Bool) (h : History) (q : Request) : History :=
  let now := q.serve host tolerant h.session
  ⟨h.answers ++ [now.answer], now.session, h.events ++ now.events⟩

def history (host : Host) (tolerant : Bool) (qs : List Request) : History := qs.foldl (History.next host tolerant) {}

theorem Request.needs_nodup (host : Host) : ∀ q : Request, (q.needs host).Nodup
  | .check => List.nodup_nil
  | .parse text language _ => by
    show (host.needs text language).Nodup
    unfold Host.needs Host.within
    cases Language.ofName? language with
    | none => exact List.nodup_nil
    | some l =>
      dsimp only
      split
      · exact (grammars_nodup l).sublist (host.tried_sublist text (tableOf l).grammars)
      · exact List.nodup_nil

/-- **A call has one answer**, whichever grammars are loaded. -/
theorem serve_steady {host : Host} (tolerant : Bool) (q : Request) {s : Session} (hs : s.Recalls host) :
    (q.serve host tolerant s).answer = (q.serve host tolerant {}).answer ∧
      Asks host s (q.needs host) (q.serve host tolerant s).events (q.serve host tolerant s).session := by
  have hfresh := Session.fresh_recalls host
  cases q with
  | check =>
    obtain ⟨hout, hasks⟩ := importPack_steady host s hs
    have hsame : (importPack host s).outcome = (importPack host {}).outcome := by
      rw [hout, (importPack_steady host {} hfresh).1]
    have hl : (importPack host s).session.loaded = s.loaded := by simpa using hasks.loaded
    exact ⟨congrArg (fun out : Except ParseError Unit => Answer.available out.toBool) hsame, .nothing hl hasks.recalls⟩
  | parse text language deadline =>
    obtain ⟨out, -, hparse, -⟩ := parse_steady host tolerant text language deadline
    have hsame : (Grammar.parse host tolerant s text language deadline).1.outcome =
        (Grammar.parse host tolerant {} text language deadline).1.outcome := by
      rw [(hparse s hs).1, (hparse {} hfresh).1]
    exact ⟨congrArg Answer.tree hsame, (hparse s hs).2⟩

/-! ### What a call asks for -/

section

variable {host : Host} {s s' : Session} {needs : List String} {events : List Event}

theorem Asks.asked_iff (h : Asks host s needs events s') (g : String) :
    .asked g ∈ events ↔ g ∈ needs ∧ g ∉ s.loaded := by
  have hone : ∀ x, .asked g ∈ host.attempt x ↔ g = x := fun x => by
    unfold Host.attempt
    cases host.broken x <;> simp
  rw [h.events]
  simp [hone]

theorem Asks.loaded_iff (h : Asks host s needs events s') (g : String) :
    .loaded g ∈ events ↔ .asked g ∈ events ∧ host.broken g = none := by
  have hone : ∀ x, .loaded g ∈ host.attempt x ↔ g = x ∧ host.broken g = none := fun x => by
    unfold Host.attempt
    cases hb : host.broken x with
    | some reason => simpa using fun hgx : g = x => by simp [hgx, hb]
    | none => simpa using fun hgx : g = x => hgx ▸ hb
  rw [h.asked_iff, h.events]
  simp [hone, and_assoc]

/-- What a call loads is loaded behind what was loaded before. -/
theorem Asks.loads (h : Asks host s needs events s') : s'.loaded = s.loaded ++ events.filterMap Event.loaded? := by
  have hone : ∀ x, (host.attempt x).filterMap Event.loaded? = if (host.broken x).isNone then [x] else [] := fun x => by
    unfold Host.attempt
    cases host.broken x <;> rfl
  have hall : ∀ gs : List String,
      (gs.flatMap host.attempt).filterMap Event.loaded? = gs.filter fun x => (host.broken x).isNone := by
    intro gs
    induction gs with
    | nil => rfl
    | cons x xs ih => rw [List.flatMap_cons, List.filterMap_append, hone, ih, List.filter_cons]; split <;> rfl
  rw [h.loaded, h.events, hall, List.filter_filter]
  simp only [Bool.and_comm]

theorem Asks.nodup (h : Asks host s needs events s') (hneeds : needs.Nodup) (hs : s.loaded.Nodup) : s'.loaded.Nodup := by
  rw [h.loaded, List.nodup_append]
  refine ⟨hs, hneeds.filter _, fun x hx y hy hxy => ?_⟩
  subst hxy
  simp [hx] at hy

end

/-! ### Whole histories -/

/-- What holds of a parser whenever it has answered calls. -/
structure History.Kept (host : Host) (tolerant : Bool) (qs : List Request) (h : History) : Prop where
  answers : h.answers = qs.map fun q => (q.serve host tolerant {}).answer
  recalls : h.session.Recalls host
  loaded : h.session.loaded = h.events.filterMap Event.loaded?
  nodup : h.session.loaded.Nodup

theorem History.Kept.loaded_iff {host : Host} {tolerant : Bool} {qs : List Request} {h : History}
    (hk : h.Kept host tolerant qs) (g : String) : .loaded g ∈ h.events ↔ g ∈ h.session.loaded := by
  rw [hk.loaded, List.mem_filterMap]
  constructor
  · exact fun hg => ⟨_, hg, rfl⟩
  · rintro ⟨e, he, heg⟩
    rwa [← Event.loaded?_eq_some.1 heg]

theorem History.Kept.next {host : Host} {tolerant : Bool} {qs : List Request} {h : History}
    (hk : h.Kept host tolerant qs) (q : Request) : (h.next host tolerant q).Kept host tolerant (qs ++ [q]) := by
  obtain ⟨hanswer, hasks⟩ := serve_steady tolerant q hk.recalls
  exact {
    answers := by
      rw [List.map_append, ← hk.answers]
      exact congrArg (h.answers ++ [·]) hanswer
    recalls := hasks.recalls
    loaded := by
      rw [History.next, List.filterMap_append, ← hk.loaded]
      exact hasks.loads
    nodup := hasks.nodup (q.needs_nodup host) hk.nodup }

theorem History.Kept.run {host : Host} {tolerant : Bool} {done : List Request} {h : History} (hk : h.Kept host tolerant done)
    (qs : List Request) : (qs.foldl (History.next host tolerant) h).Kept host tolerant (done ++ qs) := by
  induction qs generalizing done h with
  | nil => rwa [List.append_nil]
  | cons q qs ih =>
    rw [List.foldl_cons, List.append_cons]
    exact ih (hk.next q)

/-- **Whatever a parser has been asked**, it has answered as a new one does, and it has loaded no grammar twice. -/
theorem history_kept (host : Host) (tolerant : Bool) (qs : List Request) :
    (history host tolerant qs).Kept host tolerant qs := by
  have hnew : ({} : History).Kept host tolerant [] := ⟨rfl, Session.fresh_recalls host, rfl, List.nodup_nil⟩
  exact hnew.run qs

end CodeReview.Grammar
