import CodeReview.Proofs.Analyzer.Looks
import CodeReview.Proofs.Grammar.Parsing
import CodeReview.Run.File
/-!
# Time budgets of files

A time budget is all or nothing: under it a file has the result that it has without one, or that of a file that took too
long (`analyzeWithin_cases`).

The passes over a tree and the measuring after them are computations within a budget, one after the other
(`passesOf`, `measureOf`), and the result of a file is read off what they come to (`ofTree_eq`).  They are timely
because each analyzer is; with the built-in analyzers their looks at the clock can be counted (`fileOf_polled`).
-/
namespace CodeReview.Run
namespace FileAnalyzer

open Grammar (ParseError Session)
open Number (Quantity)
open Syntax (Budgeted Deadline Metrics Polled Timely)

/-! ## The passes as a computation within a budget -/

def Passes.under (p : Passes) (deadline : Option Deadline) : Passes := { p with deadline }

/-- What passes have come to: the failure of the budget if it is spent. -/
def Passes.outcome (p : Passes) : Except Failure Passes × Option Deadline :=
  (match p.spent with
    | some e => .error e
    | none => .ok (p.under none), p.deadline)

def passOf (c : Context) (root : Syntax.Node) (p : Passes) (x : Analyzer) : Budgeted Passes :=
  fun dl => ((p.under dl).analyze c root x).outcome

def passesOf (c : Context) (root : Syntax.Node) (xs : List Analyzer) (p : Passes) : Budgeted Passes :=
  fun dl => (xs.foldl (Passes.analyze c root) (p.under dl)).outcome

theorem Passes.outcome_of_spent {p : Passes} {e : Failure} (h : p.spent = some e) : p.outcome = (.error e, p.deadline) := by
  rw [outcome, h]

theorem Passes.outcome_of_unspent {p : Passes} (h : p.spent = none) : p.outcome = (.ok (p.under none), p.deadline) := by
  rw [outcome, h]

theorem analyze_of_spent {c : Context} {root : Syntax.Node} {p : Passes} {e : Failure} (h : p.spent = some e)
    (x : Analyzer) : p.analyze c root x = p := by
  rw [Passes.analyze, h]
  rfl

theorem foldl_of_spent {c : Context} {root : Syntax.Node} {p : Passes} {e : Failure} (h : p.spent = some e) :
    ∀ (xs : List Analyzer), xs.foldl (Passes.analyze c root) p = p
  | [] => rfl
  | x :: xs => by rw [List.foldl_cons, analyze_of_spent h x, foldl_of_spent h xs]

theorem passesOf_nil {c : Context} {root : Syntax.Node} {p : Passes} (h : p.spent = none) :
    passesOf c root [] p = fun dl => (.ok (p.under none), dl) :=
  funext fun dl => Passes.outcome_of_unspent (p := p.under dl) h

theorem passesOf_nil_of_spent {c : Context} {root : Syntax.Node} {p : Passes} {e : Failure} (h : p.spent = some e) :
    passesOf c root [] p = fun dl => (.error e, dl) :=
  funext fun dl => Passes.outcome_of_spent (p := p.under dl) h

theorem passesOf_cons (c : Context) (root : Syntax.Node) (x : Analyzer) (xs : List Analyzer) (p : Passes) :
    passesOf c root (x :: xs) p = (passOf c root p x).andThen (passesOf c root xs) := by
  funext dl
  rw [passesOf, List.foldl_cons, Budgeted.andThen, passOf]
  generalize (p.under dl).analyze c root x = q
  -- spent passes stay as they are, so the others have nothing to add to their outcome
  cases hq : q.spent with
  | some e => rw [foldl_of_spent hq, Passes.outcome_of_spent hq]
  | none => rw [Passes.outcome_of_unspent hq]; rfl

/-- What a pass makes of the outcome of its analyzer: a timeout ends the passes, another failure is noted. -/
def Passes.absorb (p : Passes) (c : Context) (x : Analyzer) : Except Failure (List Finding) → Except Failure Passes
  | .ok fs => .ok { p with findings := p.findings ++ fs, deadline := none }
  | .error why =>
    if why.isTimeout then .error why
    else .ok ((p.failed x.name c.path ("Analyzer " ++ x.name) why).under none)

theorem passOf_of_applies {c : Context} {root : Syntax.Node} {p : Passes} {x : Analyzer} (hp : p.spent = none)
    (hx : x.applies c = true) :
    passOf c root p x = fun dl => (p.absorb c x (x.analyze c root dl).1, (x.analyze c root dl).2) := by
  funext dl
  have hgo : ¬ ((p.under dl).spent.isSome || !x.applies c) = true := by
    rw [Passes.under, hp, hx]
    decide
  rcases hr : x.analyze c root dl with ⟨e | fs, dl'⟩
  · have hr' : x.analyze c root (p.under dl).deadline = (.error e, dl') := hr
    rw [passOf, Passes.analyze, if_neg hgo, hr', Passes.absorb]
    cases he : e.isTimeout with
    | true => simp only [Passes.outcome, he, if_true]
    | false => simp only [Passes.outcome, Passes.failed, Passes.under, he, hp, Bool.false_eq_true, if_false]
  · have hr' : x.analyze c root (p.under dl).deadline = (.ok fs, dl') := hr
    rw [passOf, Passes.analyze, if_neg hgo, hr', Passes.absorb]
    simp only [Passes.outcome, Passes.under, hp]

theorem passOf_of_not_applies {c : Context} {root : Syntax.Node} {p : Passes} {x : Analyzer} (hp : p.spent = none)
    (hx : x.applies c = false) : passOf c root p x = fun dl => (.ok (p.under none), dl) := by
  funext dl
  have hp' : (p.under dl).spent = none := hp
  rw [passOf, Passes.analyze, hx, Bool.not_false, Bool.or_true, if_pos rfl, Passes.outcome_of_unspent hp']
  rfl

theorem passOf_of_spent {c : Context} {root : Syntax.Node} {p : Passes} {x : Analyzer} {e : Failure}
    (hp : p.spent = some e) : passOf c root p x = fun dl => (.error e, dl) := by
  funext dl
  have hp' : (p.under dl).spent = some e := hp
  rw [passOf, analyze_of_spent hp', Passes.outcome_of_spent hp']
  rfl

theorem passOf_timely (c : Context) (root : Syntax.Node) (p : Passes) {x : Analyzer} (hx : x.Timely) :
    Timely (passOf c root p x) := by
  cases hp : p.spent with
  | some e => rw [passOf_of_spent hp]; exact (Syntax.polled_pure _).timely
  | none =>
    cases ha : x.applies c with
    | false => rw [passOf_of_not_applies hp ha]; exact (Syntax.polled_pure _).timely
    | true => rw [passOf_of_applies hp ha]; exact (hx c root).map (p.absorb c x) (fun _ => rfl)

theorem passesOf_timely (c : Context) (root : Syntax.Node) : ∀ (xs : List Analyzer) (p : Passes),
    (∀ x ∈ xs, x.Timely) → Timely (passesOf c root xs p)
  | [], p, _ => by
    cases hp : p.spent with
    | some e => rw [passesOf_nil_of_spent hp]; exact (Syntax.polled_pure _).timely
    | none => rw [passesOf_nil hp]; exact (Syntax.polled_pure _).timely
  | x :: xs, p, h => by
    rw [passesOf_cons]
    exact (passOf_timely c root p (h x (by simp))).andThen
      (fun q => passesOf_timely c root xs q (fun y hy => h y (by simp [hy])))

def passLooks (c : Context) (ps : List (Analyzer × Nat)) : Nat := ((ps.filter fun x => x.1.applies c).map (·.2)).sum

theorem passOf_ok (c : Context) (root : Syntax.Node) {p : Passes} {x : Analyzer} (hp : p.spent = none)
    (hx : x.Untimed) : ∃ q, (passOf c root p x none).1 = .ok q ∧ q.spent = none := by
  cases ha : x.applies c with
  | false =>
    rw [passOf_of_not_applies hp ha]
    exact ⟨p.under none, rfl, hp⟩
  | true =>
    rw [passOf_of_applies hp ha]
    dsimp only
    cases hr : (x.analyze c root none).1 with
    | ok fs => exact ⟨_, rfl, hp⟩
    | error e =>
      rw [Passes.absorb, hx c root e hr]
      exact ⟨_, rfl, hp⟩

theorem passOf_polled {c : Context} {root : Syntax.Node} {p : Passes} {x : Analyzer} {m : Nat} (hp : p.spent = none)
    (hx : Polled (x.analyze c root) m) : Polled (passOf c root p x) (if x.applies c = true then m else 0) := by
  cases ha : x.applies c with
  | false => rw [passOf_of_not_applies hp ha]; exact Syntax.polled_pure _
  | true => rw [passOf_of_applies hp ha]; exact hx.map (p.absorb c x) (fun _ => rfl)

/-- **The looks of passes one after the other add up.** -/
theorem passesOf_polled (c : Context) (root : Syntax.Node) : ∀ (ps : List (Analyzer × Nat)) (p : Passes), p.spent = none →
    (∀ x ∈ ps, Polled (x.1.analyze c root) x.2 ∧ x.1.Untimed) →
    Polled (passesOf c root (ps.map (·.1)) p) (passLooks c ps) ∧
      ∃ q, (passesOf c root (ps.map (·.1)) p none).1 = .ok q ∧ q.spent = none
  | [], p, hp, _ => by
    rw [List.map_nil, passesOf_nil hp]
    exact ⟨Syntax.polled_pure _, p.under none, rfl, hp⟩
  | (x, m) :: ps, p, hp, h => by
    obtain ⟨hx, hu⟩ := h (x, m) (by simp)
    obtain ⟨q, hq, hqs⟩ := passOf_ok c root hp hu
    obtain ⟨hrest, r, hr, hrs⟩ := passesOf_polled c root ps q hqs (fun y hy => h y (by simp [hy]))
    have hone := passOf_polled hp hx
    have hlooks : passLooks c ((x, m) :: ps) = (if x.applies c = true then m else 0) + passLooks c ps := by
      rw [passLooks, passLooks, List.filter_cons]
      cases x.applies c <;> simp
    rw [List.map_cons, passesOf_cons, hlooks]
    refine ⟨hone.andThen hq hrest, r, ?_, hrs⟩
    rw [Syntax.andThen_none hone.free hq]
    exact hr

/-! ## The measuring after them -/

/-- What the measuring makes of the outcome of collecting metrics. -/
def measured (path : String) (lines : Nat) (p : Passes) : Except Failure Metrics → Except Failure (Metrics × Passes)
  | .ok m => .ok (m, p.under none)
  | .error why =>
    if why.isTimeout then .error why else .ok ({ lines }, (p.failed "metrics" path "Metrics collection" why).under none)

def measureOf (a : FileAnalyzer) (path : String) (root : Syntax.Node) (lines : Nat) (p : Passes) :
    Budgeted (Metrics × Passes) :=
  fun dl =>
    ((a.measure path root lines (p.under dl)).2.outcome.1.map fun q => ((a.measure path root lines (p.under dl)).1, q),
      (a.measure path root lines (p.under dl)).2.deadline)

theorem measureOf_of_unspent (a : FileAnalyzer) (path : String) (root : Syntax.Node) (lines : Nat) {p : Passes}
    (hp : p.spent = none) :
    measureOf a path root lines p = fun dl =>
      (measured path lines p (a.collect root lines dl).1, (a.collect root lines dl).2) := by
  funext dl
  have hgo : ¬ (p.under dl).spent.isSome = true := by
    rw [Passes.under, hp]
    decide
  rcases hr : a.collect root lines dl with ⟨e | m, dl'⟩
  · have hr' : a.collect root lines (p.under dl).deadline = (.error e, dl') := hr
    rw [measureOf, measure, if_neg hgo, hr', measured]
    cases he : e.isTimeout with
    | true => simp only [Passes.outcome, he, if_true]; rfl
    | false =>
      simp only [Passes.outcome, Passes.failed, Passes.under, he, hp, Bool.false_eq_true, if_false]
      rfl
  · have hr' : a.collect root lines (p.under dl).deadline = (.ok m, dl') := hr
    rw [measureOf, measure, if_neg hgo, hr', measured]
    simp only [Passes.outcome, Passes.under, hp]
    rfl

theorem measureOf_of_spent (a : FileAnalyzer) (path : String) (root : Syntax.Node) (lines : Nat) {p : Passes}
    {e : Failure} (hp : p.spent = some e) : measureOf a path root lines p = fun dl => (.error e, dl) := by
  funext dl
  have hp' : (p.under dl).spent = some e := hp
  rw [measureOf, measure, hp', Option.isSome_some, if_pos rfl, Passes.outcome_of_spent hp']
  rfl

theorem collectMetrics_polled (root : Syntax.Node) (lines : Int) :
    Polled (Syntax.collectMetrics root lines) (root.size / 512) :=
  Syntax.Walk.fold_ok_polled (fun (m : Metrics) v => m.count v.node.label) ⟨1, lines, 0, 0⟩ root

theorem measureOf_polled {a : FileAnalyzer} (ha : a.collect = Syntax.collectMetrics) (path : String)
    (root : Syntax.Node) (lines : Nat) {p : Passes} (hp : p.spent = none) :
    Polled (measureOf a path root lines p) (root.size / 512) := by
  rw [measureOf_of_unspent a path root lines hp, ha]
  exact (collectMetrics_polled root lines).map (measured path lines p) (fun _ => rfl)

theorem measureOf_timely {a : FileAnalyzer} (ha : a.collect = Syntax.collectMetrics) (path : String)
    (root : Syntax.Node) (lines : Nat) (p : Passes) : Timely (measureOf a path root lines p) := by
  cases hp : p.spent with
  | some e => rw [measureOf_of_spent a path root lines hp]; exact (Syntax.polled_pure _).timely
  | none => exact (measureOf_polled ha path root lines hp).timely

theorem measureOf_ok {a : FileAnalyzer} (ha : a.collect = Syntax.collectMetrics) (path : String)
    (root : Syntax.Node) (lines : Nat) {p : Passes} (hp : p.spent = none) :
    ∃ m, (measureOf a path root lines p none).1 = .ok (m, p.under none) := by
  rw [measureOf_of_unspent a path root lines hp, ha]
  dsimp only
  rw [Syntax.collectMetrics, Syntax.Walk.fold_ok_none]
  exact ⟨_, rfl⟩

/-! ## Files with a tree -/

def fileOf (a : FileAnalyzer) (path language : String) (lines : Nat) (root : Syntax.Node) :
    Budgeted (Metrics × Passes) :=
  (passesOf ⟨path, language, a.rules⟩ root a.registry.analyzers { deadline := none }).andThen
    (measureOf a path root lines)

def report (a : FileAnalyzer) (path language : String) (lines : Nat) : Except Failure (Metrics × Passes) → FileResult
  | .error e => a.unparsed path language lines e.message true
  | .ok (metrics, p) => {
      path
      language := some language
      metrics
      findings := a.finish path p.findings
      errors := p.errors
      parsed := true
      duration := .decimal a.elapsed }

/-- **The result of a file with a tree** is read off what the passes and the measuring come to. -/
theorem ofTree_eq (a : FileAnalyzer) (path language : String) (lines : Nat) (root : Syntax.Node) (dl : Option Deadline) :
    (a.ofTree path language lines root dl).1 = a.report path language lines (a.fileOf path language lines root dl).1 := by
  have hstart : ({ deadline := none } : Passes).under dl = { deadline := dl } := rfl
  rw [ofTree, fileOf, Budgeted.andThen, passesOf, hstart]
  dsimp only
  generalize a.registry.analyzers.foldl (Passes.analyze ⟨path, language, a.rules⟩ root) { deadline := dl } = p
  cases hp : p.spent with
  | some e =>
    rw [Passes.outcome_of_spent hp, measure, hp, Option.isSome_some, if_pos rfl]
    dsimp only
    rw [hp]
    rfl
  | none =>
    rw [Passes.outcome_of_unspent hp]
    dsimp only [measureOf]
    have hback : (p.under none).under p.deadline = p := rfl
    rw [hback]
    cases hq : (a.measure path root lines p).2.spent with
    | some e => rw [Passes.outcome_of_spent hq]; rfl
    | none => rw [Passes.outcome_of_unspent hq]; rfl

theorem fileOf_timely {a : FileAnalyzer} (ha : a.collect = Syntax.collectMetrics)
    (hx : ∀ x ∈ a.registry.analyzers, x.Timely) (path language : String) (lines : Nat) (root : Syntax.Node) :
    Timely (a.fileOf path language lines root) :=
  (passesOf_timely ⟨path, language, a.rules⟩ root a.registry.analyzers { deadline := none } hx).andThen
    (measureOf_timely ha path root lines)

/-- The looks at the clock after a tree has been parsed whose analysis is by the built-in analyzers. -/
def treeLooks (c : Context) (root : Syntax.Node) : Nat :=
  passLooks c (Analyzer.builtinPasses.map fun x => (x.1, x.2 c root / 512)) + root.size / 512

/-- **With the built-in analyzers the looks at the clock are known**, and a file with a tree has a result. -/
theorem fileOf_polled {a : FileAnalyzer} (ha : a.collect = Syntax.collectMetrics) (hb : a.registry = .builtin)
    (path language : String) (lines : Nat) (root : Syntax.Node) :
    Polled (a.fileOf path language lines root) (treeLooks ⟨path, language, a.rules⟩ root) ∧
      ∃ out, (a.fileOf path language lines root none).1 = .ok out := by
  let c : Context := ⟨path, language, a.rules⟩
  let ps := Analyzer.builtinPasses.map fun x => (x.1, x.2 c root / 512)
  have hps : ps.map (·.1) = a.registry.analyzers := by
    rw [hb, List.map_map]
    exact Analyzer.builtinPasses_map_fst
  have hall : ∀ x ∈ ps, Polled (x.1.analyze c root) x.2 ∧ x.1.Untimed := fun x hx => by
    obtain ⟨y, hy, rfl⟩ := List.mem_map.1 hx
    exact ⟨Analyzer.builtin_polled c root y hy, Analyzer.builtin_untimed y hy⟩
  obtain ⟨hpasses, q, hq, hqs⟩ := passesOf_polled c root ps { deadline := none } rfl hall
  rw [hps] at hpasses hq
  obtain ⟨m, hm⟩ := measureOf_ok ha path root lines hqs
  refine ⟨hpasses.andThen hq (measureOf_polled ha path root lines hqs), (m, q.under none), ?_⟩
  rw [fileOf, Syntax.andThen_none hpasses.free hq]
  exact hm

/-! ## All or nothing -/

/-- A file analyzer that parses with the grammars of a host, within a time budget or without one. -/
def on (a : FileAnalyzer) (host : Grammar.Host) (tolerant : Bool) (timeout : Option Quantity) : FileAnalyzer :=
  { a with parse := hostParse host tolerant, collect := Syntax.collectMetrics, timeout }

def timedOut (a : FileAnalyzer) (path text language : String) (budget : Quantity) : FileResult :=
  a.unparsed path language (Text.countLines text) (Failure.timeout budget).message true

/-- The looks at the clock of a whole analysis by the built-in analyzers: those of the parse that makes the tree, those
of the analyzers that apply, and those of the measuring. -/
def looksOf (c : Context) (root : Syntax.Node) : Nat := root.size / 512 + treeLooks c root

/-- **The result of a file** is that of its parse, or that of its tree with what the parse has left of the budget. -/
theorem analyzeWithin_result (a : FileAnalyzer) (session : Session) (path text language : String)
    (dl : Option Deadline) :
    (a.analyzeWithin session path text language dl).result =
      match (a.parse session path text language dl).1.outcome with
      | .error e => (a.parseFailed path language (Text.countLines text) e).1
      | .ok root =>
        a.report path language (Text.countLines text)
          (a.fileOf path language (Text.countLines text) root (a.parse session path text language dl).2).1 := by
  rw [analyzeWithin]
  dsimp only
  cases (a.parse session path text language dl).1.outcome with
  | error e => rfl
  | ok root => exact a.ofTree_eq path language (Text.countLines text) root _

theorem analyzeWithin_session (a : FileAnalyzer) (session : Session) (path text language : String) (dl : Option Deadline) :
    (a.analyzeWithin session path text language dl).session = (a.parse session path text language dl).1.session := by
  rw [analyzeWithin]
  dsimp only
  cases (a.parse session path text language dl).1.outcome <;> rfl

theorem analyzeWithin_of_error {a : FileAnalyzer} {host : Grammar.Host} {tolerant : Bool} {timeout : Option Quantity}
    {session : Session} {path text language : String} {e : ParseError}
    (h : (Grammar.parse host tolerant session text language none).1.outcome = .error e) (dl : Option Deadline) :
    ((a.on host tolerant timeout).analyzeWithin session path text language dl).result =
      ((a.on host tolerant timeout).parseFailed path language (Text.countLines text) e).1 := by
  have hp : (a.on host tolerant timeout).parse session path text language dl =
      Grammar.parse host tolerant session text language dl := rfl
  rw [analyzeWithin_result, hp, Grammar.parse_of_error h dl, h]

theorem analyzeWithin_of_parse {a : FileAnalyzer} {host : Grammar.Host} {tolerant : Bool} {timeout : Option Quantity}
    {session : Session} {path text language : String} {run : Budgeted Syntax.Node} {dl : Option Deadline}
    (hout : (Grammar.parse host tolerant session text language dl).1.outcome = (run dl).1.mapError .failed)
    (hdl : (Grammar.parse host tolerant session text language dl).2 = (run dl).2)
    (he : ∀ e, (run dl).1 = .error e → ∃ b, e = .timeout b) :
    ((a.on host tolerant timeout).analyzeWithin session path text language dl).result =
      a.report path language (Text.countLines text)
        (run.andThen ((a.on host tolerant timeout).fileOf path language (Text.countLines text)) dl).1 := by
  have hp : (a.on host tolerant timeout).parse session path text language dl =
      Grammar.parse host tolerant session text language dl := rfl
  rw [analyzeWithin_result, hp, hout, hdl, Budgeted.andThen]
  rcases hr : run dl with ⟨e | root, dl'⟩
  · obtain ⟨b, rfl⟩ := he e (by rw [hr])
    rfl
  · rfl

theorem analyzeWithin_elapsed (a : FileAnalyzer) (elapsed : Float) (session : Session) (path text language : String)
    (dl : Option Deadline) :
    (({ a with elapsed } : FileAnalyzer).analyzeWithin session path text language dl).result =
      { (a.analyzeWithin session path text language dl).result with duration := .decimal elapsed } := by
  have hp : ({ a with elapsed } : FileAnalyzer).parse = a.parse := rfl
  have hf : ({ a with elapsed } : FileAnalyzer).fileOf = a.fileOf := rfl
  rw [analyzeWithin_result, analyzeWithin_result, hp, hf]
  cases (a.parse session path text language dl).1.outcome with
  | error e =>
    cases e with
    | failed why => cases why <;> rfl
    | _ => rfl
  | ok root =>
    dsimp only
    generalize (a.fileOf path language (Text.countLines text) root (a.parse session path text language dl).2).1 = out
    cases out <;> rfl

/-- That two results of a file differ in how long it took at most. -/
def Agrees (r s : FileResult) : Prop := r = { s with duration := r.duration }

theorem agrees_of_eq (a : FileAnalyzer) (host : Grammar.Host) (tolerant : Bool) (timeout : Option Quantity)
    (elapsed : Float) {session : Session} {path text language : String} {r : FileResult}
    (h : r = ((a.on host tolerant timeout).analyzeWithin session path text language none).result) :
    Agrees r (({ a.on host tolerant none with elapsed } : FileAnalyzer).analyzeWithin session path text language
      none).result := by
  have hsame : (a.on host tolerant none).analyzeWithin session path text language none =
      (a.on host tolerant timeout).analyzeWithin session path text language none := rfl
  rw [analyzeWithin_elapsed, hsame, ← h]
  rfl

theorem unparsed_findings (a : FileAnalyzer) (path language : String) (lines : Nat) (message : String) (timedOut : Bool) :
    (a.unparsed path language lines message timedOut).findings =
      [(a.unparsedFinding path message timedOut).withId
        (numberedId path (a.unparsedFinding path message timedOut) 1)] := by
  have hk : a.keeps (a.unparsedFinding path message timedOut) = true := by
    rw [keeps, show (a.unparsedFinding path message timedOut).rule.id = parseErrorId from rfl, beq_self_eq_true,
      Bool.or_true]
  rw [unparsed, finish, List.filter_cons, if_pos hk]
  rfl

theorem budget_eq {a : FileAnalyzer} {timeout : Quantity} {d : Deadline} (ht : a.timeout = some timeout)
    (hd : a.budget = .ok (some d)) : d = ⟨timeout, d.expiresAt, a.clock, 1⟩ := by
  rw [budget, ht, Option.filter_some] at hd
  cases hz : timeout.isZero with
  | true => rw [hz] at hd; cases hd
  | false =>
    rw [hz, Bool.not_false, if_pos rfl, Option.mapM_some, Deadline.start] at hd
    cases ha : (a.clock 0).add timeout with
    | none => rw [ha] at hd; cases hd
    | some e => rw [ha] at hd; cases hd; rfl

theorem analyze_of_budget {a : FileAnalyzer} {path language : String} {given : Option String}
    {dl : Option Deadline} (hl : languageOf path given = some language) (hb : a.budget = .ok dl) (session : Session)
    (text : String) :
    a.analyze session path text given = .ok (a.analyzeWithin session path text language dl) := by
  rw [analyze, hl]
  dsimp only
  rw [analyzeAs, hb]
  rfl

section

variable {a : FileAnalyzer} {host : Grammar.Host} {tolerant : Bool} {timeout : Option Quantity} {d : Deadline}
  {session : Session} {path text language : String}

/-- Within a time budget a file in a language has the result it has without one, or that of a timeout. -/
theorem analyzeWithin_cases (ht : d.budget.toFloat?.isSome = true) (hx : ∀ x ∈ a.registry.analyzers, x.Timely) :
    ((a.on host tolerant timeout).analyzeWithin session path text language (some d)).result =
        ((a.on host tolerant timeout).analyzeWithin session path text language none).result ∨
      ((a.on host tolerant timeout).analyzeWithin session path text language (some d)).result =
        a.timedOut path text language d.budget := by
  cases ho : (Grammar.parse host tolerant session text language none).1.outcome with
  | error e => exact .inl (by rw [analyzeWithin_of_error ho, analyzeWithin_of_error ho])
  | ok root =>
    obtain ⟨run, hrun, hroot, hparse⟩ := Grammar.parse_of_ok ho
    have hfree : ∀ e, (run none).1 = .error e → ∃ b, e = .timeout b := fun e he => by
      rw [hroot] at he
      cases he
    have hspent : ∀ e, (run (some d)).1 = .error e → ∃ b, e = .timeout b := fun e he =>
      ⟨d.budget, hrun.timely.error_of_ok ht hroot he⟩
    rw [analyzeWithin_of_parse (hparse (some d)).1 (hparse (some d)).2 hspent,
      analyzeWithin_of_parse (hparse none).1 (hparse none).2 hfree]
    have hwhole := hrun.timely.andThen fun root =>
      fileOf_timely (a := a.on host tolerant timeout) rfl hx path language (Text.countLines text) root
    obtain ⟨k, hk | hk⟩ := hwhole.within d ht
    · exact .inl (by rw [hk])
    · exact .inr (by rw [hk]; rfl)

variable (timeout path language) in
/-- **The looks of the built-in analyzers decide** which of the two results a file with a tree has. -/
theorem analyzeWithin_builtin (ht : d.budget.toFloat?.isSome = true) (hb : a.registry = .builtin) {root : Syntax.Node}
    (ho : (Grammar.parse host tolerant session text language none).1.outcome = .ok root) :
    ((a.on host tolerant timeout).analyzeWithin session path text language none).result.parsed = true ∧
      ((∀ k < looksOf ⟨path, language, a.rules⟩ root, d.spentAt k = false) →
        ((a.on host tolerant timeout).analyzeWithin session path text language (some d)).result =
          ((a.on host tolerant timeout).analyzeWithin session path text language none).result) ∧
      ((∃ k < looksOf ⟨path, language, a.rules⟩ root, d.spentAt k = true) →
        ((a.on host tolerant timeout).analyzeWithin session path text language (some d)).result =
          a.timedOut path text language d.budget) := by
  obtain ⟨run, hrun, hroot, hparse⟩ := Grammar.parse_of_ok ho
  obtain ⟨hfile, out, hout⟩ :=
    fileOf_polled (a := a.on host tolerant timeout) rfl hb path language (Text.countLines text) root
  have hwhole := hrun.andThen hroot hfile
  have hfree : ((a.on host tolerant timeout).analyzeWithin session path text language none).result =
      a.report path language (Text.countLines text) (.ok out) := by
    rw [analyzeWithin_of_parse (hparse none).1 (hparse none).2 (fun e he => by rw [hroot] at he; cases he),
      Syntax.andThen_none hrun.free hroot, hout]
  have hspent : ∀ e, (run (some d)).1 = .error e → ∃ b, e = .timeout b := fun e he =>
    ⟨d.budget, hrun.timely.error_of_ok ht hroot he⟩
  rw [hfree, analyzeWithin_of_parse (hparse (some d)).1 (hparse (some d)).2 hspent]
  refine ⟨rfl, fun hu => ?_, fun ⟨k, hk, hs⟩ => ?_⟩
  · rw [hwhole.unspent d ht hu, Syntax.andThen_none hrun.free hroot, hout]
  · rcases Deadline.lookOn_cases (looksOf ⟨path, language, a.rules⟩ root) d with ⟨hu, -⟩ | ⟨j, hj, hsj, huj, -⟩
    · rw [hu k hk] at hs
      cases hs
    · rw [hwhole.spent d j ht hj hsj huj]
      rfl

end

theorem looksOf_of_small {root : Syntax.Node} (h : root.size < 512) (c : Context) : looksOf c root = 0 := by
  have hpasses : passLooks c (Analyzer.builtinPasses.map fun x => (x.1, x.2 c root / 512)) = 0 := by
    refine List.sum_eq_zero fun m hm => ?_
    obtain ⟨y, hy, rfl⟩ := List.mem_map.1 hm
    obtain ⟨x, hx, rfl⟩ := List.mem_map.1 (List.mem_of_mem_filter hy)
    exact Nat.div_eq_of_lt (Nat.lt_of_le_of_lt (Analyzer.builtinPasses_le c root x hx) h)
  rw [looksOf, treeLooks, hpasses, Nat.div_eq_of_lt h]

/-- What the result of a file says that took longer than a time budget, and that it says nothing else. -/
structure TellsTimeout (r : FileResult) (path text language : String) (budget : Quantity) : Prop where
  path_eq : r.path = path
  language_eq : r.language = some language
  parsed : r.parsed = false
  metrics : r.metrics = ⟨0, Text.countLines text, 0, 0⟩
  findings : ∃ f : Finding, r.findings = [f.withId (numberedId path f 1)] ∧ f.rule.id = parseErrorId ∧
    f.metadata = [("tags", .texts ["timeout"])] ∧
    f.description = "Failed to parse file: " ++ (Failure.timeout budget).message
  errors : r.errors =
    [{ component := "engine", message := (Failure.timeout budget).message, filePath := some path }]

theorem timedOut_tells (a : FileAnalyzer) (path text language : String) (budget : Quantity) :
    TellsTimeout (a.timedOut path text language budget) path text language budget where
  path_eq := rfl
  language_eq := rfl
  parsed := rfl
  metrics := rfl
  findings := ⟨a.unparsedFinding path (Failure.timeout budget).message true,
    a.unparsed_findings path language (Text.countLines text) (Failure.timeout budget).message true, rfl, rfl, rfl⟩
  errors := rfl

/-- **A time budget is all or nothing.**  With timely analyzers the result within a budget, a number of seconds in the
range of doubles, is the one without, however long each took, or that of a file that took too long, which tells of the
timeout and of nothing else.  With the built-in analyzers it is the second exactly if one of the looks at the clock finds
the budget spent; a tree of fewer than 512 nodes has none. -/
theorem budget_all_or_nothing (a : FileAnalyzer) (host : Grammar.Host) (tolerant : Bool) (timeout : Quantity)
    (elapsed : Float) (d : Deadline) (session : Session) (path text : String) (given : Option String)
    (hd : (a.on host tolerant (some timeout)).budget = .ok (some d)) (ht : timeout.toFloat?.isSome = true)
    (hx : ∀ x ∈ a.registry.analyzers, x.Timely) :
    ∃ r free, (a.on host tolerant (some timeout)).analyze session path text given = .ok r ∧
      ({ a.on host tolerant none with elapsed } : FileAnalyzer).analyze session path text given = .ok free ∧
      (Agrees r.result free.result ∨
        ∃ language, languageOf path given = some language ∧ r.result = a.timedOut path text language timeout) ∧
      ∀ language, languageOf path given = some language →
        TellsTimeout (a.timedOut path text language timeout) path text language timeout ∧
        (a.registry = .builtin →
          (∀ e, (Grammar.parse host tolerant session text language none).1.outcome = .error e →
            Agrees r.result free.result) ∧
          ∀ root, (Grammar.parse host tolerant session text language none).1.outcome = .ok root →
            (r.result = a.timedOut path text language timeout ↔
              ∃ k < looksOf ⟨path, language, a.rules⟩ root, d.expiresAt.atMost (a.clock (k + 1)) = true) ∧
            (root.size < 512 → Agrees r.result free.result)) := by
  have hdeq : d = ⟨timeout, d.expiresAt, a.clock, 1⟩ :=
    budget_eq (a := a.on host tolerant (some timeout)) rfl hd
  have hbudget : d.budget = timeout := congrArg Deadline.budget hdeq
  have hclock : ∀ k, d.spentAt k = d.expiresAt.atMost (a.clock (k + 1)) := fun k => by
    rw [hdeq, Deadline.spentAt, Nat.add_comm k 1]
  have hfree : ({ a.on host tolerant none with elapsed } : FileAnalyzer).budget = .ok none := rfl
  cases hl : languageOf path given with
  | none =>
    refine ⟨_, _, by rw [analyze, hl], by rw [analyze, hl], .inl rfl, fun _ h => by cases h⟩
  | some language =>
    refine ⟨_, _, analyze_of_budget hl hd session text, analyze_of_budget hl hfree session text, ?_, ?_⟩
    · rcases analyzeWithin_cases (hbudget.symm ▸ ht) hx with h | h
      · exact .inl (agrees_of_eq a host tolerant (some timeout) elapsed h)
      · rw [hbudget] at h
        exact .inr ⟨language, rfl, h⟩
    · rintro _ ⟨⟩
      refine ⟨a.timedOut_tells path text language timeout, fun hb => ⟨fun e he => ?_, fun root hroot => ?_⟩⟩
      · refine agrees_of_eq a host tolerant (some timeout) elapsed ?_
        rw [analyzeWithin_of_error he, analyzeWithin_of_error he]
      · obtain ⟨hparsed, hunspent, hspent⟩ :=
          analyzeWithin_builtin (some timeout) path language (hbudget.symm ▸ ht) hb hroot
        rw [hbudget] at hspent
        refine ⟨⟨fun htimed => ?_, fun hlook => ?_⟩, fun hsmall => ?_⟩
        -- without a look that finds the budget spent the file has a tree, and the timed-out one has none
        · by_contra hno
          have hu : ∀ k < looksOf ⟨path, language, a.rules⟩ root, d.spentAt k = false := fun k hk => by
            rw [hclock, ← Bool.not_eq_true]
            exact fun hs => hno ⟨k, hk, hs⟩
          have hp := congrArg FileResult.parsed ((hunspent hu).symm.trans htimed)
          rw [hparsed] at hp
          cases hp
        · obtain ⟨k, hk, hs⟩ := hlook
          exact hspent ⟨k, hk, (hclock k).trans hs⟩
        · refine agrees_of_eq a host tolerant (some timeout) elapsed (hunspent fun k hk => ?_)
          rw [looksOf_of_small hsmall] at hk
          exact absurd hk (Nat.not_lt_zero k)

def emptyModule : Concrete.Node :=
  .mk ⟨"module", 0, 0, true, false, false, none, ⟨0, 0⟩, ⟨0, 0⟩, false⟩ []

def oneNode : Grammar.Host := ⟨⟨some "", none⟩, ⟨some "", none⟩, fun _ => none, fun _ _ => .ok emptyModule⟩

/-- A file analyzer whose clock advances ten seconds from one reading to the next. -/
def hurried : FileAnalyzer := { parse := hostParse oneNode false, clock := fun i => .whole (10 * i) }

/-- One node is analyzed in five seconds, even if each look at the clock takes ten. -/
theorem one_node_in_time : ∃ r free,
    (hurried.on oneNode false (some (.whole 5))).analyze {} "a.py" "" (some "python") = .ok r ∧
    ({ hurried.on oneNode false none with elapsed := 0.0 } : FileAnalyzer).analyze {} "a.py" "" (some "python") =
      .ok free ∧
    Agrees r.result free.result := by
  obtain ⟨r, free, hr, hfree, -, h⟩ := budget_all_or_nothing hurried oneNode false (.whole 5) 0.0
    ⟨.whole 5, .whole 5, hurried.clock, 1⟩ {} "a.py" "" (some "python") rfl (by decide +kernel) Analyzer.builtin_timely
  obtain ⟨-, hb⟩ := h "python" rfl
  have hroot : (Grammar.parse oneNode false {} "" "python" none).1.outcome =
      .ok (Grammar.normal (Grammar.tableOf .python) (Grammar.Source.ofText "") emptyModule) := by
    have hl : Language.ofName? "python" = some .python := by decide +kernel
    have hc : (Grammar.chooseTree oneNode "" (Grammar.tableOf .python) {}).outcome = .ok emptyModule := by rfl
    rw [Grammar.parse, hl]
    dsimp only
    rw [hc]
    dsimp only [Grammar.canonical]
    rw [Grammar.normalize_none]
    rfl
  exact ⟨r, free, hr, hfree, (((hb rfl).2 _ hroot).2 (by decide))⟩

end FileAnalyzer
end CodeReview.Run
