import CodeReview.Proofs.Grammar.History
import CodeReview.Proofs.Run.Budget
/-!
# Results do not depend on history

The result of a file is read off the outcome of its parse (`analyzeWithin_result`), which no session changes.  So a file
analyzer gives each file of a series the result that a new one gives it (`series_agrees`), however its parser has been
used before (`results_without_history`).
-/
namespace CodeReview.Run

open Grammar (Event Host Request Session history)

namespace FileAnalyzer

/-- A file that is to be analyzed, and how long that will take. -/
structure Job where
  path : String
  text : String
  language : Option String
  elapsed : Float

def unhurried (a : FileAnalyzer) (host : Host) (tolerant : Bool) (elapsed : Float) : FileAnalyzer :=
  { a with parse := hostParse host tolerant, timeout := none, elapsed }

/-- What an analyzer makes of files one after the other: each finds the grammars loaded that those before it have
loaded. -/
def series (a : FileAnalyzer) (host : Host) (tolerant : Bool) : Session → List Job → List (Except Failure Analyzed)
  | _, [] => []
  | s, job :: rest =>
    let out := (a.unhurried host tolerant job.elapsed).analyze s job.path job.text job.language
    let s := match out with
      | .ok r => r.session
      | .error _ => s
    out :: series a host tolerant s rest

variable {host : Host} {tolerant : Bool} {s : Session}

/-- **The result of a file within a time budget is not up to the session.** -/
theorem analyzeWithin_recalls {a : FileAnalyzer} (ha : a.parse = hostParse host tolerant) (hs : s.Recalls host)
    (path text language : String) (dl : Option Syntax.Deadline) :
    (a.analyzeWithin s path text language dl).result = (a.analyzeWithin {} path text language dl).result ∧
      (a.analyzeWithin s path text language dl).session.Recalls host := by
  have hp : ∀ s, a.parse s path text language dl = Grammar.parse host tolerant s text language dl := fun s => by
    rw [ha]
    rfl
  obtain ⟨out, left, hparse, hleft⟩ := Grammar.parse_steady host tolerant text language dl
  have hfresh := Session.fresh_recalls host
  refine ⟨?_, ?_⟩
  · rw [analyzeWithin_result, analyzeWithin_result, hp, hp, (hparse s hs).1, (hparse {} hfresh).1, hleft s hs,
      hleft {} hfresh]
  · rw [a.analyzeWithin_session, hp]
    exact (hparse s hs).2.recalls

theorem analyzeWithin_steady (a : FileAnalyzer) (elapsed elapsed' : Float) (path text language : String)
    (hs : s.Recalls host) :
    Agrees ((a.unhurried host tolerant elapsed).analyzeWithin s path text language none).result
        ((a.unhurried host tolerant elapsed').analyzeWithin {} path text language none).result ∧
      ((a.unhurried host tolerant elapsed).analyzeWithin s path text language none).session.Recalls host := by
  let b := a.unhurried host tolerant elapsed'
  obtain ⟨hresult, -⟩ := analyzeWithin_recalls (a := b) rfl hs path text language none
  have htimed : ((a.unhurried host tolerant elapsed).analyzeWithin s path text language none).result =
      { (b.analyzeWithin {} path text language none).result with duration := .decimal elapsed } := by
    rw [← hresult]
    exact b.analyzeWithin_elapsed elapsed s path text language none
  refine ⟨?_, (analyzeWithin_recalls (a := a.unhurried host tolerant elapsed) rfl hs path text language none).2⟩
  rw [Agrees, htimed]

/-- **A call of a file analyzer** gives what it gives a new one, and remembers nothing but what its host has answered. -/
theorem analyze_steady (a : FileAnalyzer) (elapsed elapsed' : Float) (path text : String) (given : Option String)
    (hs : s.Recalls host) :
    ∃ r fresh, (a.unhurried host tolerant elapsed).analyze s path text given = .ok r ∧
      (a.unhurried host tolerant elapsed').analyze {} path text given = .ok fresh ∧
      Agrees r.result fresh.result ∧ r.session.Recalls host := by
  cases hl : languageOf path given with
  | none =>
    refine ⟨_, _, by rw [analyze, hl], by rw [analyze, hl], ?_, ?_⟩
    · rfl
    · exact hs
  | some language =>
    have hbudget : ∀ elapsed, (a.unhurried host tolerant elapsed).budget = .ok none := fun _ => rfl
    obtain ⟨hagrees, hrecalls⟩ := a.analyzeWithin_steady elapsed elapsed' path text language hs
    exact ⟨_, _, analyze_of_budget hl (hbudget _) s text, analyze_of_budget hl (hbudget _) {} text, hagrees, hrecalls⟩

/-- That an analysis of a file gives the result which a new file analyzer gives, however long that takes. -/
def AsNew (a : FileAnalyzer) (host : Host) (tolerant : Bool) (job : Job) (out : Except Failure Analyzed) : Prop :=
  ∀ elapsed, ∃ r fresh, out = .ok r ∧
    (a.unhurried host tolerant elapsed).analyze {} job.path job.text job.language = .ok fresh ∧
    Agrees r.result fresh.result

/-- **No file of a series has a result that depends on the files before it.** -/
theorem series_agrees (a : FileAnalyzer) (hs : s.Recalls host) (jobs : List Job) :
    List.Forall₂ (a.AsNew host tolerant) jobs (a.series host tolerant s jobs) := by
  induction jobs generalizing s with
  | nil => exact .nil
  | cons job rest ih =>
    refine .cons (fun elapsed => ?_) (ih ?_)
    · obtain ⟨r, fresh, hr, hfresh, hagrees, -⟩ := a.analyze_steady job.elapsed elapsed job.path job.text job.language hs
      exact ⟨r, fresh, hr, hfresh, hagrees⟩
    · obtain ⟨r, -, hr, -, -, hrecalls⟩ := a.analyze_steady job.elapsed 0 job.path job.text job.language hs
      rw [hr]
      exact hrecalls

end FileAnalyzer

/-- **Results do not depend on history.**  On any host each call of a parser is answered as by a new one, whatever it has
been asked before, and so is each file of a series that an analyzer without a time budget is given then.  Each grammar
is loaded once at most; a call asks for the grammars it needs which no call before has loaded, and so again for those
which do not load. -/
theorem results_without_history (host : Host) (tolerant : Bool) (before : List Request) :
    let h := history host tolerant before
    h.answers = before.map (fun q => (q.serve host tolerant {}).answer) ∧
      (h.events.filterMap Event.loaded?).Nodup ∧
      (∀ q : Request,
        let now := q.serve host tolerant h.session
        history host tolerant (before ++ [q]) = ⟨h.answers ++ [now.answer], now.session, h.events ++ now.events⟩ ∧
        ∀ g,
          (.asked g ∈ now.events ↔ g ∈ q.needs host ∧ .loaded g ∉ h.events) ∧
          (.loaded g ∈ now.events ↔ .asked g ∈ now.events ∧ host.broken g = none) ∧
          ∀ why, host.broken g = some why → (.asked g ∈ now.events ↔ g ∈ q.needs host)) ∧
      ∀ (a : FileAnalyzer) (jobs : List FileAnalyzer.Job),
        List.Forall₂ (a.AsNew host tolerant) jobs (a.series host tolerant h.session jobs) := by
  intro h
  have hkept := Grammar.history_kept host tolerant before
  refine ⟨hkept.answers, hkept.loaded ▸ hkept.nodup, fun q => ?_, fun a jobs => a.series_agrees hkept.recalls jobs⟩
  intro now
  obtain ⟨-, hasks⟩ := Grammar.serve_steady tolerant q hkept.recalls
  have hnext : history host tolerant (before ++ [q]) = ⟨h.answers ++ [now.answer], now.session, h.events ++ now.events⟩ := by
    rw [history, List.foldl_append]
    rfl
  refine ⟨hnext, fun g => ⟨?_, hasks.loaded_iff g, fun why hb => ?_⟩⟩
  · rw [hkept.loaded_iff]
    exact hasks.asked_iff g
  · have hnever : g ∉ h.session.loaded := fun hg => by
      have hfine := hkept.recalls.loaded g hg
      rw [hb] at hfine
      cases hfine
    rw [hasks.asked_iff g]
    exact and_iff_left hnever

end CodeReview.Run
