import CodeReview.Proofs.Analyzer.Attributed
import CodeReview.Proofs.Grammar.Choice
import CodeReview.Proofs.Grammar.Made
import CodeReview.Proofs.Run.Reordered
/-!
# Findings inside of their files

If the nodes of all trees that a host makes of a text start at byte offsets of it, the findings of the text are inside of it: on
one of its lines, and not behind the end of that line (`findings_inside`).
-/
namespace CodeReview.Run

open Grammar (Host Session)
open Syntax (Deadline)

namespace FileAnalyzer

variable {a : FileAnalyzer} {host : Host} {tolerant : Bool} {text : String}

/-- **What is found in a text is inside of it**, with or without a tree. -/
theorem found_inside (hp : a.parse = hostParse host tolerant)
    (hx : ∀ x ∈ a.registry.analyzers, x ∈ Registry.builtin.analyzers) (hin : host.InText text) {session : Session}
    {path language : String} {dl : Option Deadline} {fs : List Finding} (h : Found a session path text language dl fs) :
    ∀ f ∈ fs, Inside text f.location.line f.location.column := by
  refine h.forall_findings (fun _ _ => inside_start text) fun root hroot x hmem _ _ hgs => ?_
  have hmade : (Grammar.parse host tolerant session text language dl).1.outcome = .ok root := by rwa [hp] at hroot
  exact Analyzer.builtin_places (hx x hmem) (Grammar.placed_of_inText hin hmade) hgs

theorem analyzeWithin_inside (hp : a.parse = hostParse host tolerant)
    (hx : ∀ x ∈ a.registry.analyzers, x ∈ Registry.builtin.analyzers) (hin : host.InText text) (session : Session)
    (path language : String) (dl : Option Deadline) :
    ∀ f ∈ (a.analyzeWithin session path text language dl).result.findings,
      f.location.path = path ∧ Inside text f.location.line f.location.column := by
  obtain ⟨fs, hfs, -, hfindings⟩ := analyzeWithin_found (a := a) session path text language dl
  have hlocal : ∀ f ∈ fs, f.location.path = path :=
    found_local (fun x hmem => Analyzer.builtin_local x (hx x hmem)) hfs
  have hinside := found_inside hp hx hin hfs
  rw [hfindings]
  intro f hf
  obtain ⟨g, hg, n, rfl⟩ := exists_of_mem_finish hf
  exact ⟨hlocal g hg, hinside g hg⟩

end FileAnalyzer

/-- **Every finding is inside of its file**, where the nodes that grammars make of the text start at byte offsets of it, be it
inside of a character: it is in the file that is analyzed, on one of its lines, and at a character of that line or at its end.
That holds in any language, with any rules and any of the built-in analyzers, and also of the finding that tells of a file
without a tree. -/
theorem findings_inside (a : FileAnalyzer) (host : Host) (tolerant : Bool) (text : String)
    (hp : a.parse = hostParse host tolerant) (hx : ∀ x ∈ a.registry.analyzers, x ∈ Registry.builtin.analyzers)
    (hin : host.InText text) (session : Session) (path : String) (given : Option String) {r : Analyzed}
    (h : a.analyze session path text given = .ok r) :
    ∀ f ∈ r.result.findings, f.location.path = path ∧ Inside text f.location.line f.location.column := by
  rcases FileAnalyzer.analyze_ok h with ⟨-, hr⟩ | ⟨language, dl, -, -, rfl⟩
  · rw [hr]
    exact fun f hf => by cases hf
  · exact FileAnalyzer.analyzeWithin_inside hp hx hin session path language dl

def leafAt (type : String) (offset : Nat) : Concrete.Node :=
  .mk ⟨type, offset, 2, true, false, false, none, ⟨0, offset⟩, ⟨0, 2⟩, false⟩ []

/-- A block of a return statement and another one that starts behind the first byte. -/
def splitBlock : Concrete.Node :=
  .mk ⟨"statement_block", 0, 2, true, false, false, none, ⟨0, 0⟩, ⟨0, 2⟩, false⟩
    [leafAt "return_statement" 0, leafAt "expression_statement" 1]

theorem splitBlock_inText : (Host.constant splitBlock).InText "é" := by
  intro g tree hg n hn
  cases hg
  have hplace : ∀ o ≤ 1, (⟨0, (o : Nat)⟩ : Concrete.Point) = .ofOffset (Text.Utf8.encode "é") o := by decide
  have hnodes : n ∈ [splitBlock, leafAt "return_statement" 0, leafAt "expression_statement" 1] := hn
  simp only [List.mem_cons, List.not_mem_nil, or_false] at hnodes
  rcases hnodes with rfl | rfl | rfl
  · exact ⟨0, by decide, hplace 0 (by decide)⟩
  · exact ⟨0, by decide, hplace 0 (by decide)⟩
  · exact ⟨1, by decide, hplace 1 (by decide)⟩

def splitting : FileAnalyzer := { parse := hostParse (.constant splitBlock) false, timeout := none }

/-- An unreachable statement that starts inside of a letter is told of behind the letter. -/
theorem unreachable_within_letter : ∃ r f, splitting.analyze {} "a.js" "é" (some "javascript") = .ok r ∧
    f ∈ r.result.findings ∧ f.location.line = 1 ∧ f.location.column = 2 ∧ Inside "é" 1 2 := by
  have hplaces : ((splitting.analyze {} "a.js" "é" (some "javascript")).map fun r =>
      r.result.findings.map fun f => (f.location.line, f.location.column)).toOption = some [(1, 2)] := by decide +kernel
  cases h : splitting.analyze {} "a.js" "é" (some "javascript") with
  | error e => rw [h] at hplaces; cases hplaces
  | ok r =>
    rw [h] at hplaces
    have hfs : r.result.findings.map (fun f => (f.location.line, f.location.column)) = [(1, 2)] := Option.some.inj hplaces
    obtain ⟨f, hf, hplace⟩ : ∃ f ∈ r.result.findings, (f.location.line, f.location.column) = ((1 : Int), (2 : Int)) :=
      List.mem_map.1 (by rw [hfs]; exact List.mem_singleton_self _)
    obtain ⟨hline, hcolumn⟩ := Prod.mk.inj hplace
    have hinside := (findings_inside _ _ _ "é" rfl (fun x hx => hx) splitBlock_inText {} "a.js" _ h f hf).2
    rw [hline, hcolumn] at hinside
    exact ⟨r, f, rfl, hf, hline, hcolumn, hinside⟩

end CodeReview.Run
