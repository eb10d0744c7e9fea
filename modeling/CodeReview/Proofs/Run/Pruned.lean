import CodeReview.Proofs.Files.Listing
import CodeReview.Run.Repository
/-!
# Runs over pruned listings

What a run has told makes no difference to what it does next (`processAll_behind`), so a run depends on its listing through
the entries that are selected (`repository_of_selected`).  Pruning leaves these as they are: a run over a folder gives
the same result with it and without (`pruning_changes_nothing`).
-/
namespace CodeReview.Run

variable {σ : Type}

namespace Work

/-- A run part way through that has told something else before. -/
def behind (told : List Log.Record) (w : Work σ) : Work σ := { w with log := told ++ w.log }

section

variable (told : List Log.Record) (w : Work σ) (o : Observers σ)

theorem tell_behind (r : Log.Record) : (w.behind told).tell r = (w.tell r).behind told := by
  rw [tell, tell, behind, behind, List.append_assoc]

theorem hear_behind (reply : Reply σ) (say : Failure → Log.Record) (component : String) (filePath : Option String) :
    (w.behind told).hear reply say component filePath = (w.hear reply say component filePath).behind told := by
  unfold hear
  cases reply.failure with
  | none => simp only [behind, List.append_assoc]
  | some why => simp only [behind, tell, addError, List.append_assoc]

theorem report_behind (total : Nat) (phase : String) :
    (w.behind told).report o total phase = (w.report o total phase).behind told := by
  rw [report, report]
  exact hear_behind told (w.note _) _ _ _ _

theorem hand_behind (path : String) (r : FileResult) :
    (w.behind told).hand o path r = (w.hand o path r).behind told := by
  rw [hand, hand]
  exact hear_behind told (w.note _) _ _ _ _

theorem close_behind : (w.behind told).close o = (w.close o).behind told := by
  rw [close, close]
  exact hear_behind told (w.note _) _ _ _ _

theorem fold_behind (a : Analyzed) : (w.behind told).fold a = (w.fold a).behind told := by
  rw [fold, fold, behind, behind, List.append_assoc]

theorem analyzeText_behind (analyze : Analyze) (path text language : String) :
    (w.behind told).analyzeText o analyze path text language =
      (w.analyzeText o analyze path text language).behind told := by
  have hsession : (w.behind told).session = w.session := rfl
  rw [analyzeText, analyzeText, hsession]
  cases analyze w.session path text language with
  | error why =>
    dsimp only
    rw [tell_behind]
    rfl
  | ok a =>
    dsimp only
    rw [fold_behind, hand_behind]

theorem analyzeEntry_behind (analyze : Analyze) (e : Entry) :
    (w.behind told).analyzeEntry o analyze e = (w.analyzeEntry o analyze e).behind told := by
  unfold analyzeEntry
  cases Language.ofPath? e.path with
  | none => exact tell_behind told w _
  | some language =>
    dsimp only
    have hnote : (w.behind told).note (.read e.path) = (w.note (.read e.path)).behind told := rfl
    rw [hnote]
    cases e.read with
    | error u =>
      dsimp only
      rw [tell_behind]
      rfl
    | ok text => exact analyzeText_behind told _ o analyze e.path text language.name

theorem process_behind (analyze : Analyze) (total : Nat) (e : Entry) :
    (w.behind told).process o analyze total e = (w.process o analyze total e).behind told := by
  have hnext : ({ w.behind told with processed := (w.behind told).processed + 1 } : Work σ) =
      ({ w with processed := w.processed + 1 } : Work σ).behind told := rfl
  rw [process, process, hnext, analyzeEntry_behind, report_behind]

end

/-- **What a run has told makes no difference to what it does next.** -/
theorem processAll_behind (told : List Log.Record) (o : Observers σ) (analyze : Analyze) (token : Token) (total : Nat) :
    ∀ (entries : List Entry) (w : Work σ),
      processAll o analyze token total entries (w.behind told) =
        ((processAll o analyze token total entries w).1, (processAll o analyze token total entries w).2.behind told)
  | [], _ => rfl
  | e :: rest, w => by
    have hnote : (w.behind told).note .look = (w.note .look).behind told := rfl
    have hcount : (w.behind told).processed = w.processed := rfl
    rw [processAll, processAll, hnote, hcount]
    cases token (w.processed + 1) with
    | error why => rfl
    | ok off =>
      cases off with
      | true =>
        dsimp only
        rw [tell_behind]
      | false =>
        dsimp only
        rw [process_behind, processAll_behind told o analyze token total rest]

theorem conclude_behind (told : List Log.Record) (o : Observers σ) (total : Nat) (state : RunState) (w : Work σ) :
    (w.behind told).conclude o total state = (w.conclude o total state).behind told := by
  rw [conclude, conclude]
  exact report_behind told
    ({ w with result := w.result.finalize state (o.now w.state).1, state := (o.now w.state).2 } : Work σ) o total state.name

end Work

/-- That two runs end alike but for what they have told. -/
structure Outcome.Same (out out' : Outcome σ) : Prop where
  result : out'.result = out.result
  state : out'.state = out.state
  session : out'.session = out.session
  calls : out'.calls = out.calls

theorem Outcome.Same.symm {a b : Outcome σ} (h : a.Same b) : b.Same a :=
  ⟨h.result.symm, h.state.symm, h.session.symm, h.calls.symm⟩

theorem Outcome.Same.trans {a b c : Outcome σ} (h : a.Same b) (h' : b.Same c) : a.Same c :=
  ⟨h'.result.trans h.result, h'.state.trans h.state, h'.session.trans h.session, h'.calls.trans h.calls⟩

theorem end_behind (told : List Log.Record) (o : Observers σ) (total : Nat) (out : Except Failure RunState) (w : Work σ) :
    (end_ o total (out, w)).Same (end_ o total (out, w.behind told)) := by
  cases out with
  | error why =>
    dsimp only [end_]
    rw [Work.close_behind]
    exact ⟨rfl, rfl, rfl, rfl⟩
  | ok state =>
    dsimp only [end_]
    rw [Work.conclude_behind, Work.close_behind]
    exact ⟨rfl, rfl, rfl, rfl⟩

def started (o : Observers σ) (total : Nat) (state : σ) : Work σ :=
  { result := { totalFiles := total, state := .running, startedAt := (o.now state).1 }, state := (o.now state).2 }

theorem begin_eq (o : Observers σ) (listing : Listing) (total : Nat) (state : σ) :
    begin_ o listing total state =
      (started o total state).behind (listing.log ++ [openingRecord total (listing.entries.length - total)]) := by
  rw [begin_, started, Work.behind, List.append_nil]

theorem repository_same (analyze : Analyze) (o : Observers σ) (token : Token) (selection : Selection) (state : σ)
    {listing : Listing} (hl : listing.failure = none) :
    (end_ o (selected selection listing.entries).length (Work.processAll o analyze token
      (selected selection listing.entries).length (selected selection listing.entries)
      (started o (selected selection listing.entries).length state))).Same
      (repository analyze o token selection listing state) := by
  rw [repository, hl]
  dsimp only
  rw [begin_eq, Work.processAll_behind]
  exact end_behind _ o _ _ _

/-- **A run depends on its listing through the entries that are selected.** -/
theorem repository_of_selected (analyze : Analyze) (o : Observers σ) (token : Token) (selection : Selection) (state : σ)
    {listing listing' : Listing} (hl : listing.failure = none) (hl' : listing'.failure = none)
    (h : selected selection listing.entries = selected selection listing'.entries) :
    (repository analyze o token selection listing state).Same (repository analyze o token selection listing' state) := by
  have hfirst := repository_same analyze o token selection state hl
  rw [h] at hfirst
  exact hfirst.symm.trans (repository_same analyze o token selection state hl')

theorem selected_listing {fs : Files} (h : fs.IsTree) (root : Place) (s : Selection) (encoding : String) :
    selected s (fs.listing root (some s) encoding).entries = selected s (fs.listing root none encoding).entries := by
  have hsplit : ∀ selection, selected s (fs.listing root selection encoding).entries =
      ((fs.listed root selection).filter fun e => s.accepts e.1).map fun e => ⟨e.1, Files.load encoding e.2⟩ := by
    intro selection
    rw [selected, Files.listing]
    dsimp only
    rw [List.filter_map]
    rfl
  rw [hsplit, hsplit, Files.listed_accepted h root s]

/-- **Pruning changes nothing but how much is told.**  Nothing below a directory that a selection prunes is accepted by it,
so the accepted part of a listing is the same list with pruning and without, and runs over the two come to the same
result, with the same calls.  Both listings are sorted and have no path twice, and the one without pruning has every file
of the tree. -/
theorem pruning_changes_nothing (fs : Files) (root : Place) (s : Selection) (h : fs.IsTree) :
    (∀ d rest, s.prunes d = true → s.accepts (d ++ "/" ++ rest) = false) ∧
    (fs.paths root (some s)).filter s.accepts = (fs.paths root none).filter s.accepts ∧
    (∀ selection, (fs.paths root selection).Pairwise (· ≤ ·) ∧ (fs.paths root selection).Nodup) ∧
    (∀ path, path ∈ fs.paths root none ↔
      ∃ rest content, rest ≠ [] ∧ (root ++ rest, .file content) ∈ fs.items ∧ path = Files.relative rest) ∧
    ∀ (σ : Type) (analyze : Analyze) (o : Observers σ) (token : Token) (encoding : String) (state : σ),
      (repository analyze o token s (fs.listing root none encoding) state).Same
        (repository analyze o token s (fs.listing root (some s) encoding) state) := by
  have hpaths : ∀ selection, (fs.paths root selection).filter s.accepts =
      ((fs.listed root selection).filter fun e => s.accepts e.1).map (·.1) := fun selection => by
    rw [Files.paths, List.filter_map]
    rfl
  refine ⟨fun d rest hd => Selection.prunes_below hd rest, ?_, fun selection => ?_, fs.mem_paths root, ?_⟩
  · rw [hpaths, hpaths, Files.listed_accepted h root s]
  · exact ⟨fs.paths_sorted root selection, Files.paths_nodup h root selection⟩
  · intro σ analyze o token encoding state
    exact repository_of_selected analyze o token s state rfl rfl (selected_listing h root s encoding).symm

/-- A file, and one in a folder that is not analyzed unless a choice is made. -/
def smallTree : Files := (({} : Files).addFile ["src", "a.py"] []).addFile ["src", "node_modules", "b.js"] []

/-- A file that is listed without pruning only makes no difference to what is accepted. -/
theorem node_modules_passed_over :
    smallTree.IsTree ∧ ({} : Selection).prunes "src/node_modules" = true ∧
    "src/node_modules/b.js" ∈ smallTree.paths [] none ∧
    (smallTree.paths [] (some {})).filter ({} : Selection).accepts =
      (smallTree.paths [] none).filter ({} : Selection).accepts := by
  have htree : smallTree.IsTree := ⟨by decide, by decide⟩
  obtain ⟨-, haccepted, -, hall, -⟩ := pruning_changes_nothing smallTree [] {} htree
  have hlisted : "src/node_modules/b.js" ∈ smallTree.paths [] none :=
    (hall _).2 ⟨["src", "node_modules", "b.js"], [], by decide, by decide, by decide⟩
  have hprunes : ({} : Selection).prunes "src/node_modules" = true := by
    have hplain : Path.isGlob "node_modules" = false := by
      simp only [Path.isGlob, String.contains_char_eq]
      decide +kernel
    refine List.any_eq_true.2 ⟨"node_modules", by decide, ?_⟩
    rw [Path.selects_plain hplain, hplain, String.contains_char_eq]
    decide +kernel
  exact ⟨htree, hprunes, hlisted, haccepted⟩

end CodeReview.Run
