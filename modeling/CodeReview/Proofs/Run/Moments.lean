import CodeReview.Run.Repository
/-!
# Moments of a run

A run passes through moments, before the first entry and after each (`Moment`).  From each of them it goes on to the
same end (`Moment.processAll_eq`), and it ends at one of them: where no entry is left, or where the token fails or calls
the run off (`processAll_ends`).
-/
namespace CodeReview.Run
namespace Work

variable {σ : Type} {o : Observers σ} {analyze : Analyze} {token : Token} {total : Nat} {entries rest : List Entry}
  {start w : Work σ}

/-- The moments of a run: the entries that are still to be processed, and the work so far. -/
inductive Moment (o : Observers σ) (analyze : Analyze) (token : Token) (total : Nat) (entries : List Entry)
    (start : Work σ) : List Entry → Work σ → Prop
  | start : Moment o analyze token total entries start entries start
  | next {e : Entry} {rest : List Entry} {w : Work σ} :
    Moment o analyze token total entries start (e :: rest) w → token (w.processed + 1) = .ok false →
      Moment o analyze token total entries start rest ((w.note .look).process o analyze total e)

theorem processAll_cons {e : Entry} (h : token (w.processed + 1) = .ok false) :
    processAll o analyze token total (e :: rest) w =
      processAll o analyze token total rest ((w.note .look).process o analyze total e) := by
  rw [processAll, h]

/-- **From each of its moments a run goes on to the same end.** -/
theorem Moment.processAll_eq (h : Moment o analyze token total entries start rest w) :
    processAll o analyze token total entries start = processAll o analyze token total rest w := by
  induction h with
  | start => rfl
  | next _ ht ih => rw [ih, processAll_cons ht]

theorem Moment.ofNext {e : Entry} (ht : token (start.processed + 1) = .ok false)
    (h : Moment o analyze token total entries ((start.note .look).process o analyze total e) rest w) :
    Moment o analyze token total (e :: entries) start rest w := by
  induction h with
  | start => exact .next .start ht
  | next _ ht' ih => exact .next ih ht'

/-- How a run over entries ends at a moment. -/
inductive EndsAt (token : Token) (total : Nat) : List Entry → Work σ → Except Failure RunState × Work σ → Prop
  | done {w : Work σ} : EndsAt token total [] w (.ok .completed, w)
  | calledOff {e : Entry} {rest : List Entry} {w : Work σ} (r : Log.Record) : token (w.processed + 1) = .ok true →
    EndsAt token total (e :: rest) w (.ok .cancelled, (w.note .look).tell r)
  | failed {e : Entry} {rest : List Entry} {w : Work σ} {why : Failure} : token (w.processed + 1) = .error why →
    EndsAt token total (e :: rest) w (.error why, w.note .look)

/-- **A run over entries ends at one of its moments.** -/
theorem processAll_ends (o : Observers σ) (analyze : Analyze) (token : Token) (total : Nat) :
    ∀ (entries : List Entry) (start : Work σ), ∃ rest w, Moment o analyze token total entries start rest w ∧
      EndsAt token total rest w (processAll o analyze token total entries start)
  | [], start => ⟨[], start, .start, .done⟩
  | e :: entries, start => by
    cases ht : token (start.processed + 1) with
    | error why =>
      refine ⟨e :: entries, start, .start, ?_⟩
      rw [processAll, ht]
      exact .failed ht
    | ok off =>
      cases off with
      | true =>
        refine ⟨e :: entries, start, .start, ?_⟩
        rw [processAll, ht]
        exact .calledOff _ ht
      | false =>
        obtain ⟨rest, w, hm, he⟩ :=
          processAll_ends o analyze token total entries ((start.note .look).process o analyze total e)
        rw [processAll_cons ht]
        exact ⟨rest, w, hm.ofNext ht, he⟩

/-- The end of a run adds nothing to the result of the moment it comes at. -/
theorem EndsAt.result_eq {out : Except Failure RunState × Work σ} (h : EndsAt token total rest w out) :
    out.2.result = w.result := by
  cases h <;> rfl

/-- A run that ends in a state is completed, no entry being left, or cancelled by the token. -/
theorem EndsAt.ok {out : Except Failure RunState × Work σ} (h : EndsAt token total rest w out) {state : RunState}
    (hs : out.1 = .ok state) :
    (state = .completed ∧ rest = []) ∨ (state = .cancelled ∧ token (w.processed + 1) = .ok true) := by
  cases h with
  | done => cases hs; exact .inl ⟨rfl, rfl⟩
  | calledOff _ ht => cases hs; exact .inr ⟨rfl, ht⟩
  | failed => cases hs

end Work
end CodeReview.Run
