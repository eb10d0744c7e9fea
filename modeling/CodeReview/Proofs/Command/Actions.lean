import CodeReview.Command.Analyze
/-!
# What commands do, and leave

`Action.Ends` says that something is done from a state on, and what it leaves: an action that is made of others ends if
they end one after the other (`bind_ends`), and what stops a command does not.  A repository is reported on in such steps
(`report_ends`), and then there is an exit code (`analyze_ends`).
-/
namespace CodeReview.Command

variable {α β : Type} {m : Machine} {st st' : State}

def State.told (st : State) (rs : List Log.Record) : State := { st with log := st.log ++ rs }

@[simp] theorem State.told_files (st : State) (rs : List Log.Record) : (st.told rs).files = st.files := rfl

@[simp] theorem State.told_out (st : State) (rs : List Log.Record) : (st.told rs).out = st.out := rfl

namespace Action

/-- That something is done from a state on: what it gives, and the state that it leaves. -/
def Ends (x : Action α) (st : State) (a : α) (st' : State) : Prop := x.run.run st = (.ok a, st')

theorem bind_ends {x : Action α} {f : α → Action β} {b : β} :
    Ends (x >>= f) st b st' ↔ ∃ a st₁, Ends x st a st₁ ∧ Ends (f a) st₁ b st' := by
  have hrun : (x >>= f).run.run st = match x.run.run st with
      | (.ok a, st₁) => (f a).run.run st₁
      | (.error e, st₁) => (.error e, st₁) := by
    show (ExceptT.bindCont f (x.run.run st).1).run (x.run.run st).2 = _
    rcases x.run.run st with ⟨_ | a, st₁⟩ <;> rfl
  unfold Ends
  rw [hrun]
  rcases x.run.run st with ⟨e | a, st₁⟩
  · constructor
    · intro h
      cases h
    · rintro ⟨a, st₂, h, -⟩
      cases h
  · constructor
    · intro h
      exact ⟨a, st₁, rfl, h⟩
    · rintro ⟨b', st₂, h, hf⟩
      cases h
      exact hf

theorem pure_ends {a b : α} : Ends (pure a) st b st' ↔ a = b ∧ st = st' := by
  constructor
  · intro h
    cases h
    exact ⟨rfl, rfl⟩
  · rintro ⟨rfl, rfl⟩
    rfl

theorem get_ends {a : State} : Ends get st a st' ↔ st = a ∧ st = st' := by
  constructor
  · intro h
    cases h
    exact ⟨rfl, rfl⟩
  · rintro ⟨rfl, rfl⟩
    rfl

theorem modify_ends {f : State → State} {u : Unit} : Ends (modify f) st u st' ↔ f st = st' := by
  constructor
  · intro h
    cases h
    rfl
  · rintro rfl
    rfl

theorem throw_ends {e : Stop} {a : α} : ¬ Ends (throw e) st a st' := by
  intro h
  cases h

theorem tell_ends {r : Log.Record} {u : Unit} : Ends (tell r) st u st' ↔ st.told [r] = st' := modify_ends

theorem tellAll_ends {rs : List Log.Record} {u : Unit} : Ends (tellAll rs) st u st' ↔ st.told rs = st' :=
  modify_ends

theorem print_ends {text : String} {u : Unit} : Ends (print text) st u st' ↔ { st with out := st.out ++ text } = st' :=
  modify_ends

theorem fail_ends {message : String} {a : α} : ¬ Ends (fail message) st a st' := by
  intro h
  obtain ⟨-, st₁, -, h⟩ := bind_ends.1 h
  exact throw_ends h

theorem change_ends {path : Path} {f : Files → Except FileError Files} {u : Unit} :
    Ends (change path f) st u st' ↔ ∃ files, f st.files = .ok files ∧ { st with files } = st' := by
  unfold change
  rw [bind_ends]
  simp only [get_ends]
  constructor
  · rintro ⟨_, _, ⟨rfl, rfl⟩, h⟩
    cases hf : f st.files with
    | error e =>
      rw [hf] at h
      exact absurd h throw_ends
    | ok files =>
      rw [hf] at h
      exact ⟨files, rfl, modify_ends.1 h⟩
  · rintro ⟨files, hf, rfl⟩
    refine ⟨st, st, ⟨rfl, rfl⟩, ?_⟩
    rw [hf]
    exact modify_ends.2 rfl

theorem map_ends {x : Action α} {f : α → β} {b : β} : Ends (f <$> x) st b st' ↔ ∃ a, Ends x st a st' ∧ f a = b := by
  rw [map_eq_pure_bind, bind_ends]
  simp only [pure_ends]
  constructor
  · rintro ⟨a, st₁, hx, rfl, rfl⟩
    exact ⟨a, hx, rfl⟩
  · rintro ⟨a, hx, rfl⟩
    exact ⟨a, st', hx, rfl, rfl⟩

theorem demandFolder_ends {path : Path} {u : Unit} (h : Ends (demandFolder m path) st u st') : st = st' := by
  unfold demandFolder standing at h
  simp only [bind_ends, get_ends] at h
  obtain ⟨item, st₁, ⟨_, _, ⟨rfl, rfl⟩, hitem⟩, h⟩ := h
  have hst : st = st₁ := by
    split at hitem
    · exact (pure_ends.1 hitem).2
    · exact (pure_ends.1 hitem).2
  split at h
  · exact hst.trans (pure_ends.1 h).2
  · exact absurd h throw_ends

end Action

open CodeReview.Command.Action

variable {s : Settings} {selection : Selection} {folder : Place}

/-- What is done after a run: its clock and its log are taken over, and its findings are written down. -/
def afterRun (m : Machine) (findings : Option Path) (out : Run.Outcome Sink.Watch) : Action Unit := do
  modify fun st => { st with clock := out.state.clock }
  Action.tellAll out.log
  if let some path := findings then Action.appendText m path out.state.text

theorem analyzeFolder_ends {findings : Option Path} {r : RepositoryResult} :
    Ends (analyzeFolder m s selection folder findings) st r st' ↔
      ∃ sink st₁, Ends (findings.mapM (openFindings m)) st sink st₁ ∧
        Ends (afterRun m findings (watchedRun m s selection folder sink st₁)) st₁ () st' ∧
        (watchedRun m s selection folder sink st₁).result = .ok r := by
  unfold analyzeFolder afterRun
  cases findings with
  | none =>
    simp only [bind_ends, get_ends, modify_ends, tellAll_ends, pure_ends]
    constructor
    · rintro ⟨sink, st₁, hsink, _, _, ⟨rfl, rfl⟩, _, _, rfl, _, _, rfl, hout⟩
      split at hout
      · rename_i hr
        obtain ⟨rfl, rfl⟩ := pure_ends.1 hout
        exact ⟨sink, _, hsink, ⟨(), _, rfl, (), _, rfl, trivial, rfl⟩, hr⟩
      · exact absurd hout fail_ends
    · rintro ⟨sink, st₁, hsink, ⟨_, _, rfl, _, _, rfl, -, rfl⟩, hr⟩
      refine ⟨sink, st₁, hsink, _, _, ⟨rfl, rfl⟩, (), _, rfl, (), _, rfl, ?_⟩
      rw [hr]
      exact pure_ends.2 ⟨rfl, rfl⟩
  | some path =>
    simp only [bind_ends, get_ends, modify_ends, tellAll_ends]
    constructor
    · rintro ⟨sink, st₁, hsink, _, _, ⟨rfl, rfl⟩, _, _, rfl, _, _, rfl, _, _, happend, hout⟩
      split at hout
      · rename_i hr
        obtain ⟨rfl, rfl⟩ := pure_ends.1 hout
        exact ⟨sink, _, hsink, ⟨(), _, rfl, (), _, rfl, happend⟩, hr⟩
      · exact absurd hout fail_ends
    · rintro ⟨sink, st₁, hsink, ⟨_, _, rfl, _, _, rfl, happend⟩, hr⟩
      refine ⟨sink, st₁, hsink, _, _, ⟨rfl, rfl⟩, (), _, rfl, (), _, rfl, (), _, happend, ?_⟩
      rw [hr]
      exact pure_ends.2 ⟨rfl, rfl⟩

theorem report_ends {s : Settings} {path : Path} {c : Choices} {plan : Plan} {r : RepositoryResult} :
    Ends (report m s path c) st (plan, r) st' ↔ Plan.make s c = .ok plan ∧ Ends (demandFolder m path) st () st ∧
      (Preflight.checkRuntime m.host true).available = true ∧
      ∃ st₁, Ends (analyzeFolder m s plan.selection (Files.placeOf m.here path) c.findings)
          (st.told [Log.info Log.root ("Analyzing repository: " ++ Files.placeText (Files.placeOf m.here path))]) r st₁ ∧
        let text := Report.render plan.format (Files.pathOf (Files.placeOf m.here path)).name r
        Ends (deliver m plan.output text) (st₁.told (Report.renderLog plan.format text)) () st' := by
  have hrefused : ∀ {e : Plan.Refusal} {st₁ : State},
      ¬ Ends (Plan.refuse e : Action (Plan × RepositoryResult)) st₁ (plan, r) st' := by
    intro e st₁
    cases e with
    | format name => exact fail_ends
    | failOn e => exact fail_ends
    | output value => exact throw_ends
  unfold report
  rw [bind_ends]
  dsimp only
  constructor
  · rintro ⟨⟨⟩, st₁, hfolder, h⟩
    obtain rfl := demandFolder_ends hfolder
    cases hplan : Plan.make s c with
    | error e =>
      rw [hplan] at h
      exact absurd h hrefused
    | ok plan' =>
      rw [hplan] at h
      dsimp only at h
      cases hruns : (Preflight.checkRuntime m.host true).available with
      | false =>
        rw [hruns, Bool.not_false, if_pos rfl, bind_ends] at h
        obtain ⟨_, _, hfail, -⟩ := h
        exact absurd hfail fail_ends
      | true =>
        rw [hruns, Bool.not_true, if_neg Bool.false_ne_true] at h
        simp only [bind_ends, tell_ends, tellAll_ends, pure_ends] at h
        obtain ⟨_, _, rfl, result, st₂, hresult, _, _, rfl, ⟨⟩, _, hdeliver, heq, rfl⟩ := h
        cases heq
        exact ⟨rfl, hfolder, rfl, st₂, hresult, hdeliver⟩
  · rintro ⟨hplan, hfolder, hruns, st₁, hresult, hdeliver⟩
    refine ⟨(), st, hfolder, ?_⟩
    rw [hplan]
    dsimp only
    rw [hruns, Bool.not_true, if_neg Bool.false_ne_true]
    simp only [bind_ends, tell_ends, tellAll_ends, pure_ends]
    exact ⟨(), _, rfl, r, st₁, hresult, (), _, rfl, (), st', hdeliver, rfl, rfl⟩

theorem analyze_ends {s : Settings} {path : Path} {c : Choices} {code : ExitCode} :
    Ends (analyze m s path c) st code st' ↔ ∃ plan r st₁, Ends (report m s path c) st (plan, r) st₁ ∧
      exitCode r plan.threshold = code ∧ st₁.told (exitLog r plan.threshold) = st' := by
  unfold analyze
  simp only [bind_ends, tellAll_ends, pure_ends]
  constructor
  · rintro ⟨⟨plan, r⟩, st₁, hreport, _, _, rfl, rfl, rfl⟩
    exact ⟨plan, r, st₁, hreport, rfl, rfl⟩
  · rintro ⟨plan, r, st₁, hreport, rfl, rfl⟩
    exact ⟨(plan, r), st₁, hreport, (), _, rfl, rfl, rfl⟩

end CodeReview.Command
