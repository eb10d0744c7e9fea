import CodeReview.Proofs.Run.Calls
import CodeReview.Proofs.Run.Produced
/-!
# Observed runs

A run comes to the same whoever watches it.  Its observers can fail, and each failure leaves one error that names the sink
or progress; apart from such errors and from the times two runs with different observers have equal results
(`observed_runs_agree`).

An error names the sink or progress only by its component.  An analyzer can be registered under either name, and then its
errors look like those of an observer (`namesake_errors`).
-/
namespace CodeReview

def RunError.namesObserver (e : RunError) : Bool := e.component == "sink" || e.component == "progress"

namespace Run

theorem heardErrors_namesObserver {component : String} (hc : component = "sink" ∨ component = "progress")
    (filePath : Option String) (failure : Option Failure) :
    ∀ e ∈ heardErrors component filePath failure, e.namesObserver = true := by
  intro e he
  obtain ⟨why, -, rfl⟩ := List.mem_map.1 he
  rcases hc with rfl | rfl <;> rfl

theorem heard_namesObserver (x : Account) : ∀ e ∈ x.heard, e.namesObserver = true := by
  intro e he
  rcases List.mem_append.1 he with he | he
  · exact heardErrors_namesObserver (.inl rfl) _ _ e he
  · exact heardErrors_namesObserver (.inr rfl) _ _ e he

theorem filter_of_namesObserver {es : List RunError} (h : ∀ e ∈ es, e.namesObserver = true) :
    es.filter (fun e => !e.namesObserver) = [] :=
  List.filter_eq_nil_iff.2 fun e he => by simp [h e he]

theorem countP_of_namesObserver {es : List RunError} (h : ∀ e ∈ es, e.namesObserver = true) :
    es.countP RunError.namesObserver = es.length :=
  List.countP_eq_length.2 h

/-- The errors of an entry's own contribution that name an observer are those of its file. -/
theorem contribution_namesObserver {analyze : Analyze} {e : Entry} {c : Contribution} (h : c.Of analyze e) :
    c.errors.countP RunError.namesObserver = (c.files.flatMap (·.errors)).countP RunError.namesObserver := by
  cases h with
  | skipped => rfl
  | unread => rfl
  | crashed => rfl
  | added => rw [Contribution.files, List.flatMap_singleton]; rfl

theorem accounts_filter : ∀ (xs : List Account), (xs.flatMap (·.errors)).filter (fun e => !e.namesObserver) =
    ((xs.map (·.contribution)).flatMap (·.errors)).filter (fun e => !e.namesObserver)
  | [] => rfl
  | x :: xs => by
    rw [List.flatMap_cons, List.map_cons, List.flatMap_cons, List.filter_append, List.filter_append, accounts_filter xs,
      x.errors_eq, List.filter_append, filter_of_namesObserver (heard_namesObserver x), List.append_nil]

theorem accounts_countP {analyze : Analyze} : ∀ (xs : List Account), (∀ x ∈ xs, x.contribution.Of analyze x.entry) →
    (xs.flatMap (·.errors)).countP RunError.namesObserver = (xs.flatMap (·.heard)).length +
      ((xs.flatMap (·.contribution.files)).flatMap (·.errors)).countP RunError.namesObserver
  | [], _ => rfl
  | x :: xs, h => by
    have ih := accounts_countP xs (fun y hy => h y (by simp [hy]))
    have hx := contribution_namesObserver (h x (by simp))
    have hheard := countP_of_namesObserver (heard_namesObserver x)
    rw [List.flatMap_cons, List.flatMap_cons, List.flatMap_cons, List.flatMap_append, List.countP_append,
      List.countP_append, List.length_append, ih, x.errors_eq, List.countP_append, hx, hheard]
    omega

section

variable {σ : Type} {o : Observers σ} {analyze : Analyze} {total : Nat} {entries : List Entry} {state : RunState}
  {out : Outcome σ} {r : RepositoryResult} {xs : List Account} {progress sink : Option Failure}

/-- **Apart from those that name an observer, the errors of a run are those that its entries contribute.** -/
theorem Ran.errors_filter (h : Ran o analyze total entries state out r xs progress sink) :
    r.errors.filter (fun e => !e.namesObserver) =
      ((Run.contributions analyze {} entries).flatMap (·.errors)).filter (fun e => !e.namesObserver) := by
  have hprogress := filter_of_namesObserver (heardErrors_namesObserver (.inr rfl) none progress)
  have hsink := filter_of_namesObserver (heardErrors_namesObserver (.inl rfl) none sink)
  rw [h.errors, List.filter_append, List.filter_append, hprogress, hsink, List.append_nil, List.append_nil,
    accounts_filter, h.contributions]

/-- **The errors of a run that name an observer are those of the calls that have failed**, and those that come with the
files. -/
theorem Ran.errors_countP (h : Ran o analyze total entries state out r xs progress sink) :
    r.errors.countP RunError.namesObserver =
      out.calls.countP Call.failed + (r.files.flatMap (·.errors)).countP RunError.namesObserver := by
  have hprogress := countP_of_namesObserver (heardErrors_namesObserver (.inr rfl) none progress)
  have hsink := countP_of_namesObserver (heardErrors_namesObserver (.inl rfl) none sink)
  rw [h.errors, List.countP_append, List.countP_append, hprogress, hsink, accounts_countP xs h.contribution_of, h.failures,
    h.files_eq]
  omega

/-- No file has an error that names an observer if no analyzer has the name of one. -/
theorem Ran.own_errors {a : FileAnalyzer} (h : Ran o analyze total entries state out r xs progress sink)
    (ha : ∀ session path text language f, analyze session path text language = .ok f →
      a.known session path text language = .ok f)
    (hnames : ∀ x ∈ a.registry.analyzers, x.name ≠ "sink" ∧ x.name ≠ "progress") :
    (r.files.flatMap (·.errors)).countP RunError.namesObserver = 0 := by
  rw [List.countP_eq_zero]
  intro e he
  obtain ⟨f, hf, hef⟩ := List.mem_flatMap.1 he
  rw [h.files_eq] at hf
  obtain ⟨x, hx, hfx⟩ := List.mem_flatMap.1 hf
  have hof := h.contribution_of x hx
  generalize x.contribution = c at hof hfx
  cases hof with
  | skipped => cases hfx
  | unread => cases hfx
  | crashed => cases hfx
  | added hl hr hok =>
    rw [Contribution.files, List.mem_singleton] at hfx
    subst hfx
    simp only [RunError.namesObserver, Bool.or_eq_true, beq_iff_eq, not_or]
    rcases FileAnalyzer.analyze_errors (ha _ _ _ _ _ hok) e hef with hc | hc | ⟨y, hy, hc⟩
    · rw [hc]
      decide
    · rw [hc]
      decide
    · rw [hc]
      exact hnames y hy

end

/-- **Observers do not influence a run.**  Two runs with different observers, who fail as they like, both fail with the
same failure or both return, and then their results differ in the times and in errors that name an observer only.  Each
call of an observer that fails leaves one such error, and there are no others but those that the files themselves bring
along: none, if no analyzer has the name of an observer. -/
theorem observed_runs_agree {σ₁ σ₂ : Type} (analyze : Analyze) (o₁ : Observers σ₁) (o₂ : Observers σ₂) (token : Token)
    (selection : Selection) (listing : Listing) (s₁ : σ₁) (s₂ : σ₂) :
    let out₁ := repository analyze o₁ token selection listing s₁
    let out₂ := repository analyze o₂ token selection listing s₂
    (∃ why, out₁.result = .error why ∧ out₂.result = .error why) ∨
      ∃ r₁ r₂, out₁.result = .ok r₁ ∧ out₂.result = .ok r₂ ∧
        r₁ = { r₂ with startedAt := r₁.startedAt, finishedAt := r₁.finishedAt, errors := r₁.errors } ∧
        r₁.errors.filter (fun e => !e.namesObserver) = r₂.errors.filter (fun e => !e.namesObserver) ∧
        r₁.errors.countP RunError.namesObserver =
          out₁.calls.countP Call.failed + (r₁.files.flatMap (·.errors)).countP RunError.namesObserver ∧
        r₂.errors.countP RunError.namesObserver =
          out₂.calls.countP Call.failed + (r₂.files.flatMap (·.errors)).countP RunError.namesObserver ∧
        ∀ a : FileAnalyzer,
          (∀ session path text language f, analyze session path text language = .ok f →
            a.known session path text language = .ok f) →
          (∀ x ∈ a.registry.analyzers, x.name ≠ "sink" ∧ x.name ≠ "progress") →
          r₁.errors.countP RunError.namesObserver = out₁.calls.countP Call.failed ∧
            r₂.errors.countP RunError.namesObserver = out₂.calls.countP Call.failed := by
  intro out₁ out₂
  cases hl : listing.failure with
  | some why =>
    left
    refine ⟨why, ?_, ?_⟩
    · show (repository analyze o₁ token selection listing s₁).result = _
      rw [repository, hl]
    · show (repository analyze o₂ token selection listing s₂).result = _
      rw [repository, hl]
  | none =>
    obtain ⟨hfail₁, hok₁⟩ := repository_ran analyze o₁ token selection listing s₁ hl
    obtain ⟨hfail₂, hok₂⟩ := repository_ran analyze o₂ token selection listing s₂ hl
    -- the token decides how both runs end
    cases hc : (token.course 0 (selected selection listing.entries)).2 with
    | error why => exact .inl ⟨why, hfail₁ why hc, hfail₂ why hc⟩
    | ok st =>
      obtain ⟨r₁, xs₁, progress₁, sink₁, h₁⟩ := hok₁ st hc
      obtain ⟨r₂, xs₂, progress₂, sink₂, h₂⟩ := hok₂ st hc
      have hagree : r₁ = { r₂ with startedAt := r₁.startedAt, finishedAt := r₁.finishedAt, errors := r₁.errors } := by
        have h := h₁.agree h₂
        rwa [h₁.totalFiles, h₁.state, ← h₂.totalFiles, ← h₂.state] at h
      have hfilter := h₁.errors_filter.trans h₂.errors_filter.symm
      refine .inr ⟨r₁, r₂, h₁.returned, h₂.returned, hagree, hfilter, h₁.errors_countP, h₂.errors_countP, ?_⟩
      intro a ha hnames
      rw [h₁.errors_countP, h₂.errors_countP, h₁.own_errors ha hnames, h₂.own_errors ha hnames]
      exact ⟨rfl, rfl⟩

/-- A file analyzer with an analyzer called as the sink is, which always fails. -/
def namesake : FileAnalyzer where
  rules := ⟨[⟨"s", "S", .bug, "sink", true, none, none, []⟩]⟩
  parse := fun session _ _ _ deadline =>
    (⟨.ok (.mk ⟨.module, "module", 1, 1, 1, 1, none, none, none⟩ none []), session, []⟩, deadline)
  registry := ⟨[{ name := "sink", analyze := fun _ _ deadline => (.error (.raised "RuntimeError" "boom"), deadline) }]⟩

/-- The errors of an analyzer are not told from those of an observer whose name it has: here is one that names the sink,
while no call of the sink has failed. -/
theorem namesake_errors : ∃ r,
    (repository namesake.known (Observers.idle fun s => (⟨0⟩, s)) Token.never { exclude := [] }
      { entries := [.ofText "a.js" ""] } ()).result = .ok r ∧
    r.errors.countP RunError.namesObserver = 1 ∧
    (repository namesake.known (Observers.idle fun s => (⟨0⟩, s)) Token.never { exclude := [] }
      { entries := [.ofText "a.js" ""] } ()).calls.countP Call.failed = 0 :=
  ⟨_, rfl, by decide +kernel, by decide +kernel⟩

end Run
end CodeReview
