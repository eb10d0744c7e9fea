import CodeReview.Proofs.Number.Rounding
import CodeReview.Sink.Progress
import Mathlib.Data.Int.Interval
import Mathlib.Data.Nat.Cast.Order.Field
import Mathlib.Data.Rat.Floor
/-!
# Progress is logged once a step

The percentages of a run never fall (`shownPercent_mono`), so a sink that remembers only the bucket of the last report logs
the reports that are the first of their buckets (`logs_from`), of which there are no more than buckets (`length_firsts_le`).
The quotient that a percentage is read off is rounded to a double, which makes no difference for fewer than 2 ^ 47 files
(`shownPercent_eq_exact`).
-/
namespace CodeReview.Sink

open Run.Work (analyzing)

/-! ## Percentages -/

theorem wholeOf_eq {q : ℚ} (hq : 0 ≤ q) : wholeOf q = ⌊q⌋ := by
  rw [wholeOf, Int.tdiv_eq_ediv_of_nonneg (Rat.num_nonneg.2 hq), Rat.floor_def']

/-- How much of a total is processed, in whole percent, as it is shown: the quotient is rounded to a double first. -/
def shownPercent (total processed : ℕ) : Int := wholeOf (Number.nearest53 (processed * 100 / total))

def exactPercent (total processed : ℕ) : Int := (processed * 100 / total : ℕ)

variable {total processed : ℕ}

theorem shownPercent_eq_floor (total processed : ℕ) : shownPercent total processed =
    ⌊Number.nearest53 ((processed : ℚ) * 100 / total)⌋ :=
  wholeOf_eq (Number.nearest53_nonneg (by positivity))

theorem percent_eq (htotal : 1 ≤ total) (h : processed ≤ total) :
    percent processed total = .ok (shownPercent total processed) := by
  have hnone : ((total : Int) == 0) = false := by simp; omega
  have hfits : Number.fitsFloat ((processed : Int) * 100) total = true := by
    have hlimit : 100 < Number.floatLimit := by decide +kernel
    have hmul : total * 100 < total * Number.floatLimit := Nat.mul_lt_mul_of_pos_left hlimit htotal
    rw [Number.fitsFloat, decide_eq_true_eq, Int.natAbs_natCast]
    omega
  rw [percent, hnone, hfits, shownPercent]
  push_cast
  rfl

theorem shownPercent_mono : Monotone (shownPercent total) := by
  intro i j hij
  rw [shownPercent_eq_floor, shownPercent_eq_floor]
  exact Int.floor_le_floor (Number.nearest53_mono (by gcongr))

theorem exactPercent_mono : Monotone (exactPercent total) := fun _ _ hij =>
  Int.ofNat_le.2 (Nat.div_le_div_right (Nat.mul_le_mul_right 100 hij))

theorem exactPercent_le (h : processed ≤ total) : exactPercent total processed ≤ 100 :=
  Int.ofNat_le.2 (Nat.div_le_of_le_mul (Nat.mul_le_mul_right 100 h))

theorem exactPercent_le_shown (h : processed ≤ total) : exactPercent total processed ≤ shownPercent total processed := by
  have hsmall : processed * 100 / total < 2 ^ 53 := by
    have := exactPercent_le h
    unfold exactPercent at this
    omega
  have hround : Number.nearest53 (processed * 100 / total : ℕ) ≤ Number.nearest53 ((processed : ℚ) * 100 / total) :=
    Number.nearest53_mono (by exact_mod_cast Nat.cast_div_le)
  rw [Number.nearest53_natCast hsmall] at hround
  rw [shownPercent_eq_floor, exactPercent, Int.le_floor, Int.cast_natCast]
  exact hround

theorem quotient_le (h : processed ≤ total) : (processed : ℚ) * 100 / total ≤ (100 : ℕ) := by
  rcases Nat.eq_zero_or_pos total with rfl | hpos
  · simp
  · rw [div_le_iff₀ (Nat.cast_pos.2 hpos)]
    exact_mod_cast (by omega : processed * 100 ≤ 100 * total)

theorem shownPercent_le (h : processed ≤ total) : shownPercent total processed ≤ 100 := by
  have hround := Number.nearest53_mono (quotient_le h)
  rw [Number.nearest53_natCast (by norm_num)] at hround
  rw [shownPercent_eq_floor]
  exact Int.floor_le_iff.2 (hround.trans_lt (by norm_num))

/-- **The percentage is the exact one** for fewer than 2 ^ 47 files: no quotient is so close below an integer that it is
rounded up to it. -/
theorem shownPercent_eq_exact (htotal : 1 ≤ total) (hbound : total < 2 ^ 47) (h : processed ≤ total) :
    shownPercent total processed = exactPercent total processed := by
  refine le_antisymm ?_ (exactPercent_le_shown h)
  rcases Nat.eq_zero_or_pos processed with rfl | hpos
  · simp [shownPercent, exactPercent, Number.nearest53_zero, wholeOf]
  have htotal' : (0 : ℚ) < total := Nat.cast_pos.2 htotal
  have hquotient : (0 : ℚ) < processed * 100 / total := by positivity
  have hnext : (processed : ℚ) * 100 / total + 1 / total ≤ (processed * 100 / total : ℕ) + 1 := by
    rw [← add_div, div_le_iff₀ htotal']
    have hmod := Nat.lt_div_mul_add (a := processed * 100) htotal
    exact_mod_cast (by rw [add_mul, one_mul]; omega : processed * 100 + 1 ≤ (processed * 100 / total + 1) * total)
  have hunit : (2 : ℚ) ^ ((7 : ℕ) - 54 : ℤ) < 1 / total := by
    rw [lt_div_iff₀ htotal']
    calc (2 : ℚ) ^ ((7 : ℕ) - 54 : ℤ) * total < 2 ^ ((7 : ℕ) - 54 : ℤ) * 2 ^ 47 := by
          gcongr
          exact_mod_cast hbound
      _ = 1 := by norm_num
  have hround := Number.nearest53_le_add hquotient (n := 7) ((quotient_le h).trans_lt (by norm_num))
  rw [shownPercent_eq_floor, ← Int.lt_add_one_iff, Int.floor_lt]
  calc Number.nearest53 ((processed : ℚ) * 100 / total)
      ≤ (processed : ℚ) * 100 / total + 2 ^ ((7 : ℕ) - 54 : ℤ) := hround
    _ < (processed : ℚ) * 100 / total + 1 / total := add_lt_add_right hunit _
    _ ≤ (processed * 100 / total : ℕ) + 1 := hnext
    _ = (exactPercent total processed + 1 : ℤ) := by rw [exactPercent, Int.cast_add, Int.cast_one, Int.cast_natCast]

/-! ## Reports one after the other -/

def line (percentOf : ℕ → Int) (total processed : ℕ) (phase : String) : Log.Record :=
  Log.info speaker (progressMessage processed total (percentOf processed) phase)

namespace Progress

/-- Takes a report of which the percentage is known. -/
def reportAt (percentOf : ℕ → Int) (total : ℕ) (p : Progress) (processed : ℕ) (phase : String) : Run.Reply Progress :=
  let bucket := (percentOf processed).fdiv p.step
  if phase != analyzing || bucket != p.last then
    { state := { p with last := bucket }, log := [line percentOf total processed phase] }
  else { state := p }

theorem report_eq_reportAt {p : Progress} (hstep : p.step ≠ 0) (htotal : 1 ≤ total) (h : processed ≤ total)
    (phase : String) : p.report processed total phase = p.reportAt (shownPercent total) total processed phase := by
  have hnonzero : (p.step == 0) = false := by simpa using hstep
  rw [report, percent_eq htotal h]
  simp only [hnonzero, reportAt, line]
  rfl

variable {percentOf : ℕ → Int} {p : Progress} {phase : String}

theorem reportAt_state : (p.reportAt percentOf total processed phase).state =
    { p with last := (percentOf processed).fdiv p.step } := by
  unfold reportAt
  by_cases hphase : phase = analyzing
  · by_cases hlast : (percentOf processed).fdiv p.step = p.last
    · simp [hphase, hlast]
    · simp [hphase, hlast]
  · simp [hphase]

theorem reportAt_log : (p.reportAt percentOf total processed phase).log =
    if phase = analyzing ∧ (percentOf processed).fdiv p.step = p.last then []
    else [line percentOf total processed phase] := by
  unfold reportAt
  by_cases hphase : phase = analyzing
  · by_cases hlast : (percentOf processed).fdiv p.step = p.last
    · simp [hphase, hlast]
    · simp [hphase, hlast]
  · simp [hphase]

theorem reportAt_failure : (p.reportAt percentOf total processed phase).failure = none := by
  unfold reportAt
  dsimp only
  split <;> rfl

def replies (serve : Progress → ℕ → String → Run.Reply Progress) (p : Progress) :
    List (ℕ × String) → List (Run.Reply Progress)
  | [] => []
  | (processed, phase) :: reports =>
    let reply := serve p processed phase
    reply :: replies serve reply.state reports

theorem replies_report (htotal : 1 ≤ total) : ∀ (reports : List (ℕ × String)) {p : Progress}, p.step ≠ 0 →
    (∀ r ∈ reports, r.1 ≤ total) →
    p.replies (fun p processed phase => p.report processed total phase) reports =
      p.replies (reportAt (shownPercent total) total) reports
  | [], _, _, _ => rfl
  | (processed, phase) :: reports, p, hstep, h => by
    rw [List.forall_mem_cons] at h
    rw [replies, replies, report_eq_reportAt hstep htotal h.1]
    dsimp only
    rw [replies_report htotal reports (by rw [reportAt_state]; exact hstep) h.2]

theorem replies_failure : ∀ (reports : List (ℕ × String)) (p : Progress),
    ∀ r ∈ p.replies (reportAt percentOf total) reports, r.failure = none
  | [], _, _, h => by cases h
  | (processed, phase) :: reports, p, r, h => by
    rcases List.mem_cons.1 h with rfl | h
    · exact reportAt_failure
    · exact replies_failure reports _ r h

end Progress

/-- The reports of a run: one for each of the files that were analyzed, and the end. -/
def reportsOf (k : ℕ) (final : String) : List (ℕ × String) := (List.range' 1 k).map (·, analyzing) ++ [(k, final)]

/-! ## Buckets -/

def bucketOf (step : Int) (percentOf : ℕ → Int) (processed : ℕ) : Int := percentOf processed / step

/-- That no earlier report of a run fell into the bucket. -/
def IsFirst (bucket : ℕ → Int) (i : ℕ) : Prop := ∀ j < i, 1 ≤ j → bucket j ≠ bucket i

instance (bucket : ℕ → Int) : DecidablePred (IsFirst bucket) := fun i =>
  inferInstanceAs (Decidable (∀ j < i, 1 ≤ j → bucket j ≠ bucket i))

def firsts (bucket : ℕ → Int) (k : ℕ) : List ℕ := (List.range' 1 k).filter (IsFirst bucket)

section

variable {bucket : ℕ → Int} {k : ℕ}

theorem isFirst_one : IsFirst bucket 1 := by
  intro j hj hpos
  omega

/-- Where buckets rise it is enough to remember the last one. -/
theorem isFirst_succ (hmono : Monotone bucket) {i : ℕ} (hi : 1 ≤ i) : IsFirst bucket (i + 1) ↔ bucket (i + 1) ≠ bucket i := by
  constructor
  · intro h
    exact (h i (Nat.lt_succ_self i) hi).symm
  · intro h j hj _ heq
    have hle : bucket j ≤ bucket i := hmono (Nat.le_of_lt_succ hj)
    have hlt : bucket i < bucket (i + 1) := lt_of_le_of_ne (hmono (Nat.le_succ i)) h.symm
    omega

theorem mem_firsts {i : ℕ} : i ∈ firsts bucket k ↔ (1 ≤ i ∧ i ≤ k) ∧ IsFirst bucket i := by
  rw [firsts, List.mem_filter, List.mem_range'_1, decide_eq_true_eq, Nat.add_comm 1 k, Nat.lt_succ_iff]

theorem firsts_pairwise : (firsts bucket k).Pairwise fun i j => i < j ∧ bucket i ≠ bucket j := by
  have hlt : (firsts bucket k).Pairwise (· < ·) := (List.pairwise_lt_range' 1).filter _
  refine hlt.imp_of_mem fun {i j} hi hj hij => ⟨hij, ?_⟩
  exact (mem_firsts.1 hj).2 i hij (mem_firsts.1 hi).1.1

theorem exists_first {i : ℕ} (hi : 1 ≤ i) (hk : i ≤ k) : ∃ j ∈ firsts bucket k, bucket j = bucket i := by
  induction i using Nat.strong_induction_on with
  | _ i ih =>
    by_cases hfirst : IsFirst bucket i
    · exact ⟨i, mem_firsts.2 ⟨⟨hi, hk⟩, hfirst⟩, rfl⟩
    · unfold IsFirst at hfirst
      push Not at hfirst
      obtain ⟨j, hj, hpos, hsame⟩ := hfirst
      obtain ⟨j', hj', hsame'⟩ := ih j hj hpos (by omega)
      exact ⟨j', hj', hsame'.trans hsame⟩

theorem length_firsts_le {m : Int} (hbucket : ∀ i ≤ k, 0 ≤ bucket i ∧ bucket i ≤ m) (hm : 0 ≤ m) :
    ((firsts bucket k).length : Int) ≤ m + 1 := by
  have hnodup : ((firsts bucket k).map bucket).Nodup :=
    List.pairwise_map.2 (firsts_pairwise.imp fun h => h.2)
  have hsub : ((firsts bucket k).map bucket).toFinset ⊆ Finset.Icc 0 m := by
    intro b hb
    obtain ⟨i, hi, rfl⟩ := List.mem_map.1 (List.mem_toFinset.1 hb)
    exact Finset.mem_Icc.2 (hbucket i (mem_firsts.1 hi).1.2)
  have hcard := Finset.card_le_card hsub
  rw [List.toFinset_card_of_nodup hnodup, List.length_map, Int.card_Icc] at hcard
  omega

end

/-! ## Runs -/

section

variable {percentOf : ℕ → Int} {step : Int} {k : ℕ} {final : String}

theorem fdiv_eq_bucketOf (hstep : 1 ≤ step) (i : ℕ) : (percentOf i).fdiv step = bucketOf step percentOf i := by
  rw [bucketOf, Int.fdiv_eq_ediv_of_nonneg _ (by omega)]

theorem bucketOf_mono (hstep : 1 ≤ step) (hmono : Monotone percentOf) : Monotone (bucketOf step percentOf) :=
  fun _ _ hij => Int.ediv_le_ediv (by omega) (hmono hij)

theorem bucketOf_bounds (hstep : 1 ≤ step) {i : ℕ} (h : 0 ≤ percentOf i ∧ percentOf i ≤ 100) :
    0 ≤ bucketOf step percentOf i ∧ bucketOf step percentOf i ≤ 100 / step :=
  ⟨Int.ediv_nonneg h.1 (by omega), Int.ediv_le_ediv (by omega) h.2⟩

/-- What is logged of the report of one of the files: its line, if it is the first of its bucket. -/
def loggedAt (step : Int) (percentOf : ℕ → Int) (total i : ℕ) : List Log.Record :=
  if IsFirst (bucketOf step percentOf) i then [line percentOf total i analyzing] else []

/-- A report is answered by its line or by nothing, and then the sink remembers its bucket. -/
theorem logs_cons (hstep : 1 ≤ step) (last : Int) (i : ℕ) (phase : String) (reports : List (ℕ × String)) :
    ((⟨step, last⟩ : Progress).replies (Progress.reportAt percentOf total) ((i, phase) :: reports)).map (·.log) =
      (if phase = analyzing ∧ bucketOf step percentOf i = last then [] else [line percentOf total i phase]) ::
        ((⟨step, bucketOf step percentOf i⟩ : Progress).replies (Progress.reportAt percentOf total) reports).map
          (·.log) := by
  rw [Progress.replies, Progress.reportAt_state, List.map_cons, Progress.reportAt_log, fdiv_eq_bucketOf hstep]

/-- A sink that remembers the bucket of report `i` logs those of the reports from `i + 1` on that are the first of their
buckets, and the end. -/
theorem logs_from (hstep : 1 ≤ step) (hmono : Monotone percentOf) (hfinal : final ≠ analyzing) : ∀ (n i : ℕ), 1 ≤ i →
    ((⟨step, bucketOf step percentOf i⟩ : Progress).replies (Progress.reportAt percentOf total)
      ((List.range' (i + 1) n).map (·, analyzing) ++ [(k, final)])).map (·.log) =
      (List.range' (i + 1) n).map (loggedAt step percentOf total) ++ [[line percentOf total k final]]
  | 0, i, _ => by
    simp [Progress.replies, Progress.reportAt_log, hfinal]
  | n + 1, i, hi => by
    have ih := logs_from hstep hmono hfinal n (i + 1) (by omega)
    have hnew := isFirst_succ (bucketOf_mono hstep hmono) hi
    rw [List.range'_succ, List.map_cons, List.cons_append, logs_cons hstep, ih, List.map_cons, List.cons_append, loggedAt]
    simp only [hnew, true_and, ne_eq, ite_not]

theorem logs_eq (hstep : 1 ≤ step) (hmono : Monotone percentOf) (hfinal : final ≠ analyzing)
    (hpercent : ∀ i ≤ k, 0 ≤ percentOf i ∧ percentOf i ≤ 100) :
    (({ step } : Progress).replies (Progress.reportAt percentOf total) (reportsOf k final)).map (·.log) =
      (List.range' 1 k).map (loggedAt step percentOf total) ++ [[line percentOf total k final]] := by
  rw [reportsOf]
  cases k with
  | zero => simp [Progress.replies, Progress.reportAt_log, hfinal]
  | succ n =>
    -- a new sink remembers a bucket that no report falls into
    have hnew : ¬ bucketOf step percentOf 1 = -1 := by
      have := bucketOf_bounds hstep (hpercent 1 (by omega))
      omega
    rw [List.range'_succ, List.map_cons, List.cons_append, logs_cons hstep,
      logs_from hstep hmono hfinal n 1 (Nat.le_refl 1), List.map_cons, List.cons_append, loggedAt, if_pos isFirst_one,
      if_neg fun h => hnew h.2]

theorem flatMap_loggedAt (k : ℕ) : (List.range' 1 k).flatMap (loggedAt step percentOf total) =
    (firsts (bucketOf step percentOf) k).map fun i => line percentOf total i analyzing := by
  rw [firsts]
  induction List.range' 1 k with
  | nil => rfl
  | cons i is ih =>
    rw [List.flatMap_cons, ih, loggedAt]
    by_cases hfirst : IsFirst (bucketOf step percentOf) i
    · simp [hfirst]
    · simp [hfirst]

end

/-- That a sink logs progress once for each step of the percentage, and then the end: what it replies to the reports of `k`
of a number of files, with given percentages. -/
structure Throttled (step : Int) (total : ℕ) (percentOf : ℕ → Int) (k : ℕ) (final : String)
    (replies : List (Run.Reply Progress)) : Prop where
  succeeds : ∀ r ∈ replies, r.failure = none
  logs : replies.map (·.log) =
    (List.range' 1 k).map (loggedAt step percentOf total) ++ [[line percentOf total k final]]
  lines : replies.flatMap (·.log) =
    (firsts (bucketOf step percentOf) k).map (fun i => line percentOf total i analyzing) ++ [line percentOf total k final]
  distinct : ((firsts (bucketOf step percentOf) k).map (bucketOf step percentOf)).Nodup
  covered : ∀ i, 1 ≤ i → i ≤ k → ∃ j ∈ firsts (bucketOf step percentOf) k,
    bucketOf step percentOf j = bucketOf step percentOf i
  few : ((firsts (bucketOf step percentOf) k).length : Int) ≤ 100 / step + 1
  rising : ((firsts (bucketOf step percentOf) k).map percentOf).Pairwise (· < ·)
  first : 1 ≤ k → (firsts (bucketOf step percentOf) k).head? = some 1

theorem throttled {percentOf : ℕ → Int} {step : Int} {k : ℕ} {final : String} (hstep : 1 ≤ step)
    (hmono : Monotone percentOf) (hfinal : final ≠ analyzing) (hpercent : ∀ i ≤ k, 0 ≤ percentOf i ∧ percentOf i ≤ 100) :
    Throttled step total percentOf k final
      (({ step } : Progress).replies (Progress.reportAt percentOf total) (reportsOf k final)) where
  succeeds := Progress.replies_failure _ _
  logs := logs_eq hstep hmono hfinal hpercent
  lines := by
    rw [List.flatMap_def, logs_eq hstep hmono hfinal hpercent, List.flatten_append, ← List.flatMap_def, flatMap_loggedAt]
    rfl
  distinct := List.pairwise_map.2 (firsts_pairwise.imp fun h => h.2)
  covered := fun _ hi hk => exists_first hi hk
  few := length_firsts_le (fun i hi => bucketOf_bounds hstep (hpercent i hi)) (Int.ediv_nonneg (by decide) (by omega))
  rising := by
    refine List.pairwise_map.2 (firsts_pairwise.imp fun {i j} h => lt_of_le_of_ne (hmono h.1.le) fun heq => h.2 ?_)
    rw [bucketOf, bucketOf, heq]
  first := by
    intro hk
    obtain ⟨n, rfl⟩ : ∃ n, k = n + 1 := ⟨k - 1, by omega⟩
    rw [firsts, List.range'_succ, List.filter_cons, if_pos (decide_eq_true isFirst_one), List.head?_cons]

/-- **Progress is logged once for each step of the percentage, and the end always.**  The report of a file is logged exactly
if no earlier one fell into the same step.  That holds of the percentages that are shown, which are read off doubles, and
would hold of the exact ones; the two are the same for all numbers of files below 2 ^ 47. -/
theorem progress_throttled {total k : ℕ} {step : Int} {final : String} (htotal : 1 ≤ total) (hstep : 1 ≤ step)
    (hk : k ≤ total) (hfinal : final ≠ analyzing) :
    (∀ i ≤ total, percent i total = .ok (shownPercent total i)) ∧
    Throttled step total (shownPercent total) k final
      (({ step } : Progress).replies (fun p processed phase => p.report processed total phase) (reportsOf k final)) ∧
    (total < 2 ^ 47 → ∀ i ≤ total, shownPercent total i = exactPercent total i) ∧
    Throttled step total (exactPercent total) k final
      (({ step } : Progress).replies (Progress.reportAt (exactPercent total) total) (reportsOf k final)) := by
  have hreports : ∀ r ∈ reportsOf k final, r.1 ≤ total := by
    intro r hr
    rcases List.mem_append.1 hr with hr | hr
    · obtain ⟨i, hi, rfl⟩ := List.mem_map.1 hr
      have := List.mem_range'_1.1 hi
      omega
    · rw [List.mem_singleton.1 hr]
      exact hk
  have hnonneg : ∀ i, 0 ≤ exactPercent total i := fun i => Int.natCast_nonneg _
  refine ⟨fun i hi => percent_eq htotal hi, ?_, fun hbound i hi => shownPercent_eq_exact htotal hbound hi, ?_⟩
  · rw [Progress.replies_report htotal _ (show step ≠ 0 by omega) hreports]
    refine throttled hstep shownPercent_mono hfinal fun i hi => ⟨?_, shownPercent_le (hi.trans hk)⟩
    exact (hnonneg i).trans (exactPercent_le_shown (hi.trans hk))
  · exact throttled hstep exactPercent_mono hfinal fun i hi => ⟨hnonneg i, exactPercent_le (hi.trans hk)⟩

/-- Of ten files in steps of fifty percent the first, the fifth and the tenth are logged, and the end. -/
theorem ten_files_logged : (1 ≤ 10 ∧ (1 : Int) ≤ 50 ∧ "completed" ≠ analyzing) ∧
    ((({ step := 50 } : Progress).replies (fun p processed phase => p.report processed (10 : ℕ) phase)
      (reportsOf 10 "completed")).flatMap (·.log)).map (·.message) =
      ["Progress: 1/10 files (10%) [analyzing]", "Progress: 5/10 files (50%) [analyzing]",
        "Progress: 10/10 files (100%) [analyzing]", "Progress: 10/10 files (100%) [completed]"] ∧
    ∀ i ≤ 10, shownPercent 10 i = i * 10 := by
  have hphase : "completed" ≠ analyzing := by decide
  have htotal : 1 ≤ 10 := by decide
  obtain ⟨-, hlogged, hexact, -⟩ := progress_throttled htotal (show (1 : Int) ≤ 50 by decide) (Nat.le_refl 10) hphase
  refine ⟨⟨by decide, by decide, hphase⟩, ?_, fun i hi => ?_⟩
  · rw [hlogged.lines]
    decide +kernel
  · rw [hexact (by decide) i hi, exactPercent]
    omega

end CodeReview.Sink
