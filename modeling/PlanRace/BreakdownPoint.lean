import PlanRace.BenchmarkOutcome
import PlanRace.RobustStatistics

/-!
# A few lucky samples cannot win

As long as no more trials than the clipping width favour the candidate at a
horizon, it earns nothing there. The tolerance on the sum of the horizon
weights decides whether a reward can exceed its bound.
-/

namespace BreakdownPoint

open JsonText ScoringV2 Statistics Fallible BenchmarkScoring BenchmarkOutcome RobustStatistics

section Horizon

variable {policy : BenchmarkPolicy ℝ} {evidence : BenchmarkEvidence ℝ} {horizon : Nat}

theorem penalty_nonneg (policy : BenchmarkPolicy ℝ) (evidence : BenchmarkEvidence ℝ) (horizon : Nat) :
    0 ≤ penalty policy evidence horizon :=
  mul_nonneg policy.zNonnegative (robustStandardError_nonneg _)

theorem relativeSavings_bounds (policy : BenchmarkPolicy ℝ) (evidence : BenchmarkEvidence ℝ)
    (horizon : Nat) : 0 ≤ (horizonOf policy evidence horizon).relativeSavings ∧
      (horizonOf policy evidence horizon).relativeSavings ≤ 1 :=
  ⟨le_max_left _ _, max_le zero_le_one (min_le_left _ _)⟩

/-- Savings are earned only above a speedup of one. -/
theorem relativeSavings_eq_zero
    (h : center policy evidence horizon - penalty policy evidence horizon ≤ 0) :
    (horizonOf policy evidence horizon).relativeSavings = 0 := by
  have least : (2 : ℝ) ^ (center policy evidence horizon - penalty policy evidence horizon) ≤ 1 :=
    Real.rpow_le_one_of_one_le_of_nonpos one_le_two h
  have positive : (0 : ℝ) < 2 ^ (center policy evidence horizon - penalty policy evidence horizon) :=
    Real.rpow_pos_of_pos two_pos _
  have loss : 1 - 1 / (2 : ℝ) ^ (center policy evidence horizon - penalty policy evidence horizon) ≤
      0 := by
    have inverse := one_le_one_div positive least
    linarith
  exact max_eq_left ((min_le_right _ _).trans loss)

/-- A log-ratio is positive when the candidate is faster. -/
theorem logSpeedup_pos_iff (known : 1 ≤ horizon) (trial : InterleavedTrial ℝ) :
    0 < Real.logb 2 (baselineTotal horizon trial / candidateTotal policy evidence horizon trial) ↔
      candidateTotal policy evidence horizon trial < baselineTotal horizon trial := by
  have candidate := candidateTotal_pos known policy evidence trial
  rw [Real.logb_pos_iff one_lt_two (div_pos (baselineTotal_pos known trial) candidate),
    one_lt_div candidate]

/-- The breakdown point of a horizon. -/
theorem relativeSavings_of_few (nonempty : completed evidence ≠ []) (known : 1 ≤ horizon)
    (few : fasterCount policy evidence horizon ≤ clipWidth policy evidence) :
    (horizonOf policy evidence horizon).relativeSavings = 0 := by
  apply relativeSavings_eq_zero
  have center : center policy evidence horizon ≤ 0 := by
    apply clippedMean_le_of_few
    · exact fun he => nonempty (List.map_eq_nil_iff.mp he)
    · rw [logSpeedups, List.length_map]
      exact winsorWidth_le _ _ _
    · refine le_trans (le_of_eq ?_) few
      rw [logSpeedups_eq, List.countP_map, fasterCount]
      apply List.countP_congr
      intro trial _
      simp only [Function.comp_apply, decide_eq_true_eq]
      exact logSpeedup_pos_iff known trial
  have subtracted := penalty_nonneg policy evidence horizon
  linarith

end Horizon

section Reward

variable {policy : BenchmarkPolicy ℝ} {evidence : BenchmarkEvidence ℝ}

theorem sum_zipWith_le_sum {α : Type} {weights : List ℝ} (nonnegative : ∀ w ∈ weights, 0 ≤ w)
    (parts : List α) {f : α → ℝ} (bounds : ∀ x, f x ≤ 1) :
    (List.zipWith (fun weight x => weight * f x) weights parts).sum ≤ weights.sum := by
  induction weights generalizing parts with
  | nil => simp
  | cons weight weights ih =>
    obtain ⟨hweight, hweights⟩ := List.forall_mem_cons.mp nonnegative
    cases parts with
    | nil =>
      rw [List.zipWith_nil_right, List.sum_nil]
      exact List.sum_nonneg nonnegative
    | cons x parts =>
      rw [List.zipWith_cons_cons, List.sum_cons, List.sum_cons]
      exact add_le_add (mul_le_of_le_one_right hweight (bounds x)) (ih hweights parts)

theorem weightedSavings_nonneg (policy : BenchmarkPolicy ℝ) (evidence : BenchmarkEvidence ℝ) :
    0 ≤ weightedSavings policy evidence := by
  apply List.sum_nonneg
  intro x hx
  obtain ⟨i, hi, rfl⟩ := List.mem_iff_getElem.mp hx
  rw [List.getElem_zipWith]
  exact mul_nonneg (policy.weightsNonnegative _ (List.getElem_mem _))
    (relativeSavings_bounds policy evidence _).1

theorem timeoutRate_bounds (evidence : BenchmarkEvidence ℝ) (nonempty : evidence.trials ≠ []) :
    0 ≤ timeoutRate evidence ∧ timeoutRate evidence ≤ 1 := by
  have some : (evidence.trials.map fun trial => if trial.candidateTimedOut then (1 : ℝ) else 0) ≠
      [] := fun he => nonempty (List.map_eq_nil_iff.mp he)
  constructor
  · apply le_fmean some
    intro x hx
    obtain ⟨trial, -, rfl⟩ := List.mem_map.mp hx
    split_ifs <;> norm_num
  · apply fmean_le some
    intro x hx
    obtain ⟨trial, -, rfl⟩ := List.mem_map.mp hx
    split_ifs <;> norm_num

/-- The number of lucky samples that `n` trials withstand. -/
noncomputable def withstood (policy : BenchmarkPolicy ℝ) (n : Nat) : Nat :=
  if policy.winsorFraction = 0 then 0 else min (max ⌊n * policy.winsorFraction⌋₊ 1) ((n - 1) / 2)

theorem clipWidth_eq_withstood (policy : BenchmarkPolicy ℝ) (evidence : BenchmarkEvidence ℝ) :
    clipWidth policy evidence = withstood policy (completed evidence).length := by
  unfold clipWidth winsorWidth withstood
  by_cases none : policy.winsorFraction = 0
  · rw [if_pos none, if_pos none, none, mul_zero, Nat.floor_zero, max_self, Nat.zero_min]
  · rw [if_neg none, if_neg none]

/-- What the reward of accepted evidence keeps to. -/
structure WithinBounds (policy : BenchmarkPolicy ℝ) (evidence : BenchmarkEvidence ℝ)
    (score : BenchmarkScore ℝ) : Prop where
  horizons : ∀ h ∈ score.horizons,
    fasterCount policy evidence h.horizon ≤ withstood policy (completed evidence).length →
      h.relativeSavings = 0
  broken : (∀ horizon ∈ policy.horizons,
    fasterCount policy evidence horizon ≤ withstood policy (completed evidence).length) →
      score.reward = 0
  bounds : 0 ≤ score.reward ∧ score.reward ≤ 100
  gates : score.benchmarkValid = false ∨ evidence.correct = false ∨ evidence.compliant = false →
    score.reward = 0
  reliable : score.reward ≤ 100 * (1 - score.timeoutRate) ^ 2

theorem withinBounds_of_stopped {score : BenchmarkScore ℝ} (reward : score.reward = 0)
    (horizons : score.horizons = []) : WithinBounds policy evidence score where
  horizons := by
    rw [horizons]
    exact fun _ hin => absurd hin List.not_mem_nil
  broken := fun _ => reward
  bounds := by
    rw [reward]
    norm_num
  gates := fun _ => reward
  reliable := by
    rw [reward]
    positivity

/-- With weights that sum to at most one, measured evidence keeps to its bounds. -/
theorem withinBounds_of_measured (weights : policy.horizonWeights.sum ≤ 1) {workerId : Text}
    (h : Measured policy evidence workerId) :
    WithinBounds policy evidence (measuredOf policy evidence workerId) := by
  have nonempty : completed evidence ≠ [] := List.ne_nil_of_length_pos (by linarith [h.pairs])
  have savings : weightedSavings policy evidence ≤ 1 :=
    (sum_zipWith_le_sum policy.weightsNonnegative policy.horizons
      fun horizon => (relativeSavings_bounds policy evidence horizon).2).trans weights
  have least := weightedSavings_nonneg policy evidence
  have reliability : (1 - timeoutRate evidence) ^ 2 ≤ 1 := by
    have trials : evidence.trials ≠ [] := by
      intro he
      exact nonempty (by rw [completed, he]; rfl)
    obtain ⟨rate, rate'⟩ := timeoutRate_bounds evidence trials
    exact pow_le_one₀ (by linarith) (by linarith)
  have square : 0 ≤ (1 - timeoutRate evidence) ^ 2 := sq_nonneg _
  have reliable : rewardOf policy evidence ≤ 100 * (1 - timeoutRate evidence) ^ 2 := by
    have scaled := mul_le_mul_of_nonneg_right savings square
    rw [rewardOf, mul_assoc]
    linarith
  have stopped : ∀ horizon ∈ policy.horizons,
      fasterCount policy evidence horizon ≤ withstood policy (completed evidence).length →
        (horizonOf policy evidence horizon).relativeSavings = 0 := by
    intro horizon hin few
    rw [← clipWidth_eq_withstood] at few
    exact relativeSavings_of_few nonempty (policy.horizonsPositive.2 horizon hin) few
  refine ⟨?_, ?_, ⟨?_, ?_⟩, ?_, reliable⟩
  · intro score hin few
    obtain ⟨horizon, hhorizon, rfl⟩ := List.mem_map.mp hin
    exact stopped horizon hhorizon few
  · intro few
    have none : weightedSavings policy evidence = 0 := by
      apply List.sum_eq_zero
      intro x hx
      obtain ⟨i, hi, rfl⟩ := List.mem_iff_getElem.mp hx
      rw [List.getElem_zipWith, stopped _ (List.getElem_mem _) (few _ (List.getElem_mem _)), mul_zero]
    change rewardOf policy evidence = 0
    rw [rewardOf, none, mul_zero, zero_mul]
  · change 0 ≤ rewardOf policy evidence
    exact mul_nonneg (mul_nonneg (by norm_num) least) square
  · change rewardOf policy evidence ≤ 100
    linarith
  · rintro (invalid | incorrect | rejected)
    · cases invalid
    · rw [h.correct] at incorrect
      cases incorrect
    · rw [h.compliant] at rejected
      cases rejected

end Reward

section Flat

/-- Every trial has the same timings, and the arms take turns. -/
noncomputable def flat (trials : Nat) (candidate : ℝ) (positive : 0 < candidate) : BenchmarkEvidence ℝ :=
  Sample.evidence 0 Sample.setup_free
    (List.replicate (trials / 2) (Sample.trial .baselineFirst 1 candidate ⟨one_pos, positive⟩) ++
      List.replicate (trials - trials / 2)
        (Sample.trial .candidateFirst 1 candidate ⟨one_pos, positive⟩))

variable {trials : Nat} {candidate : ℝ} {positive : 0 < candidate}

theorem mem_flat {trial : InterleavedTrial ℝ} (h : trial ∈ (flat trials candidate positive).trials) :
    ∃ order, trial = Sample.trial order 1 candidate ⟨one_pos, positive⟩ := by
  rcases List.mem_append.mp h with h | h
  · exact ⟨_, List.eq_of_mem_replicate h⟩
  · exact ⟨_, List.eq_of_mem_replicate h⟩

theorem length_flat : (flat trials candidate positive).trials.length = trials := by
  change (List.replicate _ _ ++ List.replicate _ _).length = trials
  rw [List.length_append, List.length_replicate, List.length_replicate]
  omega

theorem completed_flat :
    completed (flat trials candidate positive) = (flat trials candidate positive).trials := by
  apply List.filter_eq_self.mpr
  intro trial h
  obtain ⟨order, rfl⟩ := mem_flat h
  rfl

theorem timeoutRate_flat : timeoutRate (flat trials candidate positive) = 0 := by
  have zeros : ((flat trials candidate positive).trials.map fun trial =>
      if trial.candidateTimedOut then (1 : ℝ) else 0).sum = 0 := by
    apply List.sum_eq_zero
    intro x hx
    obtain ⟨trial, h, rfl⟩ := List.mem_map.mp hx
    obtain ⟨order, rfl⟩ := mem_flat h
    rfl
  rw [timeoutRate, fmean, zeros, zero_div]

theorem unbalanced_flat (two : 2 ≤ trials) :
    unbalanced (flat trials candidate positive).trials = false := by
  have baseline : orderCount (flat trials candidate positive).trials .baselineFirst = trials / 2 := by
    change List.countP _ (List.replicate _ _ ++ List.replicate _ _) = _
    simp [List.countP_replicate, Sample.trial]
  have candidates : orderCount (flat trials candidate positive).trials .candidateFirst =
      trials - trials / 2 := by
    change List.countP _ (List.replicate _ _ ++ List.replicate _ _) = _
    simp [List.countP_replicate, Sample.trial]
  simp only [unbalanced, baseline, candidates]
  have first : trials / 2 ≠ 0 := by omega
  have second : trials - trials / 2 ≠ 0 := by omega
  have apart : ¬ 1 < ((trials / 2 : Nat) - (trials - trials / 2 : Nat) : Int).natAbs := by omega
  simp only [beq_eq_false_iff_ne.mpr first, beq_eq_false_iff_ne.mpr second, Bool.or_self,
    decide_eq_false apart]

theorem measured_flat (policy : BenchmarkPolicy ℝ) :
    Measured policy (flat policy.minimumTrials candidate positive) ['w'] where
  enough := length_flat.ge
  oneWorker := by
    have two := policy.trialsBound
    have same : (flat policy.minimumTrials candidate positive).trials.map InterleavedTrial.workerId =
        List.replicate policy.minimumTrials ['w'] := by
      apply List.eq_replicate_iff.mpr
      refine ⟨by rw [List.length_map, length_flat], ?_⟩
      intro worker h
      obtain ⟨trial, htrial, rfl⟩ := List.mem_map.mp h
      obtain ⟨order, rfl⟩ := mem_flat htrial
      rfl
    rw [same]
    exact List.replicate_dedup (by omega)
  balanced := unbalanced_flat policy.trialsBound
  baseline := by
    rw [List.any_eq_false]
    intro trial h
    obtain ⟨order, rfl⟩ := mem_flat h
    exact Bool.false_ne_true
  correct := rfl
  compliant := rfl
  timely := by
    rw [timeoutRate_flat]
    exact policy.timeoutBounds.1
  pairs := by
    rw [completed_flat, length_flat]
    exact policy.trialsBound
  completedBalanced := by
    rw [completed_flat]
    exact unbalanced_flat policy.trialsBound

/-- Flat trials have one log-ratio, and no deviation from it. -/
theorem relativeSavings_flat (policy : BenchmarkPolicy ℝ) (small : candidate ≤ 1) {horizon : Nat}
    (known : 1 ≤ horizon) :
    (horizonOf policy (flat policy.minimumTrials candidate positive) horizon).relativeSavings =
      1 - candidate := by
  have several : (1 : ℝ) ≤ horizon := Nat.one_le_cast.mpr known
  have nonempty : logSpeedups policy (flat policy.minimumTrials candidate positive) horizon ≠ [] := by
    intro he
    have two := policy.trialsBound
    have none := List.length_eq_zero_iff.mpr he
    rw [logSpeedups, List.length_map, completed_flat, length_flat] at none
    omega
  have constant : ∀ x ∈ logSpeedups policy (flat policy.minimumTrials candidate positive) horizon,
      x = Real.logb 2 (1 / candidate) := by
    intro x hx
    rw [logSpeedups_eq, completed_flat] at hx
    obtain ⟨trial, h, rfl⟩ := List.mem_map.mp hx
    obtain ⟨order, rfl⟩ := mem_flat h
    have multiplier : storageMultiplier policy (flat policy.minimumTrials candidate positive) = 1 := by
      change 1 + ((0 : Nat) : ℝ) / ((1 : Nat) : ℝ) * _ = 1
      rw [Nat.cast_zero, zero_div, zero_mul, add_zero]
    have baseline : baselineTotal horizon (Sample.trial order 1 candidate ⟨one_pos, positive⟩) =
        horizon := by
      change 1 + (horizon - 1 : ℝ) * 1 = horizon
      ring
    have cost : candidateCost (flat policy.minimumTrials candidate positive) horizon
        (Sample.trial order 1 candidate ⟨one_pos, positive⟩) = horizon * candidate := by
      change 0 + candidate + (horizon - 1 : ℝ) * candidate = horizon * candidate
      ring
    rw [candidateTotal, multiplier, mul_one, baseline, cost, div_mul_eq_div_div,
      div_self (by linarith)]
    rfl
  have center : center policy (flat policy.minimumTrials candidate positive) horizon =
      Real.logb 2 (1 / candidate) := clippedMean_of_constant nonempty constant _
  have penalty : penalty policy (flat policy.minimumTrials candidate positive) horizon = 0 := by
    rw [BenchmarkOutcome.penalty, robustStandardError_of_constant constant, mul_zero]
  have speedup : (2 : ℝ) ^ Real.logb 2 (1 / candidate) = 1 / candidate :=
    Real.rpow_logb two_pos (by norm_num) (one_div_pos.mpr positive)
  change max 0 (min 1 (1 - 1 / (2 : ℝ) ^ (_ - _))) = _
  rw [center, penalty, sub_zero, speedup, one_div_one_div, min_eq_right (by linarith),
    max_eq_right (by linarith)]

/-- Flat trials save the same fraction at every horizon. -/
theorem rewardOf_flat (policy : BenchmarkPolicy ℝ) (small : candidate ≤ 1) :
    rewardOf policy (flat policy.minimumTrials candidate positive) =
      100 * ((1 - candidate) * policy.horizonWeights.sum) := by
  have parts : ∀ (weights : List ℝ) (horizons : List Nat), weights.length = horizons.length →
      (∀ horizon ∈ horizons, 1 ≤ horizon) →
        (List.zipWith (fun weight horizon => weight * (horizonOf policy
          (flat policy.minimumTrials candidate positive) horizon).relativeSavings) weights
            horizons).sum = (1 - candidate) * weights.sum := by
    intro weights
    induction weights with
    | nil => simp
    | cons weight weights ih =>
      intro horizons same known
      cases horizons with
      | nil => cases same
      | cons horizon horizons =>
        obtain ⟨first, rest⟩ := List.forall_mem_cons.mp known
        rw [List.zipWith_cons_cons, List.sum_cons, List.sum_cons,
          ih horizons (Nat.succ.inj same) rest, relativeSavings_flat policy small first]
        ring
  have savings : weightedSavings policy (flat policy.minimumTrials candidate positive) =
      (1 - candidate) * policy.horizonWeights.sum :=
    parts _ _ policy.oneWeightEach.symm policy.horizonsPositive.2
  rw [rewardOf, savings, timeoutRate_flat, sub_zero, one_pow, mul_one]

end Flat

/-- Weights that sum to more than one pay more than the bound to a fast enough
candidate. -/
theorem exists_exceeding {policy : BenchmarkPolicy ℝ} (weights : 1 < policy.horizonWeights.sum) :
    ∃ evidence score, scoreBenchmark policy evidence = .ok score ∧ 100 < score.reward := by
  have positive : 0 < (policy.horizonWeights.sum - 1) / (2 * policy.horizonWeights.sum) := by
    apply div_pos <;> linarith
  have small : (policy.horizonWeights.sum - 1) / (2 * policy.horizonWeights.sum) ≤ 1 := by
    rw [div_le_one (by linarith)]
    linarith
  refine ⟨flat policy.minimumTrials _ positive, _, scoreBenchmark_of_measured (measured_flat policy), ?_⟩
  change 100 < rewardOf policy _
  have half : (policy.horizonWeights.sum - 1) / (2 * policy.horizonWeights.sum) *
      policy.horizonWeights.sum = (policy.horizonWeights.sum - 1) / 2 := by
    have nonzero : policy.horizonWeights.sum ≠ 0 := by linarith
    field_simp
  rw [rewardOf_flat policy small, sub_mul, half]
  linarith

/-- The scores of a policy keep to their bounds exactly when its weights do. -/
theorem withinBounds_iff (policy : BenchmarkPolicy ℝ) :
    (∀ evidence score, scoreBenchmark policy evidence = .ok score →
      WithinBounds policy evidence score) ↔ policy.horizonWeights.sum ≤ 1 := by
  constructor
  · intro within
    by_contra exceeds
    obtain ⟨evidence, score, h, reward⟩ := exists_exceeding (not_le.mp exceeds)
    exact absurd (within evidence score h).bounds.2 (not_le.mpr reward)
  · intro weights evidence score h
    by_cases measured : ∃ workerId, Measured policy evidence workerId
    · obtain ⟨workerId, measured⟩ := measured
      obtain rfl := Except.ok.inj (h.symm.trans (scoreBenchmark_of_measured measured))
      exact withinBounds_of_measured weights measured
    · push Not at measured
      obtain ⟨stopped, hstopped, reward, horizons⟩ := scoreBenchmark_of_unmeasured measured
      obtain rfl := Except.ok.inj (h.symm.trans hstopped)
      exact withinBounds_of_stopped reward horizons

noncomputable section Tolerated

/-- One weight within the tolerance, a part in two billion above one. -/
def tolerated : BenchmarkPolicy ℝ :=
  Sample.policy (1 + 1 / (2 * 10 ^ 9)) 0 (by norm_num [Sample.NearOne]) Sample.setup_free

/-- A speedup of 2 ^ 34 under a tolerated policy is paid more than 100. -/
theorem tolerated_reward_exceeds :
    ¬ ∀ (policy : BenchmarkPolicy ℝ) (evidence : BenchmarkEvidence ℝ) (score : BenchmarkScore ℝ),
      scoreBenchmark policy evidence = .ok score → WithinBounds policy evidence score := by
  intro within
  have positive : (0 : ℝ) < 1 / 2 ^ 34 := by positivity
  have weights : tolerated.horizonWeights.sum = 1 + 1 / (2 * 10 ^ 9) := List.sum_singleton
  have reward := (within tolerated (flat tolerated.minimumTrials _ positive) _
    (scoreBenchmark_of_measured (measured_flat tolerated))).bounds.2
  change rewardOf tolerated _ ≤ 100 at reward
  rw [rewardOf_flat tolerated (by norm_num), weights] at reward
  norm_num at reward

end Tolerated

end BreakdownPoint
