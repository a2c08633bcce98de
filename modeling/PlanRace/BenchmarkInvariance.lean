import PlanRace.BenchmarkOutcome
import PlanRace.RobustStatistics

/-!
# Only relative speed counts

A score looks at the ratios of timings and not at the order of the trials. A
machine that is slower by a constant factor leaves every field unchanged.
-/

namespace BenchmarkInvariance

open JsonText ScoringV2 Statistics Fallible BenchmarkScoring BenchmarkOutcome RobustStatistics

variable {K : Type} [Field K] [LinearOrder K]

section Permutation

/-- One worker, or not one worker, in either order. -/
theorem match_dedup_eq_of_perm {α : Type} {xs ys : List Text} (h : xs.Perm ys) (one : Text → α)
    (other : α) :
    (match xs.dedup with | [worker] => one worker | _ => other) =
      match ys.dedup with | [worker] => one worker | _ => other := by
  have same := h.dedup
  cases hxs : xs.dedup with
  | nil =>
    rw [hxs] at same
    rw [List.nil_perm.mp same]
  | cons worker rest =>
    rw [hxs] at same
    cases rest with
    | nil => rw [List.singleton_perm.mp same]
    | cons second rest =>
      cases hys : ys.dedup with
      | nil => rfl
      | cons worker' rest' =>
        cases rest' with
        | nil =>
          rw [hys] at same
          exact absurd same.length_eq (by simp)
        | cons _ _ => rfl

theorem unbalanced_eq_of_perm {xs ys : List (InterleavedTrial K)} (h : xs.Perm ys) :
    unbalanced xs = unbalanced ys := by
  have counts : ∀ order, orderCount xs order = orderCount ys order := fun _ => h.countP_eq _
  simp only [unbalanced, counts]

variable [FloorSemiring K] [RealFunctions K] [BinaryFunctions K]

omit [BinaryFunctions K] [RealFunctions K] in
theorem winsorizedMean_eq_of_perm {xs ys : List K} (h : xs.Perm ys) (fraction : K)
    (minimumWidth : Int) :
    winsorizedMean xs fraction minimumWidth = winsorizedMean ys fraction minimumWidth := by
  have empty : xs = [] ↔ ys = [] := by
    rw [← List.length_eq_zero_iff, ← List.length_eq_zero_iff, h.length_eq]
  simp only [winsorizedMean, empty, h.length_eq, clippedMean_eq_of_perm h]

theorem measuredScore_eq_of_perm (policy : BenchmarkPolicy K) (evidence : BenchmarkEvidence K)
    (workerId : Text) (timeoutRate storageRatio : K) {xs ys : List (InterleavedTrial K)}
    (h : xs.Perm ys) :
    measuredScore policy evidence workerId timeoutRate storageRatio xs =
      measuredScore policy evidence workerId timeoutRate storageRatio ys := by
  have scores : ∀ multiplier horizon,
      horizonScore policy (xs.map (logSpeedup evidence multiplier horizon)) horizon =
        horizonScore policy (ys.map (logSpeedup evidence multiplier horizon)) horizon := by
    intro multiplier horizon
    have speedups := h.map (logSpeedup evidence multiplier horizon)
    rw [horizonScore, horizonScore, winsorizedMean_eq_of_perm speedups,
      robustStandardError_eq_of_perm speedups]
  simp only [measuredScore, scores]

/-- A score does not depend on the order of the trials. -/
theorem scoreBenchmark_eq_of_perm (policy : BenchmarkPolicy K) (evidence : BenchmarkEvidence K)
    {xs ys : List (InterleavedTrial K)} (h : xs.Perm ys) :
    scoreBenchmark policy { evidence with trials := xs } =
      scoreBenchmark policy { evidence with trials := ys } := by
  have rate := fmean_eq_of_perm
    (h.map fun trial => if trial.candidateTimedOut then (1 : K) else 0)
  have completed := h.filter fun trial => !trial.candidateTimedOut
  have workers := h.map InterleavedTrial.workerId
  have measured : ∀ workerId timeoutRate storageRatio,
      measuredScore policy { evidence with trials := xs } workerId timeoutRate storageRatio
          (xs.filter fun trial => !trial.candidateTimedOut) =
        measuredScore policy { evidence with trials := ys } workerId timeoutRate storageRatio
          (ys.filter fun trial => !trial.candidateTimedOut) :=
    fun workerId timeoutRate storageRatio =>
      measuredScore_eq_of_perm policy { evidence with trials := xs } workerId _ _ completed
  have baseline : xs.any InterleavedTrial.baselineTimedOut =
      ys.any InterleavedTrial.baselineTimedOut := h.any_eq
  simp only [scoreBenchmark, h.length_eq, unbalanced_eq_of_perm h, baseline, rate,
    completed.length_eq, unbalanced_eq_of_perm completed, measured]
  by_cases few : ys.length < policy.minimumTrials
  · rw [if_pos few, if_pos few]
  · rw [if_neg few, if_neg few]
    exact match_dedup_eq_of_perm workers _ _

end Permutation

section Scale

/-- A trial on a machine that is slower by the factor `c`. -/
def scaled [IsStrictOrderedRing K] (c : K) (positive : 0 < c) (trial : InterleavedTrial K) :
    InterleavedTrial K where
  workerId := trial.workerId
  order := trial.order
  baselineColdMs := c * trial.baselineColdMs
  candidateColdMs := c * trial.candidateColdMs
  baselineWarmMs := c * trial.baselineWarmMs
  candidateWarmMs := c * trial.candidateWarmMs
  baselineTimedOut := trial.baselineTimedOut
  candidateTimedOut := trial.candidateTimedOut
  identified := trial.identified
  timesPositive := ⟨mul_pos positive trial.timesPositive.1, mul_pos positive trial.timesPositive.2.1,
    mul_pos positive trial.timesPositive.2.2.1, mul_pos positive trial.timesPositive.2.2.2⟩

variable [IsStrictOrderedRing K]

/-- The evidence of a machine that is slower by the factor `c`, with its trials
in another order. -/
def rescaled (c : K) (positive : 0 < c) (evidence : BenchmarkEvidence K)
    (trials : List (InterleavedTrial K)) : BenchmarkEvidence K :=
  { evidence with
    setupMs := c * evidence.setupMs
    trials := trials.map (scaled c positive)
    setupNonnegative := mul_nonneg positive.le evidence.setupNonnegative }

variable [FloorSemiring K] [RealFunctions K] [BinaryFunctions K]

omit [FloorSemiring K] [RealFunctions K] in
/-- The factor cancels in the ratio. -/
theorem logSpeedup_rescaled (c : K) (positive : 0 < c) (evidence : BenchmarkEvidence K)
    (trials : List (InterleavedTrial K)) (multiplier : K) (horizon : Nat)
    (trial : InterleavedTrial K) :
    logSpeedup (rescaled c positive evidence trials) multiplier horizon (scaled c positive trial) =
      logSpeedup evidence multiplier horizon trial := by
  have baseline : c * trial.baselineColdMs + (horizon - 1 : K) * (c * trial.baselineWarmMs) =
      c * (trial.baselineColdMs + (horizon - 1 : K) * trial.baselineWarmMs) := by
    ring
  have candidate : (c * evidence.setupMs + c * trial.candidateColdMs +
      (horizon - 1 : K) * (c * trial.candidateWarmMs)) * multiplier =
      c * ((evidence.setupMs + trial.candidateColdMs + (horizon - 1 : K) * trial.candidateWarmMs) *
        multiplier) := by
    ring
  simp only [logSpeedup, rescaled, scaled, baseline, candidate]
  rw [mul_div_mul_left _ _ positive.ne']

theorem measuredScore_rescaled (policy : BenchmarkPolicy K) (c : K) (positive : 0 < c)
    (evidence : BenchmarkEvidence K) (trials completed : List (InterleavedTrial K))
    (workerId : Text) (timeoutRate storageRatio : K) :
    measuredScore policy (rescaled c positive evidence trials) workerId timeoutRate storageRatio
        (completed.map (scaled c positive)) =
      measuredScore policy evidence workerId timeoutRate storageRatio completed := by
  have speedups : ∀ multiplier horizon, (completed.map (scaled c positive)).map
      (logSpeedup (rescaled c positive evidence trials) multiplier horizon) =
        completed.map (logSpeedup evidence multiplier horizon) := by
    intro multiplier horizon
    rw [List.map_map]
    exact List.map_congr_left fun trial _ => logSpeedup_rescaled c positive evidence trials _ _ trial
  simp only [measuredScore, speedups]

/-- A score does not depend on the speed of the machine. -/
theorem scoreBenchmark_eq_of_scaled (policy : BenchmarkPolicy K) (c : K) (positive : 0 < c)
    (evidence : BenchmarkEvidence K) :
    scoreBenchmark policy (rescaled c positive evidence evidence.trials) =
      scoreBenchmark policy evidence := by
  have workers : (evidence.trials.map (scaled c positive)).map InterleavedTrial.workerId =
      evidence.trials.map InterleavedTrial.workerId := List.map_map
  have timeouts : (evidence.trials.map (scaled c positive)).map
      (fun trial => if trial.candidateTimedOut then (1 : K) else 0) =
        evidence.trials.map fun trial => if trial.candidateTimedOut then 1 else 0 := List.map_map
  have baseline : (evidence.trials.map (scaled c positive)).any InterleavedTrial.baselineTimedOut =
      evidence.trials.any InterleavedTrial.baselineTimedOut := List.any_map
  have completed : (evidence.trials.map (scaled c positive)).filter
      (fun trial => !trial.candidateTimedOut) =
        (evidence.trials.filter fun trial => !trial.candidateTimedOut).map (scaled c positive) :=
    List.filter_map
  have balance : ∀ trials : List (InterleavedTrial K),
      unbalanced (trials.map (scaled c positive)) = unbalanced trials := by
    intro trials
    have counts : ∀ order, orderCount (trials.map (scaled c positive)) order =
        orderCount trials order := fun order => List.countP_map
    simp only [unbalanced, counts]
  have measured := measuredScore_rescaled policy c positive evidence evidence.trials
    (evidence.trials.filter fun trial => !trial.candidateTimedOut)
  have shown : (rescaled c positive evidence evidence.trials).trials =
      evidence.trials.map (scaled c positive) := rfl
  simp only [scoreBenchmark, shown, workers, timeouts, baseline, completed, balance, measured,
    List.length_map]
  rfl

/-- Neither the speed of the machine nor the order of the trials is scored. -/
theorem scoreBenchmark_rescaled (policy : BenchmarkPolicy K) (evidence : BenchmarkEvidence K)
    (c : K) (positive : 0 < c) (trials : List (InterleavedTrial K))
    (permuted : trials.Perm evidence.trials) :
    scoreBenchmark policy (rescaled c positive evidence trials) = scoreBenchmark policy evidence := by
  rw [← scoreBenchmark_eq_of_scaled policy c positive evidence]
  exact scoreBenchmark_eq_of_perm policy (rescaled c positive evidence evidence.trials)
    (permuted.map (scaled c positive))

end Scale

open BenchmarkOutcome.Sample in
/-- Half the speed, and the trials in the other order. -/
theorem scoreBenchmark_rescaled_pair :
    scoreBenchmark (policy 1 0 ⟨zero_le_one, by norm_num [NearOne]⟩ (le_refl 0))
        (rescaled 2 two_pos
          (evidence 3 (by norm_num)
            [trial .baselineFirst 8 1 (by norm_num), trial .candidateFirst 4 2 (by norm_num)])
          [trial .candidateFirst 4 2 (by norm_num), trial .baselineFirst 8 1 (by norm_num)]) =
      scoreBenchmark (policy 1 0 ⟨zero_le_one, by norm_num [NearOne]⟩ (le_refl 0))
        (evidence 3 (by norm_num)
          [trial .baselineFirst 8 1 (by norm_num), trial .candidateFirst 4 2 (by norm_num)]) :=
  scoreBenchmark_rescaled _ _ 2 two_pos _ (.swap _ _ [])

end BenchmarkInvariance
