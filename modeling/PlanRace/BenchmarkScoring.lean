import PlanRace.ScoringV2
import PlanRace.Library.Fallible
import Mathlib.Analysis.SpecialFunctions.Log.Base

/-!
# The score of one benchmark

`score_benchmark` pairs every candidate timing with the baseline on the same
worker. A broken baseline makes the benchmark invalid; a candidate that fails
is a valid zero.
-/

namespace BenchmarkScoring

open JsonText ScoringV2 Statistics Fallible

/-- `math.log2` and `2.0 ** x`. -/
class BinaryFunctions (K : Type) where
  log2 : K → K
  exp2 : K → K

noncomputable instance : BinaryFunctions ℝ := ⟨Real.logb 2, fun x => 2 ^ x⟩

inductive ExecutionOrder where
  | baselineFirst
  | candidateFirst
deriving DecidableEq

section Records

variable (K : Type) [Field K] [LinearOrder K]

/-- Precommitted benchmark parameters. -/
structure BenchmarkPolicy where
  horizons : List Nat := [1, 10, 100, 1000]
  horizonWeights : List K := [15 / 100, 25 / 100, 30 / 100, 30 / 100]
  minimumTrials : Nat := 6
  winsorFraction : K := 1 / 10
  confidenceZ : K := 128 / 100
  maximumTimeoutRate : K := 1 / 5
  storagePenaltyAtDatabaseSize : K := 1 / 10
  horizonsPositive : horizons ≠ [] ∧ ∀ horizon ∈ horizons, 1 ≤ horizon
  oneWeightEach : horizons.length = horizonWeights.length
  weightsNonnegative : ∀ weight ∈ horizonWeights, 0 ≤ weight
  /-- `math.isclose(sum, 1.0, abs_tol=1e-12)`. -/
  weightsSumToOne : |horizonWeights.sum - 1| ≤
    max (1 / 10 ^ 9 * max |horizonWeights.sum| 1) (1 / 10 ^ 12)
  trialsBound : 2 ≤ minimumTrials
  winsorBounds : 0 ≤ winsorFraction ∧ winsorFraction < 1 / 2
  zNonnegative : 0 ≤ confidenceZ
  timeoutBounds : 0 ≤ maximumTimeoutRate ∧ maximumTimeoutRate < 1
  penaltyNonnegative : 0 ≤ storagePenaltyAtDatabaseSize

/-- A timing pair collected inside one disposable worker. -/
structure InterleavedTrial where
  workerId : Text
  order : ExecutionOrder
  baselineColdMs : K
  candidateColdMs : K
  baselineWarmMs : K
  candidateWarmMs : K
  baselineTimedOut : Bool := false
  candidateTimedOut : Bool := false
  identified : workerId ≠ []
  timesPositive : 0 < baselineColdMs ∧ 0 < candidateColdMs ∧ 0 < baselineWarmMs ∧
    0 < candidateWarmMs

/-- Validator-owned measurements for one artifact on one hidden task. -/
structure BenchmarkEvidence where
  correct : Bool
  compliant : Bool
  setupMs : K
  artifactStorageBytes : Nat
  databaseBytes : Nat
  trials : List (InterleavedTrial K)
  setupNonnegative : 0 ≤ setupMs
  databasePositive : 0 < databaseBytes

structure HorizonScore where
  horizon : Nat
  relativeSpeedup : K
  lowerConfidenceSpeedup : K
  relativeSavings : K

inductive BenchmarkFailure where
  | insufficientTrials
  | mixedWorkers
  | unbalancedInterleaving
  | baselineTimeout
  | resultMismatch
  | policyRejected
  | timeoutRate
  | candidateTimeout
  | timeoutOrderImbalance
  | noRelativeImprovement
deriving DecidableEq

def BenchmarkFailure.text : BenchmarkFailure → Text
  | insufficientTrials => "insufficient_trials".toList
  | mixedWorkers => "mixed_workers".toList
  | unbalancedInterleaving => "unbalanced_interleaving".toList
  | baselineTimeout => "baseline_timeout".toList
  | resultMismatch => "result_mismatch".toList
  | policyRejected => "policy_rejected".toList
  | timeoutRate => "timeout_rate".toList
  | candidateTimeout => "candidate_timeout".toList
  | timeoutOrderImbalance => "timeout_order_imbalance".toList
  | noRelativeImprovement => "no_relative_improvement".toList

structure BenchmarkScore where
  eligible : Bool
  benchmarkValid : Bool
  reward : K
  failureCode : Option BenchmarkFailure
  workerId : Option Text
  timeoutRate : K
  storageRatio : K
  horizons : List (HorizonScore K)

end Records

section Score

variable {K : Type} [Field K] [LinearOrder K]

def orderCount (trials : List (InterleavedTrial K)) (order : ExecutionOrder) : Nat :=
  trials.countP fun trial => trial.order = order

/-- One arm is missing, or the arms differ by more than one trial. -/
def unbalanced (trials : List (InterleavedTrial K)) : Bool :=
  let baseline := orderCount trials .baselineFirst
  let candidate := orderCount trials .candidateFirst
  baseline == 0 || candidate == 0 || decide (1 < (baseline - candidate : Int).natAbs)

/-- A score without reward. -/
def zeroScore (benchmarkValid : Bool) (failure : BenchmarkFailure) (workerId : Option Text)
    (timeoutRate storageRatio : K) : BenchmarkScore K where
  eligible := false
  benchmarkValid := benchmarkValid
  reward := 0
  failureCode := some failure
  workerId := workerId
  timeoutRate := timeoutRate
  storageRatio := storageRatio
  horizons := []

theorem zeroScore_ok (benchmarkValid : Bool) (failure : BenchmarkFailure) (workerId : Option Text)
    (timeoutRate storageRatio : K) :
    ∃ score, (Except.ok
        (zeroScore benchmarkValid failure workerId timeoutRate storageRatio) :
          Except ScoringError (BenchmarkScore K)) = .ok score ∧
      0 ≤ score.reward :=
  ⟨_, rfl, le_refl 0⟩

theorem sum_zipWith_nonneg [IsStrictOrderedRing K] {weights : List K} (hweights : ∀ w ∈ weights, 0 ≤ w)
    {scores : List (HorizonScore K)} (hscores : ∀ s ∈ scores, 0 ≤ s.relativeSavings) :
    0 ≤ (List.zipWith (fun weight score => weight * score.relativeSavings) weights scores).sum := by
  induction weights generalizing scores with
  | nil => simp
  | cons weight weights ih =>
    cases scores with
    | nil => simp
    | cons score scores =>
      obtain ⟨hweight, hweights⟩ := List.forall_mem_cons.mp hweights
      obtain ⟨hscore, hscores⟩ := List.forall_mem_cons.mp hscores
      rw [List.zipWith_cons_cons, List.sum_cons]
      exact add_nonneg (mul_nonneg hweight hscore) (ih hweights hscores)

variable [FloorSemiring K] [RealFunctions K] [BinaryFunctions K]

/-- `math.log2(baseline_total / candidate_total)` of one trial. -/
def logSpeedup (evidence : BenchmarkEvidence K) (storageMultiplier : K) (horizon : Nat)
    (trial : InterleavedTrial K) : K :=
  let baselineTotal := trial.baselineColdMs + (horizon - 1 : K) * trial.baselineWarmMs
  let candidateTotal := (evidence.setupMs + trial.candidateColdMs +
    (horizon - 1 : K) * trial.candidateWarmMs) * storageMultiplier
  BinaryFunctions.log2 (baselineTotal / candidateTotal)

def horizonScore (policy : BenchmarkPolicy K) (logSpeedups : List K) (horizon : Nat) :
    Except ScoringError (HorizonScore K) := do
  let center ← winsorizedMean logSpeedups policy.winsorFraction 1
  let lowerBound := center - policy.confidenceZ * robustStandardError logSpeedups
  let lowerConfidenceSpeedup := BinaryFunctions.exp2 lowerBound
  return {
    horizon := horizon
    relativeSpeedup := BinaryFunctions.exp2 center
    lowerConfidenceSpeedup := lowerConfidenceSpeedup
    relativeSavings := max 0 (min 1 (1 - 1 / lowerConfidenceSpeedup)) }

/-- `score_benchmark` once the trials and the candidate have passed every gate. -/
def measuredScore (policy : BenchmarkPolicy K) (evidence : BenchmarkEvidence K) (workerId : Text)
    (timeoutRate storageRatio : K) (completed : List (InterleavedTrial K)) :
    Except ScoringError (BenchmarkScore K) := do
  let storageMultiplier := 1 + storageRatio * policy.storagePenaltyAtDatabaseSize
  let horizonScores ← policy.horizons.mapM fun horizon =>
    horizonScore policy (completed.map (logSpeedup evidence storageMultiplier horizon)) horizon
  let weightedSavings :=
    (List.zipWith (fun weight score => weight * score.relativeSavings) policy.horizonWeights
      horizonScores).sum
  let reliability := (1 - timeoutRate) ^ 2
  let reward := 100 * weightedSavings * reliability
  return {
    eligible := decide (0 < reward)
    benchmarkValid := true
    reward := reward
    failureCode := if 0 < reward then none else some .noRelativeImprovement
    workerId := some workerId
    timeoutRate := timeoutRate
    storageRatio := storageRatio
    horizons := horizonScores }

def scoreBenchmark (policy : BenchmarkPolicy K) (evidence : BenchmarkEvidence K) :
    Except ScoringError (BenchmarkScore K) :=
  let storageRatio : K := evidence.artifactStorageBytes / evidence.databaseBytes
  if evidence.trials.length < policy.minimumTrials then
    .ok (zeroScore false .insufficientTrials none 0 storageRatio)
  else
    match (evidence.trials.map InterleavedTrial.workerId).dedup with
    | [workerId] =>
      if unbalanced evidence.trials then
        .ok (zeroScore false .unbalancedInterleaving (some workerId) 0 storageRatio)
      else if evidence.trials.any InterleavedTrial.baselineTimedOut then
        .ok (zeroScore false .baselineTimeout (some workerId) 0 storageRatio)
      else
        let timeoutRate : K := fmean
          (evidence.trials.map fun trial => if trial.candidateTimedOut then 1 else 0)
        let completed := evidence.trials.filter fun trial => !trial.candidateTimedOut
        if ¬ evidence.correct then
          .ok (zeroScore true .resultMismatch (some workerId) timeoutRate storageRatio)
        else if ¬ evidence.compliant then
          .ok (zeroScore true .policyRejected (some workerId) timeoutRate storageRatio)
        else if policy.maximumTimeoutRate < timeoutRate then
          .ok (zeroScore true .timeoutRate (some workerId) timeoutRate storageRatio)
        else if completed.length < 2 then
          .ok (zeroScore true .candidateTimeout (some workerId) timeoutRate storageRatio)
        else if unbalanced completed then
          .ok (zeroScore true .timeoutOrderImbalance (some workerId) timeoutRate storageRatio)
        else measuredScore policy evidence workerId timeoutRate storageRatio completed
    | _ => .ok (zeroScore false .mixedWorkers none 0 storageRatio)

/-- Without trials there is no valid benchmark. -/
theorem scoreBenchmark_of_no_trials (policy : BenchmarkPolicy K) {evidence : BenchmarkEvidence K}
    (h : evidence.trials = []) :
    scoreBenchmark policy evidence = .ok (zeroScore false .insufficientTrials none 0
      (evidence.artifactStorageBytes / evidence.databaseBytes)) := by
  have hfew : evidence.trials.length < policy.minimumTrials := by
    rw [h, List.length_nil]
    have hbound := policy.trialsBound
    omega
  simp only [scoreBenchmark, hfew, if_true]

theorem horizonScore_ok (policy : BenchmarkPolicy K) {logSpeedups : List K}
    (nonempty : logSpeedups ≠ []) (horizon : Nat) :
    ∃ score, horizonScore policy logSpeedups horizon = .ok score ∧ 0 ≤ score.relativeSavings := by
  have mean := winsorizedMean_eq nonempty policy.winsorBounds 1
  rw [Nat.cast_one] at mean
  unfold horizonScore
  rw [mean]
  exact ⟨_, rfl, le_max_left 0 _⟩

variable [IsStrictOrderedRing K]

/-- Trials that passed every gate can be scored. -/
theorem measuredScore_ok (policy : BenchmarkPolicy K) (evidence : BenchmarkEvidence K)
    (workerId : Text) (timeoutRate storageRatio : K) {completed : List (InterleavedTrial K)}
    (nonempty : completed ≠ []) :
    ∃ score, measuredScore policy evidence workerId timeoutRate storageRatio completed =
      .ok score ∧ score.benchmarkValid = true ∧ 0 ≤ score.reward := by
  have speedups : ∀ f : InterleavedTrial K → K, completed.map f ≠ [] := fun f h =>
    nonempty (List.map_eq_nil_iff.mp h)
  obtain ⟨scores, hscores, nonnegative⟩ := exists_mapM fun horizon (_ : horizon ∈ policy.horizons) =>
    horizonScore_ok policy (speedups (logSpeedup evidence
      (1 + storageRatio * policy.storagePenaltyAtDatabaseSize) horizon)) horizon
  unfold measuredScore
  dsimp only
  rw [hscores]
  refine ⟨_, rfl, rfl, ?_⟩
  have savings := sum_zipWith_nonneg policy.weightsNonnegative nonnegative
  exact mul_nonneg (mul_nonneg (by norm_num) savings) (sq_nonneg _)

/-- Every benchmark is scored, and no reward is negative. -/
theorem scoreBenchmark_ok (policy : BenchmarkPolicy K) (evidence : BenchmarkEvidence K) :
    ∃ score, scoreBenchmark policy evidence = .ok score ∧ 0 ≤ score.reward := by
  unfold scoreBenchmark
  refine ok_ite (zeroScore_ok _ _ _ _ _) fun _ => ?_
  cases (evidence.trials.map InterleavedTrial.workerId).dedup with
  | nil => exact zeroScore_ok _ _ _ _ _
  | cons workerId others =>
    cases others with
    | cons _ _ => exact zeroScore_ok _ _ _ _ _
    | nil =>
      refine ok_ite (zeroScore_ok _ _ _ _ _) fun _ => ?_
      refine ok_ite (zeroScore_ok _ _ _ _ _) fun _ => ?_
      refine ok_ite (zeroScore_ok _ _ _ _ _) fun _ => ?_
      refine ok_ite (zeroScore_ok _ _ _ _ _) fun _ => ?_
      refine ok_ite (zeroScore_ok _ _ _ _ _) fun _ => ?_
      refine ok_ite (zeroScore_ok _ _ _ _ _) fun enough => ?_
      refine ok_ite (zeroScore_ok _ _ _ _ _) fun _ => ?_
      obtain ⟨score, hscore, -, nonnegative⟩ := measuredScore_ok policy evidence workerId _ _
        (List.ne_nil_of_length_pos (Nat.lt_of_lt_of_le two_pos (Nat.not_lt.mp enough)))
      exact ⟨score, hscore, nonnegative⟩

end Score

end BenchmarkScoring
