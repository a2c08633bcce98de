import PlanRace.BenchmarkScoring

/-!
# What a scored benchmark is made of

`scoreBenchmark` is inverted once: evidence that passes every gate is measured,
and all other evidence scores zero.
-/

namespace BenchmarkOutcome

open JsonText ScoringV2 Statistics Fallible BenchmarkScoring

variable {K : Type} [Field K] [LinearOrder K]

section Totals

/-- `baseline_total` of a trial. -/
def baselineTotal (horizon : Nat) (trial : InterleavedTrial K) : K :=
  trial.baselineColdMs + (horizon - 1 : K) * trial.baselineWarmMs

/-- `candidate_total` of a trial before storage is charged. -/
def candidateCost (evidence : BenchmarkEvidence K) (horizon : Nat) (trial : InterleavedTrial K) : K :=
  evidence.setupMs + trial.candidateColdMs + (horizon - 1 : K) * trial.candidateWarmMs

def storageMultiplier (policy : BenchmarkPolicy K) (evidence : BenchmarkEvidence K) : K :=
  1 + (evidence.artifactStorageBytes / evidence.databaseBytes : K) *
    policy.storagePenaltyAtDatabaseSize

/-- `candidate_total` of a trial. -/
def candidateTotal (policy : BenchmarkPolicy K) (evidence : BenchmarkEvidence K) (horizon : Nat)
    (trial : InterleavedTrial K) : K :=
  candidateCost evidence horizon trial * storageMultiplier policy evidence

variable [IsStrictOrderedRing K]

theorem baselineTotal_pos {horizon : Nat} (h : 1 ≤ horizon) (trial : InterleavedTrial K) :
    0 < baselineTotal horizon trial := by
  have repeats : (0 : K) ≤ horizon - 1 := sub_nonneg.mpr (Nat.one_le_cast.mpr h)
  exact add_pos_of_pos_of_nonneg trial.timesPositive.1
    (mul_nonneg repeats trial.timesPositive.2.2.1.le)

theorem candidateCost_pos {horizon : Nat} (h : 1 ≤ horizon) (evidence : BenchmarkEvidence K)
    (trial : InterleavedTrial K) : 0 < candidateCost evidence horizon trial := by
  have repeats : (0 : K) ≤ horizon - 1 := sub_nonneg.mpr (Nat.one_le_cast.mpr h)
  exact add_pos_of_pos_of_nonneg
    (add_pos_of_nonneg_of_pos evidence.setupNonnegative trial.timesPositive.2.1)
    (mul_nonneg repeats trial.timesPositive.2.2.2.le)

theorem one_le_storageMultiplier (policy : BenchmarkPolicy K) (evidence : BenchmarkEvidence K) :
    1 ≤ storageMultiplier policy evidence := by
  have ratio : (0 : K) ≤ evidence.artifactStorageBytes / evidence.databaseBytes :=
    div_nonneg (Nat.cast_nonneg _) (Nat.cast_nonneg _)
  exact le_add_of_nonneg_right (mul_nonneg ratio policy.penaltyNonnegative)

theorem storageMultiplier_pos (policy : BenchmarkPolicy K) (evidence : BenchmarkEvidence K) :
    0 < storageMultiplier policy evidence :=
  zero_lt_one.trans_le (one_le_storageMultiplier policy evidence)

theorem candidateTotal_pos {horizon : Nat} (h : 1 ≤ horizon) (policy : BenchmarkPolicy K)
    (evidence : BenchmarkEvidence K) (trial : InterleavedTrial K) :
    0 < candidateTotal policy evidence horizon trial :=
  mul_pos (candidateCost_pos h evidence trial) (storageMultiplier_pos policy evidence)

end Totals

section Measured

/-- The trials that the candidate completed. -/
def completed (evidence : BenchmarkEvidence K) : List (InterleavedTrial K) :=
  evidence.trials.filter fun trial => !trial.candidateTimedOut

def timeoutRate (evidence : BenchmarkEvidence K) : K :=
  fmean (evidence.trials.map fun trial => if trial.candidateTimedOut then 1 else 0)

/-- The width by which the log-ratios of a benchmark are clipped. -/
def clipWidth [FloorSemiring K] (policy : BenchmarkPolicy K) (evidence : BenchmarkEvidence K) : Nat :=
  winsorWidth (completed evidence).length policy.winsorFraction 1

/-- The completed trials in which the candidate was faster. -/
def fasterCount (policy : BenchmarkPolicy K) (evidence : BenchmarkEvidence K) (horizon : Nat) : Nat :=
  (completed evidence).countP fun trial =>
    candidateTotal policy evidence horizon trial < baselineTotal horizon trial

variable [BinaryFunctions K]

/-- The log-ratios at a horizon. -/
def logSpeedups (policy : BenchmarkPolicy K) (evidence : BenchmarkEvidence K) (horizon : Nat) :
    List K :=
  (completed evidence).map (logSpeedup evidence (storageMultiplier policy evidence) horizon)

theorem logSpeedups_eq (policy : BenchmarkPolicy K) (evidence : BenchmarkEvidence K)
    (horizon : Nat) : logSpeedups policy evidence horizon = (completed evidence).map fun trial =>
      BinaryFunctions.log2 (baselineTotal horizon trial /
        candidateTotal policy evidence horizon trial) := rfl

variable [FloorSemiring K] [RealFunctions K]

/-- The winsorized mean of the log-ratios at a horizon. -/
def center (policy : BenchmarkPolicy K) (evidence : BenchmarkEvidence K) (horizon : Nat) : K :=
  clippedMean (logSpeedups policy evidence horizon) (clipWidth policy evidence)

/-- What is subtracted from the mean. -/
def penalty (policy : BenchmarkPolicy K) (evidence : BenchmarkEvidence K) (horizon : Nat) : K :=
  policy.confidenceZ * robustStandardError (logSpeedups policy evidence horizon)

/-- The score of measured evidence at a horizon. -/
def horizonOf (policy : BenchmarkPolicy K) (evidence : BenchmarkEvidence K) (horizon : Nat) :
    HorizonScore K where
  horizon := horizon
  relativeSpeedup := BinaryFunctions.exp2 (center policy evidence horizon)
  lowerConfidenceSpeedup := BinaryFunctions.exp2
    (center policy evidence horizon - penalty policy evidence horizon)
  relativeSavings := max 0 (min 1 (1 - 1 / BinaryFunctions.exp2
    (center policy evidence horizon - penalty policy evidence horizon)))

def weightedSavings (policy : BenchmarkPolicy K) (evidence : BenchmarkEvidence K) : K :=
  (List.zipWith (fun weight horizon => weight * (horizonOf policy evidence horizon).relativeSavings)
    policy.horizonWeights policy.horizons).sum

/-- The reward of measured evidence. -/
def rewardOf (policy : BenchmarkPolicy K) (evidence : BenchmarkEvidence K) : K :=
  100 * weightedSavings policy evidence * (1 - timeoutRate evidence) ^ 2

/-- The score of measured evidence. -/
def measuredOf (policy : BenchmarkPolicy K) (evidence : BenchmarkEvidence K) (workerId : Text) :
    BenchmarkScore K where
  eligible := decide (0 < rewardOf policy evidence)
  benchmarkValid := true
  reward := rewardOf policy evidence
  failureCode := if 0 < rewardOf policy evidence then none else some .noRelativeImprovement
  workerId := some workerId
  timeoutRate := timeoutRate evidence
  storageRatio := evidence.artifactStorageBytes / evidence.databaseBytes
  horizons := policy.horizons.map (horizonOf policy evidence)

theorem horizonScore_eq (policy : BenchmarkPolicy K) {evidence : BenchmarkEvidence K}
    (nonempty : completed evidence ≠ []) (horizon : Nat) :
    horizonScore policy (logSpeedups policy evidence horizon) horizon =
      .ok (horizonOf policy evidence horizon) := by
  have measured : logSpeedups policy evidence horizon ≠ [] :=
    fun he => nonempty (List.map_eq_nil_iff.mp he)
  have mean := winsorizedMean_eq measured policy.winsorBounds 1
  rw [logSpeedups, List.length_map, ← logSpeedups] at mean
  rw [Nat.cast_one] at mean
  unfold horizonScore
  rw [mean]
  rfl

theorem measuredScore_eq (policy : BenchmarkPolicy K) {evidence : BenchmarkEvidence K}
    (nonempty : completed evidence ≠ []) (workerId : Text) :
    measuredScore policy evidence workerId (timeoutRate evidence)
        (evidence.artifactStorageBytes / evidence.databaseBytes) (completed evidence) =
      .ok (measuredOf policy evidence workerId) := by
  have scores : (policy.horizons.mapM fun horizon => horizonScore policy
      ((completed evidence).map (logSpeedup evidence (storageMultiplier policy evidence) horizon))
        horizon) = .ok (policy.horizons.map (horizonOf policy evidence)) :=
    mapM_eq_map fun horizon _ => horizonScore_eq policy nonempty horizon
  have savings : (List.zipWith (fun weight score => weight * score.relativeSavings)
      policy.horizonWeights (policy.horizons.map (horizonOf policy evidence))).sum =
        weightedSavings policy evidence := by
    rw [List.zipWith_map_right]
    rfl
  unfold measuredScore
  change ((policy.horizons.mapM fun horizon => horizonScore policy ((completed evidence).map
    (logSpeedup evidence (storageMultiplier policy evidence) horizon)) horizon) >>= fun _ => _) = _
  rw [scores]
  change Except.ok _ = _
  rw [savings]
  rfl

/-- Evidence that passes every gate of `score_benchmark`. -/
structure Measured (policy : BenchmarkPolicy K) (evidence : BenchmarkEvidence K) (workerId : Text) :
    Prop where
  enough : policy.minimumTrials ≤ evidence.trials.length
  oneWorker : (evidence.trials.map InterleavedTrial.workerId).dedup = [workerId]
  balanced : unbalanced evidence.trials = false
  baseline : evidence.trials.any InterleavedTrial.baselineTimedOut = false
  correct : evidence.correct = true
  compliant : evidence.compliant = true
  timely : timeoutRate evidence ≤ policy.maximumTimeoutRate
  pairs : 2 ≤ (completed evidence).length
  completedBalanced : unbalanced (completed evidence) = false

theorem scoreBenchmark_of_measured {policy : BenchmarkPolicy K} {evidence : BenchmarkEvidence K}
    {workerId : Text} (h : Measured policy evidence workerId) :
    scoreBenchmark policy evidence = .ok (measuredOf policy evidence workerId) := by
  have nonempty : completed evidence ≠ [] := List.ne_nil_of_length_pos (by linarith [h.pairs])
  have timely : ¬ policy.maximumTimeoutRate <
      fmean (evidence.trials.map fun trial => if trial.candidateTimedOut then 1 else 0) :=
    not_lt.mpr h.timely
  have pairs : ¬ (evidence.trials.filter fun trial => !trial.candidateTimedOut).length < 2 :=
    not_lt.mpr h.pairs
  have completedBalanced :
      unbalanced (evidence.trials.filter fun trial => !trial.candidateTimedOut) ≠ true :=
    Bool.eq_false_iff.mp h.completedBalanced
  unfold scoreBenchmark
  dsimp only
  rw [if_neg (not_lt.mpr h.enough), h.oneWorker]
  dsimp only
  rw [if_neg (Bool.eq_false_iff.mp h.balanced), if_neg (Bool.eq_false_iff.mp h.baseline),
    if_neg (not_not.mpr h.correct), if_neg (not_not.mpr h.compliant), if_neg timely, if_neg pairs,
    if_neg completedBalanced]
  exact measuredScore_eq policy nonempty workerId

omit [LinearOrder K] [FloorSemiring K] [RealFunctions K] [BinaryFunctions K] in
theorem zeroScore_stopped (benchmarkValid : Bool) (failure : BenchmarkFailure)
    (workerId : Option Text) (timeoutRate storageRatio : K) :
    ∃ score, (Except.ok (zeroScore benchmarkValid failure workerId timeoutRate storageRatio) :
        Except ScoringError (BenchmarkScore K)) = .ok score ∧
      score.reward = 0 ∧ score.horizons = [] :=
  ⟨_, rfl, rfl, rfl⟩

/-- Evidence that is not measured scores zero, at no horizon. -/
theorem scoreBenchmark_of_unmeasured {policy : BenchmarkPolicy K} {evidence : BenchmarkEvidence K}
    (h : ∀ workerId, ¬ Measured policy evidence workerId) :
    ∃ score, scoreBenchmark policy evidence = .ok score ∧ score.reward = 0 ∧ score.horizons = [] := by
  unfold scoreBenchmark
  refine ok_ite (zeroScore_stopped _ _ _ _ _) fun enough => ?_
  cases hworkers : (evidence.trials.map InterleavedTrial.workerId).dedup with
  | nil => exact zeroScore_stopped _ _ _ _ _
  | cons workerId others =>
    cases others with
    | cons _ _ => exact zeroScore_stopped _ _ _ _ _
    | nil =>
      refine ok_ite (zeroScore_stopped _ _ _ _ _) fun balanced => ?_
      refine ok_ite (zeroScore_stopped _ _ _ _ _) fun baseline => ?_
      refine ok_ite (zeroScore_stopped _ _ _ _ _) fun correct => ?_
      refine ok_ite (zeroScore_stopped _ _ _ _ _) fun compliant => ?_
      refine ok_ite (zeroScore_stopped _ _ _ _ _) fun timely => ?_
      refine ok_ite (zeroScore_stopped _ _ _ _ _) fun pairs => ?_
      refine ok_ite (zeroScore_stopped _ _ _ _ _) fun completedBalanced => ?_
      exact absurd ⟨not_lt.mp enough, hworkers, Bool.eq_false_iff.mpr balanced,
        Bool.eq_false_iff.mpr baseline, not_not.mp correct, not_not.mp compliant, not_lt.mp timely,
        not_lt.mp pairs, Bool.eq_false_iff.mpr completedBalanced⟩ (h workerId)

end Measured

/-! ## Two trials at one horizon -/

noncomputable section Pair

namespace Sample

/-- The tolerance of `math.isclose` around the sum of one weight. -/
def NearOne (weight : ℝ) : Prop :=
  |[weight].sum - 1| ≤ max (1 / 10 ^ 9 * max |[weight].sum| 1) (1 / 10 ^ 12)

theorem setup_free : (0 : ℝ) ≤ 0 := le_refl 0

theorem winsor_default : (0 : ℝ) ≤ 1 / 10 ∧ (1 / 10 : ℝ) < 1 / 2 := by norm_num

theorem timeout_default : (0 : ℝ) ≤ 1 / 5 ∧ (1 / 5 : ℝ) < 1 := by norm_num

theorem penalty_default : (0 : ℝ) ≤ 1 / 10 := by norm_num

def policy (weight confidenceZ : ℝ) (weightBounds : 0 ≤ weight ∧ NearOne weight)
    (zNonnegative : 0 ≤ confidenceZ) : BenchmarkPolicy ℝ where
  horizons := [1]
  horizonWeights := [weight]
  minimumTrials := 2
  confidenceZ := confidenceZ
  horizonsPositive := by simp
  oneWeightEach := rfl
  weightsNonnegative := by simpa using weightBounds.1
  weightsSumToOne := weightBounds.2
  trialsBound := le_refl 2
  winsorBounds := winsor_default
  zNonnegative := zNonnegative
  timeoutBounds := timeout_default
  penaltyNonnegative := penalty_default

/-- A trial whose cold and warm timings agree. -/
def trial (order : ExecutionOrder) (baseline candidate : ℝ) (positive : 0 < baseline ∧ 0 < candidate) :
    InterleavedTrial ℝ where
  workerId := ['w']
  order := order
  baselineColdMs := baseline
  candidateColdMs := candidate
  baselineWarmMs := baseline
  candidateWarmMs := candidate
  identified := List.cons_ne_nil _ _
  timesPositive := ⟨positive.1, positive.2, positive.1, positive.2⟩

def evidence (setupMs : ℝ) (setupNonnegative : 0 ≤ setupMs) (trials : List (InterleavedTrial ℝ)) :
    BenchmarkEvidence ℝ where
  correct := true
  compliant := true
  setupMs := setupMs
  artifactStorageBytes := 0
  databaseBytes := 1
  trials := trials
  setupNonnegative := setupNonnegative
  databasePositive := one_pos

end Sample

end Pair

end BenchmarkOutcome
