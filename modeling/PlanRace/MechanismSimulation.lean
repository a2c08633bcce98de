import PlanRace.BenchmarkScoring
import PlanRace.RankAgreement
import PlanRace.Library.AsciiJson
import PlanRace.Library.CoupledDraws

/-!
# The mechanism simulation

`run_mechanism_simulation`: twenty profiles meet eight kinds of validator over
several epochs, and every replication is scored by the production scorer. The
generator of random numbers is a source; conditions in one cohort are seeded
alike. Floats are the elements of an ordered field, with the text that Python
prints for them.
-/

namespace MechanismSimulation

open JsonText ByteStrings LexOrder CanonicalJson AsciiJson Sha256 Grouping Statistics Draws
  ScoringV2 BenchmarkScoring Allocation RankAgreement

inductive SimulationError where
  /-- `replications, epochs, and trials_per_task must be positive`. -/
  | configuration
  /-- Profiles of one strategy digest differ in what is evaluated. -/
  | sharedDigest
  /-- A record or a policy fails its own bounds. -/
  | invalidModel
  | keyError
  | scoring (error : ScoringError)
  | rank (error : RankError)
deriving DecidableEq

def workloadFamilies : List Text :=
  ["joins".toList, "aggregates".toList, "range".toList, "skew".toList]

inductive Category where
  | honest
  | gaming
  | sybil
deriving DecidableEq

section Records

variable (K : Type) [Field K]

structure MinerProfile where
  profileId : Text
  category : Category
  strategyKey : Text
  coldSpeedup : K
  warmSpeedup : K
  setupFraction : K
  storageRatio : K
  availability : K := 99 / 100
  compliance : K := 1
  correctness : K := 1
  timeoutProbability : K := 0
  timingNoise : K := 4 / 100
  familyMultipliers : List K := [1, 1, 1, 1]
  behaviorKey : Option Text := none

structure ValidatorScenario where
  scenarioId : Text
  hardwareScale : K := 1
  orderBias : K := 0
  outlierProbability : K := 0
  candidateBiasMultipliers : List K := [1, 1, 1, 1]
  falseAcceptClaim : Bool := false
  allFail : Bool := false

/-- One validator-owned evaluation, cached by the strategy digest. -/
structure StrategyEpochEvaluation where
  available : Bool
  compliant : Bool
  measuredCorrect : Bool
  minerClaimedCorrect : Bool
  reward : K
  invalid : Bool
  falseAcceptance : Bool
  injectedFalseClaim : Bool
  acceptedInjectedFalseClaim : Bool
  trialPairs : Nat

end Records

structure SimulationConfig where
  replications : Nat := 512
  epochs : Nat := 24
  trialsPerTask : Nat := 10
  rootSeed : Int := 20260901
  positive : 1 ≤ replications ∧ 1 ≤ epochs ∧ 2 ≤ trialsPerTask

/-- `hashlib.sha256(key.encode()).hexdigest()`. -/
def keyDigest (key : Text) : Text := hexText (sha256 (utf8 key))

section Profiles

variable {K : Type} [Field K]

namespace MinerProfile

def strategyDigest (profile : MinerProfile K) : Text := keyDigest profile.strategyKey

/-- `behavior_key or strategy_key`: an empty key counts as none. -/
def behaviorSource (profile : MinerProfile K) : Text :=
  match profile.behaviorKey with
  | none | some [] => profile.strategyKey
  | some key => key

def behaviorDigest (profile : MinerProfile K) : Text := keyDigest profile.behaviorSource

end MinerProfile

/-- `MINER_PROFILES`. -/
def minerProfiles : List (MinerProfile K) := [
  { profileId := "covering-join".toList, category := .honest
    strategyKey := "covering-join-v2".toList, coldSpeedup := 220 / 100, warmSpeedup := 4
    setupFraction := 150 / 100, storageRatio := 40 / 100
    familyMultipliers := [130 / 100, 90 / 100, 1, 90 / 100] },
  { profileId := "partial-index".toList, category := .honest
    strategyKey := "partial-index-v2".toList, coldSpeedup := 180 / 100, warmSpeedup := 280 / 100
    setupFraction := 80 / 100, storageRatio := 20 / 100
    familyMultipliers := [115 / 100, 95 / 100, 115 / 100, 85 / 100] },
  { profileId := "aggregate-advisor".toList, category := .honest
    strategyKey := "aggregate-advisor-v2".toList, coldSpeedup := 2, warmSpeedup := 230 / 100
    setupFraction := 5 / 100, storageRatio := 0
    familyMultipliers := [90 / 100, 135 / 100, 95 / 100, 90 / 100] },
  { profileId := "balanced-index".toList, category := .honest
    strategyKey := "balanced-index-v2".toList, coldSpeedup := 170 / 100, warmSpeedup := 240 / 100
    setupFraction := 50 / 100, storageRatio := 15 / 100 },
  { profileId := "cold-specialist".toList, category := .honest
    strategyKey := "cold-specialist-v2".toList, coldSpeedup := 260 / 100, warmSpeedup := 115 / 100
    setupFraction := 30 / 100, storageRatio := 10 / 100 },
  { profileId := "warm-specialist".toList, category := .honest
    strategyKey := "warm-specialist-v2".toList, coldSpeedup := 115 / 100, warmSpeedup := 420 / 100
    setupFraction := 1, storageRatio := 45 / 100 },
  { profileId := "low-storage".toList, category := .honest
    strategyKey := "low-storage-v2".toList, coldSpeedup := 145 / 100, warmSpeedup := 170 / 100
    setupFraction := 15 / 100, storageRatio := 3 / 100 },
  { profileId := "robust-generalist".toList, category := .honest
    strategyKey := "robust-generalist-v2".toList, coldSpeedup := 165 / 100, warmSpeedup := 2
    setupFraction := 35 / 100, storageRatio := 12 / 100 },
  { profileId := "noisy-search".toList, category := .honest
    strategyKey := "noisy-search-v2".toList, coldSpeedup := 210 / 100, warmSpeedup := 3
    setupFraction := 90 / 100, storageRatio := 25 / 100, timingNoise := 12 / 100 },
  { profileId := "conservative".toList, category := .honest
    strategyKey := "conservative-v2".toList, coldSpeedup := 125 / 100, warmSpeedup := 135 / 100
    setupFraction := 5 / 100, storageRatio := 1 / 100 },
  { profileId := "high-setup-star".toList, category := .honest
    strategyKey := "high-setup-star-v2".toList, coldSpeedup := 180 / 100, warmSpeedup := 5
    setupFraction := 3, storageRatio := 70 / 100 },
  { profileId := "timeout-prone".toList, category := .honest
    strategyKey := "timeout-prone-v2".toList, coldSpeedup := 250 / 100, warmSpeedup := 550 / 100
    setupFraction := 70 / 100, storageRatio := 30 / 100, availability := 94 / 100
    timeoutProbability := 10 / 100 },
  { profileId := "constant-answer".toList, category := .gaming
    strategyKey := "constant-answer-v2".toList, coldSpeedup := 100, warmSpeedup := 100
    setupFraction := 0, storageRatio := 0, correctness := 0 },
  { profileId := "wrong-fast".toList, category := .gaming
    strategyKey := "wrong-fast-v2".toList, coldSpeedup := 20, warmSpeedup := 20
    setupFraction := 0, storageRatio := 0, correctness := 0 },
  { profileId := "fixture-memorizer".toList, category := .gaming
    strategyKey := "fixture-memorizer-v2".toList, coldSpeedup := 8, warmSpeedup := 12
    setupFraction := 0, storageRatio := 0, correctness := 0 },
  { profileId := "malformed-bundle".toList, category := .gaming
    strategyKey := "malformed-bundle-v2".toList, coldSpeedup := 5, warmSpeedup := 5
    setupFraction := 0, storageRatio := 0, compliance := 0 },
  { profileId := "sybil-copy-a".toList, category := .sybil
    strategyKey := "shared-copy-v2".toList, coldSpeedup := 165 / 100, warmSpeedup := 2
    setupFraction := 35 / 100, storageRatio := 12 / 100 },
  { profileId := "sybil-copy-b".toList, category := .sybil
    strategyKey := "shared-copy-v2".toList, coldSpeedup := 165 / 100, warmSpeedup := 2
    setupFraction := 35 / 100, storageRatio := 12 / 100 },
  { profileId := "sybil-near-copy-a".toList, category := .sybil
    strategyKey := "near-copy-asc-v2".toList, coldSpeedup := 165 / 100, warmSpeedup := 2
    setupFraction := 35 / 100, storageRatio := 12 / 100
    behaviorKey := some "near-copy-equivalent-plan-v2".toList },
  { profileId := "sybil-near-copy-b".toList, category := .sybil
    strategyKey := "near-copy-desc-v2".toList, coldSpeedup := 165 / 100, warmSpeedup := 2
    setupFraction := 35 / 100, storageRatio := 12 / 100
    behaviorKey := some "near-copy-equivalent-plan-v2".toList }]

/-- What the two exact copies among the profiles have in common. -/
def sharedCopy (profileId : Text) : MinerProfile K where
  profileId := profileId
  category := .sybil
  strategyKey := "shared-copy-v2".toList
  coldSpeedup := 165 / 100
  warmSpeedup := 2
  setupFraction := 35 / 100
  storageRatio := 12 / 100

/-- `VALIDATOR_SCENARIOS`. -/
def validatorScenarios : List (ValidatorScenario K) := [
  { scenarioId := "honest".toList },
  { scenarioId := "fast-worker".toList, hardwareScale := 55 / 100 },
  { scenarioId := "slow-worker".toList, hardwareScale := 240 / 100 },
  { scenarioId := "order-bias".toList, orderBias := 16 / 100 },
  { scenarioId := "timing-outliers".toList, outlierProbability := 8 / 100 },
  { scenarioId := "candidate-measurement-bias".toList
    candidateBiasMultipliers := [60 / 100, 155 / 100, 75 / 100, 145 / 100] },
  { scenarioId := "false-accept-claim".toList, falseAcceptClaim := true },
  { scenarioId := "all-fail".toList, allFail := true }]

end Profiles

/-- A step of the simulation. -/
abbrev Step (S : Type) := Draw S SimulationError

/-- A value within its bounds, or the exception of the record that checks them. -/
def checked {α : Type} (valid : Prop) [Decidable valid] (value : valid → α) :
    Except SimulationError α :=
  if h : valid then .ok (value h) else .error .invalidModel

section Schedule

/-- The payload of the task of an epoch. -/
def taskPayload (epoch : Nat) (family : Text) : Bytes :=
  utf8 ("planrace-mechanism-v2:epoch:".toList ++ intText epoch ++ ":family:".toList ++ family)

def taskFamily (epoch : Nat) : Text :=
  workloadFamilies.getD (epoch % workloadFamilies.length) []

def taskHash (epoch : Nat) : Text := hexText (sha256 (taskPayload epoch (taskFamily epoch)))

theorem taskFamily_mem (epoch : Nat) : taskFamily epoch ∈ workloadFamilies := by
  have inside : epoch % workloadFamilies.length < workloadFamilies.length :=
    Nat.mod_lt _ (by decide)
  rw [taskFamily, List.getD_eq_getElem?_getD, List.getElem?_eq_getElem inside, Option.getD_some]
  exact List.getElem_mem inside

theorem families_nonempty : ∀ family ∈ workloadFamilies, family ≠ [] := by decide

theorem taskHash_length (epoch : Nat) : (taskHash epoch).length = 64 := by
  rw [taskHash, length_hexText, length_sha256]

/-- The task that `_simulation_task_schedule` plans for an epoch. -/
def scheduledTask (epoch : Nat) : ScheduledTask where
  epoch := epoch
  family := taskFamily epoch
  taskId := (taskHash epoch).take 32
  taskCommitment := digestPrefix ++ taskHash epoch
  identified := by
    have prefixed : digestPrefix ≠ [] := by decide
    refine ⟨families_nonempty _ (taskFamily_mem epoch), ?_,
      fun he => prefixed (List.append_eq_nil_iff.mp he).1⟩
    apply List.ne_nil_of_length_pos
    rw [List.length_take, taskHash_length]
    decide

/-- `_simulation_task_schedule`. -/
def simulationTaskSchedule (epochs : Nat) : List ScheduledTask :=
  (List.range epochs).map scheduledTask

end Schedule

section Policies

variable {K : Type} [Field K] [LinearOrder K]

theorem default_horizons : ([1, 10, 100, 1000] : List Nat) ≠ [] ∧
    ∀ horizon ∈ ([1, 10, 100, 1000] : List Nat), 1 ≤ horizon := by decide

omit [Field K] [LinearOrder K] in
theorem weight_each (a b c d : K) : [1, 10, 100, 1000].length = [a, b, c, d].length := rfl

/-- `math.isclose` of the sum of the horizon weights, and the other bounds. -/
def benchmarkPolicy (config : SimulationConfig) : Except SimulationError (BenchmarkPolicy K) :=
  checked ((|([15 / 100, 25 / 100, 30 / 100, 30 / 100] : List K).sum - 1| ≤
      max (1 / 10 ^ 9 * max |([15 / 100, 25 / 100, 30 / 100, 30 / 100] : List K).sum| 1)
        (1 / 10 ^ 12)) ∧
      (∀ weight ∈ ([15 / 100, 25 / 100, 30 / 100, 30 / 100] : List K), 0 ≤ weight) ∧
      ((0 : K) ≤ 10 / 100 ∧ (10 / 100 : K) < 1 / 2) ∧ (0 : K) ≤ 128 / 100 ∧
      ((0 : K) ≤ 20 / 100 ∧ (20 / 100 : K) < 1) ∧ (0 : K) ≤ 1 / 10) fun valid => {
    minimumTrials := config.trialsPerTask
    winsorFraction := 10 / 100
    maximumTimeoutRate := 20 / 100
    horizonsPositive := default_horizons
    oneWeightEach := weight_each ..
    weightsNonnegative := valid.2.1
    weightsSumToOne := valid.1
    trialsBound := config.positive.2.2
    winsorBounds := valid.2.2.1
    zNonnegative := valid.2.2.2.1
    timeoutBounds := valid.2.2.2.2.1
    penaltyNonnegative := valid.2.2.2.2.2 }

/-- `AggregationPolicy(...)` with its checks on the schedule and the quotas. -/
def aggregationPolicy (config : SimulationConfig) : Except SimulationError (AggregationPolicy K) :=
  let schedule := simulationTaskSchedule config.epochs
  let minimumTasks : Nat := max 12 (min config.epochs 24)
  checked (((schedule.map ScheduledTask.taskId).Nodup ∧
        (schedule.map ScheduledTask.taskCommitment).Nodup ∧
        (schedule.map ScheduledTask.epoch).Nodup) ∧
      (minimumTasks ≤ schedule.length ∧ 2 * workloadFamilies.length ≤ minimumTasks) ∧
      (∀ family ∈ workloadFamilies, 2 ≤ (schedule.map ScheduledTask.family).count family) ∧
      ((0 : K) ≤ 75 / 100 ∧ (75 / 100 : K) ≤ 1) ∧ ((0 : K) ≤ 95 / 100 ∧ (95 / 100 : K) ≤ 1) ∧
      ((0 : K) ≤ 1 / 10 ∧ (1 / 10 : K) < 1 / 2) ∧ (0 : K) ≤ 1 ∧
      ((0 : K) < 25 / 100 ∧ (25 / 100 : K) ≤ 1)) fun valid => {
    requiredFamilies := workloadFamilies
    taskSchedule := schedule
    minimumTasks := minimumTasks
    maximumWeight := 25 / 100
    minimumDistinctStrategies := 5
    familiesUnique := by decide
    scheduled := by
      have some := valid.2.1.1
      apply List.ne_nil_of_length_pos
      omega
    scheduleUnique := valid.1
    scheduleFamilies := by
      intro t ht
      obtain ⟨epoch, -, rfl⟩ := List.mem_map.mp ht
      exact taskFamily_mem epoch
    tasksPerFamilyPositive := by decide
    quotas := by
      have room := valid.2.1
      have families : workloadFamilies.length = 4 := rfl
      omega
    familyQuota := fun family hfamily => by exact_mod_cast valid.2.2.1 family hfamily
    gateBounds := ⟨valid.2.2.2.1, valid.2.2.2.2.1, valid.2.2.2.2.1⟩
    winsorBounds := valid.2.2.2.2.2.1
    zNonnegative := valid.2.2.2.2.2.2.1
    weightBounds := valid.2.2.2.2.2.2.2
    strategiesPositive := by decide }

end Policies

section Trials

variable {K S : Type} [Field K] [LinearOrder K] [RealFunctions K] (source : NormalSource K S)

/-- `rng.random() < bound`. -/
def below (bound : K) : Step S Bool := do return decide ((← random source.toRandomSource) < bound)

/-- `first and rng.random() < bound`, which draws after a true `first` only. -/
def andBelow (first : Bool) (bound : K) : Step S Bool :=
  if first then below source bound else return false

/-- `rng.uniform`. -/
def uniform (low high : K) : Step S K := do
  return low + (high - low) * (← random source.toRandomSource)

/-- `_noise`. -/
def noise (sigma : K) : Step S K := do return RealFunctions.exp (← gauss source 0 sigma)

/-- The multipliers of an outlier on the two arms. -/
def outliers (scenario : ValidatorScenario K) : Step S (K × K) := do
  if (← below source scenario.outlierProbability) then
    if (← below source (1 / 2)) then return (← uniform source 4 12, 1)
    else return (1, ← uniform source 4 12)
  else return (1, 1)

/-- `profile.family_multipliers[family_index]`, and likewise for the bias. -/
def multiplier (multipliers : List K) (familyIndex : Nat) : Step S K :=
  match multipliers[familyIndex]? with
  | some value => return value
  | none => throw .keyError

/-- What every trial of a task has in common: the mean times of the two arms. -/
structure TrialMeans (K : Type) where
  baseCold : K
  baseWarm : K
  candidateCold : K
  candidateWarm : K

def trialMeans (profile : MinerProfile K) (scenario : ValidatorScenario K) (familyIndex : Nat) :
    Step S (TrialMeans K) := do
  let familyMultiplier ← multiplier profile.familyMultipliers familyIndex
  let candidateBias ← multiplier scenario.candidateBiasMultipliers familyIndex
  let baseCold := 80 * scenario.hardwareScale
  let baseWarm := 24 * scenario.hardwareScale
  return {
    baseCold := baseCold
    baseWarm := baseWarm
    candidateCold :=
      baseCold / max (5 / 100) (profile.coldSpeedup * familyMultiplier) * candidateBias
    candidateWarm :=
      baseWarm / max (5 / 100) (profile.warmSpeedup * familyMultiplier) * candidateBias }

/-- The multiplier of the arm that is measured first or second. -/
def orderMultiplier (scenario : ValidatorScenario K) (first : Bool) : K :=
  if first then 1 + scenario.orderBias else max (10 / 100) (1 - scenario.orderBias)

/-- `InterleavedTrial(...)`. -/
def interleavedTrial (workerId : Text) (order : ExecutionOrder) (baselineCold candidateCold
    baselineWarm candidateWarm : K) (timedOut : Bool) : Except SimulationError (InterleavedTrial K) :=
  checked (workerId ≠ [] ∧ 0 < baselineCold ∧ 0 < candidateCold ∧ 0 < baselineWarm ∧
    0 < candidateWarm) fun valid => {
      workerId := workerId
      order := order
      baselineColdMs := baselineCold
      candidateColdMs := candidateCold
      baselineWarmMs := baselineWarm
      candidateWarmMs := candidateWarm
      candidateTimedOut := timedOut
      identified := valid.1
      timesPositive := valid.2 }

/-- One round of the loop of `_make_trials`. -/
def makeTrial (profile : MinerProfile K) (scenario : ValidatorScenario K) (workerId : Text)
    (means : TrialMeans K) (startWithBaseline : Bool) (trialIndex : Nat) :
    Step S (InterleavedTrial K) := do
  let baselineFirst := (trialIndex % 2 == 0) == startWithBaseline
  let baselineOrder := orderMultiplier scenario baselineFirst
  let candidateOrder := orderMultiplier scenario (!baselineFirst)
  let (baselineOutlier, candidateOutlier) ← outliers source scenario
  let baselineColdNoise ← noise source (25 / 1000)
  let candidateColdNoise ← noise source profile.timingNoise
  let baselineWarmNoise ← noise source (25 / 1000)
  let candidateWarmNoise ← noise source profile.timingNoise
  let timedOut ← below source profile.timeoutProbability
  liftM (interleavedTrial workerId (if baselineFirst then .baselineFirst else .candidateFirst)
    (means.baseCold * baselineOrder * baselineOutlier * baselineColdNoise)
    (means.candidateCold * candidateOrder * candidateOutlier * candidateColdNoise)
    (means.baseWarm * baselineOrder * baselineOutlier * baselineWarmNoise)
    (means.candidateWarm * candidateOrder * candidateOutlier * candidateWarmNoise) timedOut)

/-- `_make_trials`. -/
def makeTrials (profile : MinerProfile K) (scenario : ValidatorScenario K) (familyIndex : Nat)
    (workerId : Text) (trialCount : Nat) : Step S (List (InterleavedTrial K)) := do
  let means ← trialMeans profile scenario familyIndex
  let startWithBaseline ← below source (1 / 2)
  (List.range trialCount).mapM (makeTrial source profile scenario workerId means startWithBaseline)

end Trials

section Evaluation

variable {K S : Type} [Field K] [LinearOrder K] [FloorSemiring K] [RealFunctions K]
  [BinaryFunctions K] (source : NormalSource K S)

/-- `BenchmarkEvidence(...)`: what the validator measured itself. -/
def benchmarkEvidence (profile : MinerProfile K) (scenario : ValidatorScenario K)
    (databaseBytes : Nat) (measuredCorrect compliant : Bool) (trials : List (InterleavedTrial K)) :
    Except SimulationError (BenchmarkEvidence K) :=
  checked (0 ≤ 80 * scenario.hardwareScale * profile.setupFraction ∧ 0 < databaseBytes) fun valid => {
    correct := measuredCorrect
    compliant := compliant
    setupMs := 80 * scenario.hardwareScale * profile.setupFraction
    artifactStorageBytes := ⌊(databaseBytes : K) * profile.storageRatio⌋₊
    databaseBytes := databaseBytes
    trials := trials
    setupNonnegative := valid.1
    databasePositive := valid.2 }

/-- The score of an answer, with the number of trial pairs. -/
def measure (policy : BenchmarkPolicy K) (profile : MinerProfile K)
    (scenario : ValidatorScenario K) (familyIndex databaseBytes : Nat) (workerId : Text)
    (trialCount : Nat) (measuredCorrect compliant : Bool) : Step S (BenchmarkScore K × Nat) := do
  let trials ← makeTrials source profile scenario familyIndex workerId trialCount
  let evidence ← liftM
    (benchmarkEvidence profile scenario databaseBytes measuredCorrect compliant trials)
  let score ← liftM ((scoreBenchmark policy evidence).mapError SimulationError.scoring)
  return (score, trials.length)

/-- `StrategyEpochEvaluation(...)` of what was drawn and measured. The claim of
the miner goes into the record and not into the score. -/
def strategyEpochEvaluation (scenario : ValidatorScenario K) (available compliant
    measuredCorrect : Bool) (score : Option (BenchmarkScore K × Nat)) : StrategyEpochEvaluation K :=
  let minerClaimedCorrect := available && (scenario.falseAcceptClaim || measuredCorrect)
  let falseAcceptance := (score.map Prod.fst).any fun s => (!measuredCorrect || !compliant) && s.eligible
  let injectedFalseClaim := scenario.falseAcceptClaim && minerClaimedCorrect && !measuredCorrect
  { available := available
    compliant := compliant
    measuredCorrect := measuredCorrect
    minerClaimedCorrect := minerClaimedCorrect
    reward := (score.map fun s => s.1.reward).getD 0
    invalid := available && (!measuredCorrect || !compliant)
    falseAcceptance := falseAcceptance
    injectedFalseClaim := injectedFalseClaim
    acceptedInjectedFalseClaim := injectedFalseClaim && falseAcceptance
    trialPairs := (score.map Prod.snd).getD 0 }

/-- `_evaluate_strategy_epoch`. -/
def evaluateStrategyEpoch (policy : BenchmarkPolicy K) (profile : MinerProfile K)
    (scenario : ValidatorScenario K) (familyIndex databaseBytes : Nat) (workerId : Text)
    (trialCount : Nat) : Step S (StrategyEpochEvaluation K) := do
  let available ← andBelow source (!scenario.allFail) profile.availability
  let compliant ← andBelow source available profile.compliance
  let measuredCorrect ← andBelow source compliant profile.correctness
  if available then
    let score ← measure source policy profile scenario familyIndex databaseBytes workerId trialCount
      measuredCorrect compliant
    return strategyEpochEvaluation scenario available compliant measuredCorrect (some score)
  else return strategyEpochEvaluation scenario available compliant measuredCorrect none

end Evaluation

section Replication

variable {K S : Type} [Field K] [LinearOrder K] [IsStrictOrderedRing K] [FloorSemiring K]
  [RealFunctions K] [BinaryFunctions K]

/-- What the interpreter brings along: its generator and the text of a float. -/
structure Platform (K S : Type) [Zero K] [One K] [LE K] [LT K] where
  source : NormalSource K S
  /-- `float.__repr__`, which `json.dumps` prints. -/
  floatText : K → Text

/-- `_evidence_digest`. -/
def evidenceDigest (floatText : K → Text) (task : ScheduledTask) (strategyDigest : Text)
    (evaluation : StrategyEpochEvaluation K) : Text :=
  digestText (utf8 (objectText [
    ("task_commitment".toList, dumps true (.str task.taskCommitment)),
    ("strategy_digest".toList, dumps true (.str strategyDigest)),
    ("available".toList, dumps true (.bool evaluation.available)),
    ("compliant".toList, dumps true (.bool evaluation.compliant)),
    ("measured_correct".toList, dumps true (.bool evaluation.measuredCorrect)),
    ("reward".toList, floatText evaluation.reward),
    ("trial_pairs".toList, dumps true (.int evaluation.trialPairs))]))

/-- The counters of a replication. -/
structure Counters where
  invalidAttempts : Nat := 0
  falseAcceptances : Nat := 0
  strategyEvaluations : Nat := 0
  duplicateCacheHits : Nat := 0
  trialPairs : Nat := 0
  injectedFalseClaims : Nat := 0
  acceptedInjectedFalseClaims : Nat := 0
deriving DecidableEq

namespace Counters

def evaluated (counters : Counters) (evaluation : StrategyEpochEvaluation K) : Counters where
  invalidAttempts := counters.invalidAttempts + evaluation.invalid.toNat
  falseAcceptances := counters.falseAcceptances + evaluation.falseAcceptance.toNat
  strategyEvaluations := counters.strategyEvaluations + 1
  duplicateCacheHits := counters.duplicateCacheHits
  trialPairs := counters.trialPairs + evaluation.trialPairs
  injectedFalseClaims := counters.injectedFalseClaims + evaluation.injectedFalseClaim.toNat
  acceptedInjectedFalseClaims :=
    counters.acceptedInjectedFalseClaims + evaluation.acceptedInjectedFalseClaim.toNat

def hit (counters : Counters) : Counters :=
  { counters with duplicateCacheHits := counters.duplicateCacheHits + 1 }

end Counters

/-- What the loops of a replication carry: its observations in the order they
are made, and its counters. -/
structure Progress (K : Type) [Field K] [LinearOrder K] where
  observations : List (EpochObservation K) := []
  counters : Counters := {}

/-- `evaluation_cache` beside the progress. -/
structure EpochProgress (K : Type) [Field K] [LinearOrder K] where
  cache : List (Text × StrategyEpochEvaluation K)
  progress : Progress K

/-- What one epoch of a replication is about. -/
structure EpochSetting (K : Type) [Field K] [LinearOrder K] where
  policy : BenchmarkPolicy K
  scenario : ValidatorScenario K
  epoch : Nat
  workerId : Text
  trialCount : Nat

namespace EpochSetting

def task (setting : EpochSetting K) : ScheduledTask := scheduledTask setting.epoch

/-- `WORKLOAD_FAMILIES.index(family)`. -/
def familyIndex (setting : EpochSetting K) : Nat := workloadFamilies.idxOf setting.task.family

def databaseBytes (setting : EpochSetting K) : Nat := 16000000 + setting.familyIndex * 2000000

end EpochSetting

/-- `EpochObservation(...)` of a profile and the evaluation of its strategy. -/
def observation (floatText : K → Text) (task : ScheduledTask) (profile : MinerProfile K)
    (evaluation : StrategyEpochEvaluation K) : Except SimulationError (EpochObservation K) :=
  checked ((profile.profileId ≠ [] ∧ task.family ≠ [] ∧ task.taskId ≠ [] ∧ task.taskCommitment ≠ [] ∧
      evidenceDigest floatText task profile.strategyDigest evaluation ≠ [] ∧
      profile.strategyDigest ≠ [] ∧ profile.behaviorDigest ≠ []) ∧
      0 ≤ evaluation.reward ∧ evaluation.reward ≤ 100) fun valid => {
    minerId := profile.profileId
    epoch := task.epoch
    family := task.family
    taskId := task.taskId
    taskCommitment := task.taskCommitment
    evidenceDigest := evidenceDigest floatText task profile.strategyDigest evaluation
    reward := evaluation.reward
    available := evaluation.available
    correct := evaluation.measuredCorrect
    compliant := evaluation.compliant
    strategyDigest := profile.strategyDigest
    behaviorDigest := profile.behaviorDigest
    identified := valid.1
    rewardBounds := valid.2
    groupSizePositive := one_member }

variable (platform : Platform K S)

/-- The evaluation of a profile's strategy, from the cache or made and cached. -/
def lookUp (setting : EpochSetting K) (state : EpochProgress K) (profile : MinerProfile K) :
    Step S (StrategyEpochEvaluation K × EpochProgress K) :=
  match Dict.get? state.cache profile.strategyDigest with
  | some evaluation =>
    return (evaluation, { state with
      progress := { state.progress with counters := state.progress.counters.hit } })
  | none => do
    let evaluation ← evaluateStrategyEpoch platform.source setting.policy profile setting.scenario
      setting.familyIndex setting.databaseBytes setting.workerId setting.trialCount
    return (evaluation, {
      cache := Dict.set state.cache profile.strategyDigest evaluation
      progress := { state.progress with
        counters := state.progress.counters.evaluated evaluation } })

/-- One round of the loop over the profiles. -/
def runProfile (setting : EpochSetting K) (state : EpochProgress K) (profile : MinerProfile K) :
    Step S (EpochProgress K) := do
  let (evaluation, state) ← lookUp platform setting state profile
  let made ← liftM (observation platform.floatText setting.task profile evaluation)
  return { state with
    progress := { state.progress with observations := state.progress.observations ++ [made] } }

/-- One round of the loop over the epochs. -/
def runEpoch (policy : BenchmarkPolicy K) (config : SimulationConfig) (cohort : Nat)
    (scenario : ValidatorScenario K) (progress : Progress K) (epoch : Nat) : Step S (Progress K) := do
  let workerId := "cohort-".toList ++ intText cohort ++ "-scenario-".toList ++
    scenario.scenarioId ++ "-epoch-".toList ++ intText epoch
  let setting : EpochSetting K := ⟨policy, scenario, epoch, workerId, config.trialsPerTask⟩
  let state ← minerProfiles.foldlM (runProfile platform setting) ⟨[], progress⟩
  return state.progress

def runEpochs (policy : BenchmarkPolicy K) (config : SimulationConfig) (cohort : Nat)
    (scenario : ValidatorScenario K) : Step S (Progress K) :=
  (List.range config.epochs).foldlM (runEpoch platform policy config cohort scenario) {}

/-- `network_observations`: the observations of each profile in the order of the profiles. -/
def networkObservations (progress : Progress K) : List (EpochObservation K) :=
  (minerProfiles (K := K)).flatMap fun profile =>
    under EpochObservation.minerId progress.observations profile.profileId

def minerIds : List Text := (minerProfiles (K := K)).map MinerProfile.profileId

end Replication

section Rows

variable {K : Type} [Field K] [LinearOrder K]

/-- `_mean`. -/
def mean (values : List K) : K := if values = [] then 0 else values.sum / values.length

/-- `weights.get(key, 0.0)`. -/
def weightAt (weights : List (Text × K)) (key : Text) : K := (Dict.get? weights key).getD 0

/-- `_total_variation`. -/
def totalVariation (first second : List (Text × K)) : K :=
  1 / 2 * (((Dict.keys first ++ Dict.keys second).dedup).map fun key =>
    |weightAt first key - weightAt second key|).sum

/-- The expected savings of a profile on one family. -/
def expectedSavings (profile : MinerProfile K) (familyMultiplier : K) : K :=
  let coldSpeedup := max (5 / 100) (profile.coldSpeedup * familyMultiplier)
  let warmSpeedup := max (5 / 100) (profile.warmSpeedup * familyMultiplier)
  ([(1, 15 / 100), (10, 25 / 100), (100, 30 / 100), (1000, 30 / 100)].map
    fun (horizon : K × K) =>
      let baseline := 80 + (horizon.1 - 1) * 24
      let candidate := (80 * profile.setupFraction + 80 / coldSpeedup +
        (horizon.1 - 1) * 24 / warmSpeedup) * (1 + profile.storageRatio * (10 / 100))
      horizon.2 * max 0 (1 - candidate / baseline)).sum

/-- `_expected_profile_score`. -/
def expectedProfileScore (profile : MinerProfile K) : K :=
  if profile.correctness = 0 ∨ profile.compliance = 0 then 0
  else
    let familyScores := (List.range workloadFamilies.length).map fun familyIndex =>
      expectedSavings profile (profile.familyMultipliers.getD familyIndex 0)
    100 * familyScores.sum / familyScores.length * profile.availability * profile.compliance *
      profile.correctness

def expectedScores : List (Text × K) :=
  minerProfiles.map fun profile => (profile.profileId, expectedProfileScore profile)

inductive GroupKind where
  | strategy
  | behavior
deriving DecidableEq

def GroupKind.digest : GroupKind → MinerProfile K → Text
  | strategy => MinerProfile.strategyDigest
  | behavior => MinerProfile.behaviorDigest

/-- `sorted(duplicated.items())`: the groups of more than one profile, of more
than one strategy where that is asked for. -/
def duplicatedGroups (kind : GroupKind) (requireDistinctStrategies : Bool) :
    List (Text × List Text) :=
  (sortedItems ((groupBy kind.digest (minerProfiles (K := K))).filter fun g =>
    decide (1 < g.2.length) && (!requireDistinctStrategies ||
      decide (1 < (g.2.map MinerProfile.strategyDigest).dedup.length)))).map fun g =>
    (g.1, sortedTexts (g.2.map MinerProfile.profileId))

/-- What one validator's cohort comes to before it is compared with others. -/
structure ReplicationRow (K : Type) where
  replication : Nat
  cohort : Nat
  scenario : Text
  planned : Bool
  reason : Option AllocationReason
  winner : Option Text
  winnerCategory : Option Category
  counters : Counters
  concentration : ConcentrationMetrics K
  rankStabilityTauB : Option K
  validatorDisagreementTv : Option K := none
  hardwarePairTauB : Option K := none
  honestWeight : K
  gamingWeight : K
  sybilWeight : K
  safeNoUpdate : Bool
  sybilStrategyAllocationGain : Option K
  behaviorEquivalentReplicaAllocationGain : Option K
  weights : List (Text × K)
  strategyWeights : List (Text × K)
  aggregateRewards : List (Text × K)
  aggregates : List (MinerAggregate K)

/-- `min(weights, key=lambda miner_id: (-weights[miner_id], miner_id))`. -/
def winnerOf (weights : List (Text × K)) : Option Text :=
  weights.foldl (fun (best : Option (Text × K)) w =>
    match best with
    | none => some w
    | some b =>
      if b.2 < w.2 ∨ (b.2 = w.2 ∧ lexLe Char.toNat w.1 b.1 = true) then some w else some b) none
    |>.map Prod.fst

def winnerCategory (winner : Option Text) : Except SimulationError (Option Category) :=
  match winner with
  | none => .ok none
  | some minerId =>
    match (minerProfiles (K := K)).find? fun profile => profile.profileId = minerId with
    | some profile => .ok (some profile.category)
    | none => .error .keyError

def categoryWeight (weights : List (Text × K)) (category : Category) : K :=
  (((minerProfiles (K := K)).filter fun profile => profile.category = category).map fun profile =>
    weightAt weights profile.profileId).sum

variable [IsStrictOrderedRing K] [FloorSemiring K] [RealFunctions K]

/-- The gain of a duplicated group over its first member alone. -/
def groupGain (observations : List (EpochObservation K)) (minerIds : List Text)
    (aggregates : List (MinerAggregate K)) (allocation : AllocationResult K)
    (policy : AggregationPolicy K) (group : Text × List Text) :
    Except SimulationError (Option K) :=
  match group.2 with
  | [] => .error .keyError
  | representative :: removed => do
    let controlAggregates ← (aggregateNetwork
      (observations.filter fun o => decide (o.minerId ∉ removed))
      (minerIds.filter fun minerId => decide (minerId ∉ removed)) policy).mapError
        SimulationError.scoring
    let control ← (allocateWeights controlAggregates policy).mapError SimulationError.scoring
    if control.planned then
      match aggregates.find? fun aggregate => aggregate.minerId = representative with
      | none => throw .keyError
      | some aggregate =>
        let gain := weightAt allocation.strategyWeights aggregate.behaviorDigest -
          weightAt control.strategyWeights aggregate.behaviorDigest
        return some (if gain ≤ 1 / 10 ^ 12 then 0 else gain)
    else return none

/-- `_duplicate_group_gains`. -/
def duplicateGroupGains (observations : List (EpochObservation K)) (minerIds : List Text)
    (aggregates : List (MinerAggregate K)) (allocation : AllocationResult K)
    (policy : AggregationPolicy K) (kind : GroupKind) (requireDistinctStrategies : Bool) :
    Except SimulationError (List K) :=
  if allocation.planned then do
    let gains ← (duplicatedGroups (K := K) kind requireDistinctStrategies).mapM
      (groupGain observations minerIds aggregates allocation policy)
    return gains.reduceOption
  else .ok []

def meanOf (values : List K) : Option K := if values = [] then none else some (mean values)

/-- The row of a replication, from what its epochs recorded. -/
def scoreReplication (policy : AggregationPolicy K) (replication cohort : Nat)
    (scenario : ValidatorScenario K) (progress : Progress K) :
    Except SimulationError (ReplicationRow K) := do
  let observations := networkObservations progress
  let aggregates ← (aggregateNetwork observations (minerIds (K := K)) policy).mapError
    SimulationError.scoring
  let allocation ← (allocateWeights aggregates policy).mapError SimulationError.scoring
  let duplicateGains ← duplicateGroupGains observations (minerIds (K := K)) aggregates allocation
    policy .strategy false
  let behaviorReplicaGains ← duplicateGroupGains observations (minerIds (K := K)) aggregates
    allocation policy .behavior true
  let aggregateScores := aggregates.map fun aggregate => (aggregate.minerId, aggregate.reward)
  let rankStability ← if allocation.planned then
      ((kendallTauB expectedScores aggregateScores).mapError SimulationError.rank).map some
    else .ok none
  let winner := winnerOf allocation.weights
  let category ← winnerCategory (K := K) winner
  return {
    replication := replication
    cohort := cohort
    scenario := scenario.scenarioId
    planned := allocation.planned
    reason := allocation.reason
    winner := winner
    winnerCategory := category
    counters := progress.counters
    concentration := allocation.concentration
    rankStabilityTauB := rankStability
    honestWeight := categoryWeight allocation.weights .honest
    gamingWeight := categoryWeight allocation.weights .gaming
    sybilWeight := categoryWeight allocation.weights .sybil
    safeNoUpdate := scenario.allFail && !allocation.planned
    sybilStrategyAllocationGain := meanOf duplicateGains
    behaviorEquivalentReplicaAllocationGain := meanOf behaviorReplicaGains
    weights := allocation.weights
    strategyWeights := allocation.strategyWeights
    aggregateRewards := aggregateScores
    aggregates := aggregates }

variable {S : Type} [BinaryFunctions K]

/-- `VALIDATOR_SCENARIOS[replication % len(VALIDATOR_SCENARIOS)]`. -/
def scenarioAt (replication : Nat) : Except SimulationError (ValidatorScenario K) :=
  match validatorScenarios[replication % (validatorScenarios (K := K)).length]? with
  | some scenario => .ok scenario
  | none => .error .keyError

variable (K) in
def cohortOf (replication : Nat) : Nat := replication / (validatorScenarios (K := K)).length

/-- The state in which the generator starts a cohort: CPython seeds with the
absolute value. -/
def seedOf (source : NormalSource K S) (config : SimulationConfig) (cohort : Nat) : S :=
  source.seeded (config.rootSeed + cohort * 1000003).natAbs

/-- One round of the loop over the replications. -/
def runReplication (platform : Platform K S) (benchmark : BenchmarkPolicy K)
    (policy : AggregationPolicy K) (config : SimulationConfig) (replication : Nat) :
    Except SimulationError (ReplicationRow K) := do
  let scenario ← scenarioAt replication
  let cohort := cohortOf K replication
  let (progress, _) ← runEpochs platform benchmark config cohort scenario
    (seedOf platform.source config cohort)
  scoreReplication policy replication cohort scenario progress

end Rows

section Cohorts

variable {K : Type} [Field K] [LinearOrder K]

/-- `(first, second)` for every row and every later one. -/
def pairsOf {α : Type} : List α → List (α × α)
  | [] => []
  | first :: rest => rest.map (first, ·) ++ pairsOf rest

/-- The rows of a cohort that are compared. -/
def comparedRows (values : List (ReplicationRow K)) : List (ReplicationRow K) :=
  values.filter fun row =>
    decide (row.scenario ≠ "all-fail".toList) && row.planned && decide (row.strategyWeights ≠ [])

def rowDisagreement (pair : ReplicationRow K × ReplicationRow K) : K :=
  totalVariation pair.1.strategyWeights pair.2.strategyWeights

/-- `validator_pair_disagreements` of one cohort. -/
def pairDisagreements (values : List (ReplicationRow K)) : List K :=
  (pairsOf (comparedRows values)).map rowDisagreement

/-- `row_disagreements[replication]`. -/
def rowDisagreements (values : List (ReplicationRow K)) (replication : Nat) : List K :=
  ((pairsOf (comparedRows values)).filter fun pair =>
    decide (pair.1.replication = replication) || decide (pair.2.replication = replication)).map
      rowDisagreement

/-- `by_scenario.get(name)`: a later row takes the place of an earlier one. -/
def rowOf (values : List (ReplicationRow K)) (name : Text) : Option (ReplicationRow K) :=
  values.reverse.find? fun row => row.scenario = name

variable [RealFunctions K]

/-- The rank agreement of the fast and the slow worker of a cohort. -/
def hardwarePair (values : List (ReplicationRow K)) : Except SimulationError (Option K) :=
  match rowOf values "fast-worker".toList, rowOf values "slow-worker".toList with
  | some fast, some slow =>
    if fast.planned && slow.planned then
      ((kendallTauB fast.aggregateRewards slow.aggregateRewards).mapError
        SimulationError.rank).map some
    else .ok none
  | _, _ => .ok none

/-- What the comparison of a cohort adds to one of its rows. -/
def comparedRow (values : List (ReplicationRow K)) (tau : Option K) (row : ReplicationRow K) :
    ReplicationRow K :=
  let compared := decide (row.replication ∈ (comparedRows values).map ReplicationRow.replication)
  let paired := decide (row.scenario = "fast-worker".toList) ||
    decide (row.scenario = "slow-worker".toList)
  { row with
    validatorDisagreementTv :=
      if compared then meanOf (rowDisagreements values row.replication) else none
    hardwarePairTauB := if paired then tau else none }

structure CohortOutcome (K : Type) where
  rows : List (ReplicationRow K)
  disagreements : List K
  hardwareTau : Option K

def compareCohort (values : List (ReplicationRow K)) : Except SimulationError (CohortOutcome K) := do
  let tau ← hardwarePair values
  return ⟨values.map (comparedRow values tau), pairDisagreements values, tau⟩

end Cohorts

section Summary

variable {K : Type} [Field K] [LinearOrder K]

/-- `max(values) if values else None`. -/
def maxOf : List K → Option K
  | [] => none
  | first :: rest => some (rest.foldl max first)

def indicator (holds : Bool) : K := if holds then 1 else 0

def total (rows : List (ReplicationRow K)) (count : Counters → Nat) : Nat :=
  (rows.map fun row => count row.counters).sum

structure ScenarioMetrics (K : Type) where
  replications : Nat
  plannedRate : K
  falseAcceptanceRate : K
  meanTauB : Option K
  meanCrossValidatorDisagreementTv : Option K
  meanTop1Share : K
  meanGamingWeight : K
  injectedFalseClaims : Nat
  acceptedInjectedFalseClaims : Nat

def scenarioMetrics (values : List (ReplicationRow K)) : ScenarioMetrics K where
  replications := values.length
  plannedRate := mean (values.map fun row => indicator row.planned)
  falseAcceptanceRate := (total values Counters.falseAcceptances : K) /
    ((max 1 (total values Counters.invalidAttempts) : Nat) : K)
  meanTauB := meanOf (values.filterMap ReplicationRow.rankStabilityTauB)
  meanCrossValidatorDisagreementTv :=
    meanOf (values.filterMap ReplicationRow.validatorDisagreementTv)
  meanTop1Share := mean (values.map fun row => row.concentration.top1Share)
  meanGamingWeight := mean (values.map ReplicationRow.gamingWeight)
  injectedFalseClaims := total values Counters.injectedFalseClaims
  acceptedInjectedFalseClaims := total values Counters.acceptedInjectedFalseClaims

structure ProfileMetrics (K : Type) where
  category : Category
  strategyDigest : Text
  behaviorDigest : Text
  meanAggregateReward : K
  meanWeight : K
  gateFailures : List (Text × Nat)

def profileMetrics (rows : List (ReplicationRow K)) (profile : MinerProfile K) : ProfileMetrics K :=
  let own := rows.flatMap fun row =>
    (row.aggregates.filter fun aggregate => aggregate.minerId = profile.profileId).map
      fun aggregate => (row, aggregate)
  let failures := own.filterMap fun item => item.2.failureCode.map FailureCode.text
  { category := profile.category
    strategyDigest := profile.strategyDigest
    behaviorDigest := profile.behaviorDigest
    meanAggregateReward := mean (own.map fun item => item.2.reward)
    meanWeight := mean (own.map fun item => weightAt item.1.weights item.2.minerId)
    gateFailures := sortedItems ((distinct failures).map fun code => (code, failures.count code)) }

structure SimulationSummary (K : Type) where
  replications : Nat
  epochsPerReplication : Nat
  minerProfileCount : Nat
  exactStrategyCount : Nat
  behaviorGroupCount : Nat
  validatorScenarioCount : Nat
  invalidAttempts : Nat
  falseAcceptances : Nat
  falseAcceptanceRate : K
  honestWinnerRate : K
  allFailSafeNoUpdateRate : K
  strategyEvaluations : Nat
  duplicateEvaluationCacheHits : Nat
  measuredTrialPairs : Nat
  injectedFalseClaims : Nat
  acceptedInjectedFalseClaims : Nat
  meanGini : K
  meanHhi : K
  meanTop1Share : K
  maxTop1Share : K
  meanRankStabilityTauB : Option K
  hardwareRankStabilityTauB : Option K
  hardwareRankPairCount : Nat
  meanValidatorDisagreementTv : Option K
  validatorDisagreementPairCount : Nat
  meanHonestWeight : K
  meanGamingWeight : K
  meanSybilWeight : K
  sybilStrategyAllocationGain : Option K
  meanSybilStrategyAllocationGain : Option K
  maxAbsSybilStrategyAllocationGain : Option K
  sybilAllocationComparisonCount : Nat
  behaviorEquivalentReplicaAllocationGain : Option K
  meanBehaviorEquivalentReplicaAllocationGain : Option K
  maxAbsBehaviorEquivalentReplicaAllocationGain : Option K
  behaviorEquivalentReplicaComparisonCount : Nat
  scenarioMetrics : List (Text × ScenarioMetrics K)
  profileMetrics : List (Text × ProfileMetrics K)

/-- `max((abs(value) for value in values), default=0.0) if values else None`. -/
def maxAbs (values : List K) : Option K := maxOf (values.map abs)

def summarize (config : SimulationConfig) (outcomes : List (CohortOutcome K)) :
    SimulationSummary K :=
  let rows := outcomes.flatMap CohortOutcome.rows
  let activeRows := rows.filter fun row => row.scenario ≠ "all-fail".toList
  let allFailRows := rows.filter fun row => row.scenario = "all-fail".toList
  let disagreements := outcomes.flatMap CohortOutcome.disagreements
  let hardwareTaus := outcomes.filterMap CohortOutcome.hardwareTau
  let sybilGains := activeRows.filterMap ReplicationRow.sybilStrategyAllocationGain
  let replicaGains := activeRows.filterMap ReplicationRow.behaviorEquivalentReplicaAllocationGain
  let profiles : List (MinerProfile K) := minerProfiles
  { replications := config.replications
    epochsPerReplication := config.epochs
    minerProfileCount := profiles.length
    exactStrategyCount := (profiles.map MinerProfile.strategyDigest).dedup.length
    behaviorGroupCount := (profiles.map MinerProfile.behaviorDigest).dedup.length
    validatorScenarioCount := (validatorScenarios (K := K)).length
    invalidAttempts := total rows Counters.invalidAttempts
    falseAcceptances := total rows Counters.falseAcceptances
    falseAcceptanceRate := (total rows Counters.falseAcceptances : K) /
      ((max 1 (total rows Counters.invalidAttempts) : Nat) : K)
    honestWinnerRate := mean (activeRows.map fun row =>
      indicator (decide (row.winnerCategory = some .honest)))
    allFailSafeNoUpdateRate := mean (allFailRows.map fun row => indicator row.safeNoUpdate)
    strategyEvaluations := total rows Counters.strategyEvaluations
    duplicateEvaluationCacheHits := total rows Counters.duplicateCacheHits
    measuredTrialPairs := total rows Counters.trialPairs
    injectedFalseClaims := total rows Counters.injectedFalseClaims
    acceptedInjectedFalseClaims := total rows Counters.acceptedInjectedFalseClaims
    meanGini := mean (activeRows.map fun row => row.concentration.gini)
    meanHhi := mean (activeRows.map fun row => row.concentration.hhi)
    meanTop1Share := mean (activeRows.map fun row => row.concentration.top1Share)
    maxTop1Share := (maxOf (activeRows.map fun row => row.concentration.top1Share)).getD 0
    meanRankStabilityTauB := meanOf (activeRows.filterMap ReplicationRow.rankStabilityTauB)
    hardwareRankStabilityTauB := meanOf hardwareTaus
    hardwareRankPairCount := hardwareTaus.length
    meanValidatorDisagreementTv := meanOf disagreements
    validatorDisagreementPairCount := disagreements.length
    meanHonestWeight := mean (activeRows.map ReplicationRow.honestWeight)
    meanGamingWeight := mean (activeRows.map ReplicationRow.gamingWeight)
    meanSybilWeight := mean (activeRows.map ReplicationRow.sybilWeight)
    sybilStrategyAllocationGain := maxOf sybilGains
    meanSybilStrategyAllocationGain := meanOf sybilGains
    maxAbsSybilStrategyAllocationGain := maxAbs sybilGains
    sybilAllocationComparisonCount := sybilGains.length
    behaviorEquivalentReplicaAllocationGain := maxOf replicaGains
    meanBehaviorEquivalentReplicaAllocationGain := meanOf replicaGains
    maxAbsBehaviorEquivalentReplicaAllocationGain := maxAbs replicaGains
    behaviorEquivalentReplicaComparisonCount := replicaGains.length
    scenarioMetrics := sortedItems ((groupBy ReplicationRow.scenario rows).map fun g =>
      (g.1, MechanismSimulation.scenarioMetrics g.2))
    profileMetrics := profiles.map fun profile =>
      (profile.profileId, MechanismSimulation.profileMetrics rows profile) }

end Summary

section Simulation

variable {K S : Type} [Field K] [LinearOrder K] [IsStrictOrderedRing K] [FloorSemiring K]
  [RealFunctions K] [BinaryFunctions K]

/-- `_profile_evaluation_signature`: what profiles of one strategy digest share. -/
def profileEvaluationSignature (profile : MinerProfile K) : List K × List K × Option Text :=
  ([profile.coldSpeedup, profile.warmSpeedup, profile.setupFraction, profile.storageRatio,
    profile.availability, profile.compliance, profile.correctness, profile.timeoutProbability,
    profile.timingNoise], profile.familyMultipliers, profile.behaviorKey)

/-- Every profile agrees with the first profile of its strategy digest. -/
def sharedCharacteristics (profiles : List (MinerProfile K)) : Bool :=
  profiles.all fun profile =>
    (profiles.find? fun p => p.strategyDigest = profile.strategyDigest).all fun representative =>
      decide (profileEvaluationSignature profile = profileEvaluationSignature representative)

structure SimulationReport (K : Type) [Field K] [LinearOrder K] where
  config : SimulationConfig
  benchmarkPolicy : BenchmarkPolicy K
  aggregationPolicy : AggregationPolicy K
  summary : SimulationSummary K
  replications : List (ReplicationRow K)

def runMechanismSimulation (platform : Platform K S) (config : SimulationConfig) :
    Except SimulationError (SimulationReport K) := do
  let benchmark ← benchmarkPolicy config
  let policy ← aggregationPolicy config
  if !sharedCharacteristics (minerProfiles (K := K)) then throw .sharedDigest
  let rows ← (List.range config.replications).mapM
    (runReplication platform benchmark policy config)
  let outcomes ← (groupBy ReplicationRow.cohort rows).mapM fun g => compareCohort g.2
  return ⟨config, benchmark, policy, summarize config outcomes, outcomes.flatMap CohortOutcome.rows⟩

end Simulation

end MechanismSimulation
