import PlanRace.BenchmarkV2
import PlanRace.StrategyDigest

/-!
# Committed-holdout evaluation

A bundle is measured on every hidden fixture of its task and its results become
one reward. A cohort is evaluated once for each executable strategy, and the
result is recorded for every miner that submitted it.
-/

namespace EvaluationV2

open JsonText ByteStrings LexOrder CanonicalJson WireText IndexAst TaskModels TaskgenV2
  BenchmarkScoring SandboxV2 BenchmarkV2 StrategyDigest ScoringV2 Statistics Grouping

inductive EvaluationError where
  | unknownFamily
  | revealMismatch
  | referenceSqlMismatch
  | schemaMismatch
  | parameterRangesMismatch
  | trainingFixtureMismatch
  | otherTask
  | otherEngine
  | trialCount
  | unboundResult
  | invalidRewards
  | negativeEpoch
  | noSubmissions
  | strategyLimit
  | emptyMinerId
  | strategyBudget
  | strategyDigestMismatch
  /-- Raised while the reveal is audited, the worker runs or the evidence is scored. -/
  | reveal (error : TaskError)
  | worker (message : Text)
  | scoring (error : ScoringError)
  /-- A request or an observation fails its own bounds. -/
  | invalidModel
  | indexError
deriving DecidableEq

def EvaluationError.text : EvaluationError → Text
  | unknownFamily => "unknown benchmark family".toList
  | revealMismatch => "task reveal or regenerated fixtures do not verify".toList
  | referenceSqlMismatch => "reference SQL does not match benchmark family".toList
  | schemaMismatch => "schema does not match benchmark v2".toList
  | parameterRangesMismatch => "published parameter ranges do not match generator".toList
  | trainingFixtureMismatch => "public training fixture does not match generator".toList
  | otherTask => "bundle belongs to another task".toList
  | otherEngine => "bundle engine differs from task engine".toList
  | trialCount => "trial_count must be even and satisfy the scorer".toList
  | unboundResult => "worker result is not bound to its request".toList
  | invalidRewards => "invalid holdout rewards".toList
  | negativeEpoch => "epoch must be non-negative".toList
  | noSubmissions => "at least one submission is required".toList
  | strategyLimit => "max_unique_strategies must be positive".toList
  | emptyMinerId => "miner IDs must be non-empty".toList
  | strategyBudget => "unique strategy evaluation budget exceeded".toList
  | strategyDigestMismatch => "evaluation strategy digest mismatch".toList
  | reveal error => error.text
  | worker message => message
  | scoring error => error.text
  | invalidModel => "validation error".toList
  | indexError => "list index out of range".toList

section Records

variable (K : Type) [Field K] [LinearOrder K]

structure FixtureEvaluationV2 where
  fixtureId : Text
  result : SandboxResultV2 K
  score : BenchmarkScore K

inductive HoldoutFailure where
  | exactResultGate
  | artifactPolicyGate
  | benchmarkInvalid
  | noRobustImprovement
deriving DecidableEq

def HoldoutFailure.text : HoldoutFailure → Text
  | exactResultGate => "exact_result_gate".toList
  | artifactPolicyGate => "artifact_policy_gate".toList
  | benchmarkInvalid => "benchmark_invalid".toList
  | noRobustImprovement => "no_robust_improvement".toList

structure HoldoutEvaluationV2 where
  taskId : Text
  taskCommitment : Text
  artifactDigest : Text
  strategyDigest : Text
  behaviorDigest : Text
  familyId : Text
  exactPassed : Bool
  compliant : Bool
  eligible : Bool
  reward : K
  failureCode : Option HoldoutFailure
  fixtureEvaluations : List (FixtureEvaluationV2 K)

/-- Evaluate-once result for every submitted executable strategy. -/
structure CohortEvaluationV2 where
  taskId : Text
  taskCommitment : Text
  uniqueStrategyCount : Nat
  cacheHitCount : Nat
  strategyEvaluations : List (Text × HoldoutEvaluationV2 K)
  observations : List (EpochObservation K)

/-- A worker for the holdout at a position. The position lets a worker answer
equal requests differently. -/
abbrev WorkerRunner := Nat → DatabaseFile → SandboxRequestV2 K → Except Text (SandboxResultV2 K)

/-- What a validator evaluates with. -/
structure Evaluator where
  generator : Generator
  benchmarkPolicy : BenchmarkPolicy K
  trialCount : Nat := 6
  workerRunner : WorkerRunner K
  /-- `format(value, ".17g")`. -/
  number : K → Text
  /-- `\w` of a regular expression. -/
  isWord : Char → Bool

end Records

section Tasks

/-- `str.isspace`. -/
def isSpace (c : Char) : Bool :=
  let n := c.toNat
  (9 ≤ n && n ≤ 13) || (28 ≤ n && n ≤ 32) || n == 0x85 || n == 0xA0 || n == 0x1680 ||
    (0x2000 ≤ n && n ≤ 0x200A) || n == 0x2028 || n == 0x2029 || n == 0x202F || n == 0x205F ||
    n == 0x3000

def strip (t : Text) : Text := ((t.dropWhile isSpace).reverse.dropWhile isSpace).reverse

/-- `regenerate`. -/
def regenerate (generator : Generator) (family : QueryFamily) : HiddenFixtureFactory :=
  fun seed => (generator.hidden seed family).map GeneratedFixture.descriptor

/-- The published training fixture is the generated one. -/
def trainingMatches (published : PublicTrainingFixture) (training : GeneratedFixture) : Bool :=
  decide (published.fixtureId = training.descriptor.fixtureId) &&
    decide (published.generatorSeedHex.val = publicTrainingSeedHex) &&
    decide (published.contentDigest = training.descriptor.contentDigest) &&
    decide (published.rowCount = training.descriptor.rowCount)

/-- `_validate_and_regenerate_task`. -/
def validateAndRegenerateTask (generator : Generator) (task : PrivateTaskV2) :
    Except EvaluationError QueryFamily :=
  match queryFamilies.find? fun family => family.familyId = task.publicTask.benchmarkFamilyId.val with
  | none => .error .unknownFamily
  | some family =>
    match auditTaskReveal task.publicTask task.reveal (some (regenerate generator family)) with
    | .error error => .error (.reveal error)
    | .ok false => .error .revealMismatch
    | .ok true =>
      if strip task.publicTask.referenceSql.val ≠ strip family.sql then .error .referenceSqlMismatch
      else if strip task.publicTask.schemaSql.val ≠ strip schemaV2 then .error .schemaMismatch
      else if task.publicTask.parameterRanges ≠ publishedParameterRanges family.familyId then
        .error .parameterRangesMismatch
      else if !trainingMatches task.publicTask.publicTrainingFixture (generator.training family) then
        .error .trainingFixtureMismatch
      else .ok family

end Tasks

section Digests

variable {K : Type} [Field K] [LinearOrder K]

def maskedName : Text := "planrace_<candidate>".toList

/-- A validator-owned index name starts here, after the given character. -/
def namedHere (isWord : Char → Bool) (before : Option Char) (rest : Text) : Bool :=
  !before.any isWord && "planrace_".toList.isPrefixOf rest &&
    hexOfLength 20 ((rest.drop 9).take 20) && !(rest.drop 29).head?.any isWord

/-- `_VALIDATOR_INDEX_NAME.sub`, with the characters of a match still to skip. -/
def maskIndexNames (isWord : Char → Bool) : Option Char → Nat → Text → Text
  | _, _, [] => []
  | _, skip + 1, c :: rest => maskIndexNames isWord (some c) skip rest
  | before, 0, c :: rest =>
    if namedHere isWord before (c :: rest) then
      maskedName ++ maskIndexNames isWord (some c) 28 rest
    else c :: maskIndexNames isWord (some c) 0 rest

def behaviorDomain : Domain :=
  ⟨"planrace/2:holdout-plan-behavior".toList, by decide +kernel, by decide +kernel,
    by decide +kernel⟩

def evidenceDomain : Domain :=
  ⟨"planrace/2:holdout-evidence".toList, by decide +kernel, by decide +kernel, by decide +kernel⟩

/-- One entry of `plans`. -/
def planJson (isWord : Char → Bool) (item : FixtureEvaluationV2 K) : Json :=
  .obj [("fixture_id".toList, .str item.fixtureId),
    ("candidate_plan".toList,
      modelDump (item.result.candidatePlan.map (maskIndexNames isWord none 0))),
    ("used_index_count".toList, modelDump item.result.usedIndexNames.length)]

def holdoutBehaviorDigest (isWord : Char → Bool) (evaluations : List (FixtureEvaluationV2 K)) :
    Text :=
  domainSeparatedDigest behaviorDomain
    (.obj [("plans".toList, .arr (evaluations.map (planJson isWord)))])

def ExecutionOrder.text : ExecutionOrder → Text
  | .baselineFirst => "baseline-first".toList
  | .candidateFirst => "candidate-first".toList

def trialJson (number : K → Text) (trial : SandboxTrialV2 K) : Json :=
  .obj [("worker_id".toList, .str trial.workerId),
    ("order".toList, .str (ExecutionOrder.text trial.order)),
    ("baseline_cold_ms".toList, .str (number trial.baselineColdMs)),
    ("candidate_cold_ms".toList, .str (number trial.candidateColdMs)),
    ("baseline_warm_ms".toList, .str (number trial.baselineWarmMs)),
    ("candidate_warm_ms".toList, .str (number trial.candidateWarmMs)),
    ("baseline_timed_out".toList, .bool trial.baselineTimedOut),
    ("candidate_timed_out".toList, .bool trial.candidateTimedOut)]

/-- `result.model_dump` without the artifact digest, floats as strings. -/
def resultJson (number : K → Text) (result : SandboxResultV2 K) : Json :=
  .obj [("protocol_version".toList, .str protocolVersionV2),
    ("success".toList, .bool result.success),
    ("failure_code".toList, dumpOption result.failureCode),
    ("engine".toList, .str result.engine), ("task_id".toList, .str result.taskId),
    ("task_commitment".toList, .str result.taskCommitment),
    ("fixture_id".toList, .str result.fixtureId),
    ("fixture_content_digest".toList, .str result.fixtureContentDigest),
    ("hidden_fixture_merkle_root".toList, .str result.hiddenFixtureMerkleRoot),
    ("reference_digest".toList, dumpOption result.referenceDigest),
    ("candidate_digest".toList, dumpOption result.candidateDigest),
    ("correct".toList, .bool result.correct), ("compliant".toList, .bool result.compliant),
    ("row_count".toList, modelDump result.rowCount),
    ("setup_ms".toList, .str (number result.setupMs)),
    ("worker_id".toList, dumpOption result.workerId),
    ("trials".toList, .arr (result.trials.map (trialJson number))),
    ("database_bytes".toList, modelDump result.databaseBytes),
    ("artifact_storage_bytes".toList, modelDump result.artifactStorageBytes),
    ("candidate_plan".toList, modelDump result.candidatePlan),
    ("used_index_names".toList, modelDump result.usedIndexNames)]

def horizonJson (number : K → Text) (score : HorizonScore K) : Json :=
  .obj [("horizon".toList, modelDump score.horizon),
    ("relative_speedup".toList, .str (number score.relativeSpeedup)),
    ("lower_confidence_speedup".toList, .str (number score.lowerConfidenceSpeedup)),
    ("relative_savings".toList, .str (number score.relativeSavings))]

/-- `asdict(item.score)`, floats as strings. -/
def scoreJson (number : K → Text) (score : BenchmarkScore K) : Json :=
  .obj [("eligible".toList, .bool score.eligible),
    ("benchmark_valid".toList, .bool score.benchmarkValid),
    ("reward".toList, .str (number score.reward)),
    ("failure_code".toList, dumpOption (score.failureCode.map BenchmarkFailure.text)),
    ("worker_id".toList, dumpOption score.workerId),
    ("timeout_rate".toList, .str (number score.timeoutRate)),
    ("storage_ratio".toList, .str (number score.storageRatio)),
    ("horizons".toList, .arr (score.horizons.map (horizonJson number)))]

def fixtureJson (number : K → Text) (item : FixtureEvaluationV2 K) : Json :=
  .obj [("fixture_id".toList, .str item.fixtureId),
    ("result".toList, resultJson number item.result),
    ("score".toList, scoreJson number item.score)]

def holdoutEvidenceDigest (number : K → Text) (evaluation : HoldoutEvaluationV2 K) : Text :=
  domainSeparatedDigest evidenceDomain
    (.obj [("task_id".toList, .str evaluation.taskId),
      ("task_commitment".toList, .str evaluation.taskCommitment),
      ("strategy_digest".toList, .str evaluation.strategyDigest),
      ("behavior_digest".toList, .str evaluation.behaviorDigest),
      ("family_id".toList, .str evaluation.familyId),
      ("exact_passed".toList, .bool evaluation.exactPassed),
      ("compliant".toList, .bool evaluation.compliant),
      ("eligible".toList, .bool evaluation.eligible),
      ("reward".toList, .str (number evaluation.reward)),
      ("failure_code".toList, dumpOption (evaluation.failureCode.map HoldoutFailure.text)),
      ("fixtures".toList, .arr (evaluation.fixtureEvaluations.map (fixtureJson number)))])

end Digests

section Finalize

variable {K : Type} [Field K] [LinearOrder K]

/-- `_robust_holdout_reward`. -/
def robustHoldoutReward [RealFunctions K] (rewards : List K) : Except EvaluationError K :=
  if rewards = [] ∨ rewards.any fun value => decide (value < 0) then .error .invalidRewards
  else
    let ordered := sorted rewards
    let lowerWidth := max 1 ((ordered.length + 3) / 4)
    let lowerQuartile := fmean (ordered.take lowerWidth)
    let geometric :=
      RealFunctions.exp (fmean (ordered.map fun value => RealFunctions.log (1 + value))) - 1
    .ok (60 / 100 * lowerQuartile + 40 / 100 * geometric)

/-- `_failed`. -/
def failed (isWord : Char → Bool) (task : PrivateTaskV2) (bundle : OptimizationBundle)
    (familyId : Text) (evaluations : List (FixtureEvaluationV2 K)) (code : HoldoutFailure) :
    HoldoutEvaluationV2 K where
  taskId := task.publicTask.taskId.val
  taskCommitment := task.publicTask.commitment.val
  artifactDigest := bundle.artifactDigest.val
  strategyDigest := optimizationStrategyDigest bundle
  behaviorDigest := holdoutBehaviorDigest isWord evaluations
  familyId := familyId
  exactPassed := evaluations.all fun item => item.result.correct
  compliant := evaluations.all fun item => item.result.compliant
  eligible := false
  reward := 0
  failureCode := some code
  fixtureEvaluations := evaluations

/-- `_finalize_holdout_evaluation`. -/
def finalizeHoldoutEvaluation [RealFunctions K] (isWord : Char → Bool) (task : PrivateTaskV2)
    (bundle : OptimizationBundle) (familyId : Text) (evaluations : List (FixtureEvaluationV2 K)) :
    Except EvaluationError (HoldoutEvaluationV2 K) :=
  if ¬ evaluations.all fun item => item.result.correct then
    .ok (failed isWord task bundle familyId evaluations .exactResultGate)
  else if ¬ evaluations.all fun item => item.result.compliant then
    .ok (failed isWord task bundle familyId evaluations .artifactPolicyGate)
  else if evaluations.any fun item => !item.score.benchmarkValid then
    .ok (failed isWord task bundle familyId evaluations .benchmarkInvalid)
  else if bundle.indexes = [] ∨
      ¬ evaluations.any fun item => decide (item.result.usedIndexNames ≠ []) then
    -- timing noise must not turn a no-op into reward
    .ok (failed isWord task bundle familyId evaluations .noRobustImprovement)
  else do
    let reward ← robustHoldoutReward (evaluations.map fun item => item.score.reward)
    return {
      taskId := task.publicTask.taskId.val
      taskCommitment := task.publicTask.commitment.val
      artifactDigest := bundle.artifactDigest.val
      strategyDigest := optimizationStrategyDigest bundle
      behaviorDigest := holdoutBehaviorDigest isWord evaluations
      familyId := familyId
      exactPassed := true
      compliant := true
      eligible := decide (0 < reward)
      reward := reward
      failureCode := if 0 < reward then none else some .noRobustImprovement
      fixtureEvaluations := evaluations }

end Finalize

section Bundle

variable {K : Type} [Field K] [LinearOrder K] [IsStrictOrderedRing K]

/-- The request of a bundle on a fixture, once its bounds are checked. -/
def sandboxRequest (policy : BenchmarkPolicy K) (trialCount : Nat) (task : PrivateTaskV2)
    (ordered : Bool) (bundle : OptimizationBundle) (fixture : GeneratedFixture) :
    Except EvaluationError (SandboxRequestV2 K) :=
  if valid : fixture.parameters.length ≤ 32 ∧ (6 ≤ trialCount ∧ trialCount ≤ 24) ∧
      trialCount % 2 = 0 ∧
      (bundle.taskId = task.publicTask.taskId ∧ task.reveal.taskId = task.publicTask.taskId) ∧
      bundle.engineImageDigest = task.publicTask.engineImageDigest ∧
      fixture.descriptor ∈ task.reveal.hiddenFixtures then
    .ok {
      task := task.publicTask
      reveal := task.reveal
      fixture := fixture.descriptor
      bundle := bundle
      parameters := fixture.parameters
      ordered := ordered
      collation := .binary
      trialCount := trialCount
      benchmarkPolicy := policy
      parametersBound := valid.1
      trialBounds := valid.2.1
      balancedTrials := valid.2.2.1
      oneTask := valid.2.2.2.1
      committedEngine := valid.2.2.2.2.1
      committedFixture := valid.2.2.2.2.2 }
  else .error .invalidModel

/-- `_verify_worker_echo`. -/
def verifyWorkerEcho (request : SandboxRequestV2 K) (result : SandboxResultV2 K) :
    Except EvaluationError Unit :=
  if result.taskId = request.task.taskId.val ∧
      result.taskCommitment = request.task.commitment.val ∧
      result.fixtureId = request.fixture.fixtureId.val ∧
      result.fixtureContentDigest = request.fixture.contentDigest.val ∧
      result.hiddenFixtureMerkleRoot = request.reveal.hiddenFixtureMerkleRoot.val ∧
      result.artifactDigest = request.bundle.artifactDigest.val then
    .ok ()
  else .error .unboundResult

def interleavedTrial (trial : SandboxTrialV2 K) : InterleavedTrial K where
  workerId := trial.workerId
  order := trial.order
  baselineColdMs := trial.baselineColdMs
  candidateColdMs := trial.candidateColdMs
  baselineWarmMs := trial.baselineWarmMs
  candidateWarmMs := trial.candidateWarmMs
  baselineTimedOut := trial.baselineTimedOut
  candidateTimedOut := trial.candidateTimedOut
  identified := List.ne_nil_of_length_pos trial.workerIdBounds.1
  timesPositive := trial.timesPositive

def benchmarkEvidenceFromSandbox (result : SandboxResultV2 K) : BenchmarkEvidence K where
  correct := result.correct
  compliant := result.compliant
  setupMs := result.setupMs
  artifactStorageBytes := result.artifactStorageBytes
  databaseBytes := max 1 result.databaseBytes
  trials := result.trials.map interleavedTrial
  setupNonnegative := result.setupNonnegative
  databasePositive := Nat.lt_of_lt_of_le one_pos (Nat.le_max_left 1 _)

variable [FloorSemiring K] [RealFunctions K] [BinaryFunctions K]

/-- One round of the loop over the fixtures. -/
def evaluateFixture (evaluator : Evaluator K) (task : PrivateTaskV2) (family : QueryFamily)
    (bundle : OptimizationBundle) (holdout : GeneratedFixture × Nat) :
    Except EvaluationError (FixtureEvaluationV2 K) := do
  let request ← sandboxRequest evaluator.benchmarkPolicy evaluator.trialCount task family.ordered
    bundle holdout.1
  let result ← (evaluator.workerRunner holdout.2 holdout.1.database request).mapError .worker
  verifyWorkerEcho request result
  let score ← (scoreBenchmark evaluator.benchmarkPolicy
    (benchmarkEvidenceFromSandbox result)).mapError .scoring
  return ⟨holdout.1.descriptor.fixtureId.val, result, score⟩

/-- The hidden fixtures of a task with their positions. -/
def holdouts (generator : Generator) (task : PrivateTaskV2) (family : QueryFamily) :
    List (GeneratedFixture × Nat) :=
  (generator.hidden (fromHex task.reveal.secretSeedHex.val) family).zipIdx

def evaluateBundleOnCommittedHoldouts (evaluator : Evaluator K) (task : PrivateTaskV2)
    (bundle : OptimizationBundle) : Except EvaluationError (HoldoutEvaluationV2 K) := do
  let family ← validateAndRegenerateTask evaluator.generator task
  if bundle.taskId ≠ task.publicTask.taskId then throw .otherTask
  if bundle.engineImageDigest ≠ task.publicTask.engineImageDigest then throw .otherEngine
  if evaluator.trialCount < evaluator.benchmarkPolicy.minimumTrials ∨
      evaluator.trialCount % 2 ≠ 0 then
    throw .trialCount
  let evaluations ← (holdouts evaluator.generator task family).mapM
    (evaluateFixture evaluator task family bundle)
  finalizeHoldoutEvaluation evaluator.isWord task bundle family.familyId evaluations

end Bundle

section Cohort

variable {K : Type} [Field K] [LinearOrder K] [IsStrictOrderedRing K] [FloorSemiring K]
  [RealFunctions K] [BinaryFunctions K]

/-- A mapping from miner to bundle. -/
abbrev Submissions :=
  {items : List (Text × OptimizationBundle) // (items.map Prod.fst).Nodup}

/-- `sorted(submissions.items())`. -/
def sortedSubmissions (submissions : Submissions) : List (Text × OptimizationBundle) :=
  sortBy Char.toNat Prod.fst submissions.val

def foreignBundle (task : PublicTaskV2) (bundle : OptimizationBundle) : Option EvaluationError :=
  if bundle.taskId ≠ task.taskId then some .otherTask
  else if bundle.engineImageDigest ≠ task.engineImageDigest then some .otherEngine
  else none

/-- `sorted(by_strategy.items())`. -/
def strategyGroups (submissions : Submissions) : List (Text × List (Text × OptimizationBundle)) :=
  sortBy Char.toNat Prod.fst
    (groupBy (fun submission => optimizationStrategyDigest submission.2)
      (sortedSubmissions submissions))

/-- `EpochObservation(...)` for a miner of an evaluated strategy. -/
def observe (number : K → Text) (task : PublicTaskV2) (epoch : Nat) (strategyDigest : Text)
    (evaluation : HoldoutEvaluationV2 K) (minerId : Text) :
    Except EvaluationError (EpochObservation K) :=
  if valid : (minerId ≠ [] ∧ task.benchmarkFamilyId.val ≠ [] ∧ task.taskId.val ≠ [] ∧
      task.commitment.val ≠ [] ∧ holdoutEvidenceDigest number evaluation ≠ [] ∧
      strategyDigest ≠ [] ∧ evaluation.behaviorDigest ≠ []) ∧
      0 ≤ evaluation.reward ∧ evaluation.reward ≤ 100 then
    .ok {
      minerId := minerId
      epoch := epoch
      family := task.benchmarkFamilyId.val
      taskId := task.taskId.val
      taskCommitment := task.commitment.val
      evidenceDigest := holdoutEvidenceDigest number evaluation
      reward := evaluation.reward
      available := true
      correct := evaluation.exactPassed
      compliant := evaluation.compliant
      strategyDigest := strategyDigest
      behaviorDigest := evaluation.behaviorDigest
      identified := valid.1
      rewardBounds := valid.2
      groupSizePositive := one_member }
  else .error .invalidModel

/-- What one strategy adds to the cohort. -/
structure StrategyOutcome (K : Type) [Field K] [LinearOrder K] where
  strategyDigest : Text
  evaluation : HoldoutEvaluationV2 K
  observations : List (EpochObservation K)

/-- One round of the loop over the strategies. -/
def evaluateStrategy (evaluator : Evaluator K) (task : PrivateTaskV2) (epoch : Nat)
    (group : Text × List (Text × OptimizationBundle)) :
    Except EvaluationError (StrategyOutcome K) :=
  match group.2 with
  | [] => .error .indexError
  | canonical :: _ => do
    let evaluation ← evaluateBundleOnCommittedHoldouts evaluator task canonical.2
    if evaluation.strategyDigest ≠ group.1 then throw .strategyDigestMismatch
    let observations ← group.2.mapM fun member =>
      observe evaluator.number task.publicTask epoch group.1 evaluation member.1
    return ⟨group.1, evaluation, observations⟩

/-- `CohortEvaluationV2(...)`. -/
def cohortEvaluation (task : PublicTaskV2) (submissions : Submissions)
    (outcomes : List (StrategyOutcome K)) : CohortEvaluationV2 K where
  taskId := task.taskId.val
  taskCommitment := task.commitment.val
  uniqueStrategyCount := (strategyGroups submissions).length
  cacheHitCount := submissions.val.length - (strategyGroups submissions).length
  strategyEvaluations := outcomes.map fun outcome => (outcome.strategyDigest, outcome.evaluation)
  observations :=
    sortBy Char.toNat EpochObservation.minerId (outcomes.flatMap StrategyOutcome.observations)

def evaluateTaskCohort (evaluator : Evaluator K) (task : PrivateTaskV2) (submissions : Submissions)
    (epoch : Int) (maxUniqueStrategies : Int) :
    Except EvaluationError (CohortEvaluationV2 K) := do
  if epoch < 0 then throw .negativeEpoch
  if submissions.val = [] then throw .noSubmissions
  if maxUniqueStrategies < 1 then throw .strategyLimit
  if submissions.val.any fun submission => decide (submission.1 = []) then throw .emptyMinerId
  if let some error := (sortedSubmissions submissions).findSome? fun submission =>
      foreignBundle task.publicTask submission.2 then
    throw error
  if ((strategyGroups submissions).length : Int) > maxUniqueStrategies then throw .strategyBudget
  let outcomes ← (strategyGroups submissions).mapM (evaluateStrategy evaluator task epoch.toNat)
  return cohortEvaluation task.publicTask submissions outcomes

end Cohort

end EvaluationV2
