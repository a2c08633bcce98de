import Mathlib.Data.List.Infix
import PlanRace.BenchmarkScoring
import PlanRace.IndexSql
import PlanRace.Library.Dict
import PlanRace.OracleV2
import PlanRace.TaskgenV2

/-!
# The sandbox worker

`execute_request` with its admission checks, its trial loop and every exit, and
the boundary that runs it in a container. Files, SQLite and the clock enter as
values: what the worker finds when it reads the database, and what each run of
the query comes to.
-/

namespace SandboxV2

open JsonText ByteStrings LexOrder CanonicalJson WireText IndexAst TaskModels TaskgenV2 OracleV2
  BenchmarkScoring IndexSql

section Codes

inductive ProcessStatus where
  | ok
  | timeout
  | crash
  | inputLimit
  | outputLimit
  | spawnError
deriving DecidableEq

def ProcessStatus.text : ProcessStatus → Text
  | ok => "ok".toList
  | timeout => "timeout".toList
  | crash => "crash".toList
  | inputLimit => "input_limit".toList
  | outputLimit => "output_limit".toList
  | spawnError => "spawn_error".toList

inductive FailureCode where
  | databaseMissing
  | databaseLimit
  | taskRevealMismatch
  | generatorSourceMismatch
  | benchmarkPolicyMismatch
  | fixtureNotCommitted
  | fixtureFileDigestMissing
  | fixtureFileMismatch
  | fixtureContentMismatch
  | fixtureDigestRejected
  | fixtureParametersMismatch
  | artifactSize
  | indexCountPolicy
  | indexColumnPolicy
  | uniqueIndexPolicy
  | partialIndexPolicy
  | predicateCountPolicy
  | predicateOperatorPolicy
  | engineMismatch
  | preexistingIndex
  | fixtureSchemaMismatch
  | unknownTable
  | unknownColumn
  | unbalancedTrialCount
  | nondeterministicResult
  | missingResult
  | resultMismatch
  | candidateTimeout
  | queryTimeout
  | malformedText
  | sqliteRejected
  | workerRejected
  | engineImageMismatch
  | worker (status : ProcessStatus)
  | workerMalformedOutput
  /-- The code or message of an exception raised while the query was read or run. -/
  | raised (text : Text)
deriving DecidableEq

def FailureCode.text : FailureCode → Text
  | databaseMissing => "database_missing".toList
  | databaseLimit => "database_limit".toList
  | taskRevealMismatch => "task_reveal_mismatch".toList
  | generatorSourceMismatch => "generator_source_mismatch".toList
  | benchmarkPolicyMismatch => "benchmark_policy_mismatch".toList
  | fixtureNotCommitted => "fixture_not_committed".toList
  | fixtureFileDigestMissing => "fixture_file_digest_missing".toList
  | fixtureFileMismatch => "fixture_file_mismatch".toList
  | fixtureContentMismatch => "fixture_content_mismatch".toList
  | fixtureDigestRejected => "fixture_digest_rejected".toList
  | fixtureParametersMismatch => "fixture_parameters_mismatch".toList
  | artifactSize => "artifact_size".toList
  | indexCountPolicy => "index_count_policy".toList
  | indexColumnPolicy => "index_column_policy".toList
  | uniqueIndexPolicy => "unique_index_policy".toList
  | partialIndexPolicy => "partial_index_policy".toList
  | predicateCountPolicy => "predicate_count_policy".toList
  | predicateOperatorPolicy => "predicate_operator_policy".toList
  | engineMismatch => "engine_mismatch".toList
  | preexistingIndex => "preexisting_index".toList
  | fixtureSchemaMismatch => "fixture_schema_mismatch".toList
  | unknownTable => "unknown_table".toList
  | unknownColumn => "unknown_column".toList
  | unbalancedTrialCount => "unbalanced_trial_count".toList
  | nondeterministicResult => "nondeterministic_result".toList
  | missingResult => "missing_result".toList
  | resultMismatch => "result_mismatch".toList
  | candidateTimeout => "candidate_timeout".toList
  | queryTimeout => "query_timeout".toList
  | malformedText => "malformed_text".toList
  | sqliteRejected => "sqlite_rejected".toList
  | workerRejected => "worker_rejected".toList
  | engineImageMismatch => "engine_image_mismatch".toList
  | worker status => "worker_".toList ++ status.text
  | workerMalformedOutput => "worker_malformed_output".toList
  | raised text => text

/-- `needle in text`. -/
def contains (needle text : Text) : Bool := decide (needle <:+: text)

/-- The exceptions that `execute_request` turns into a failed result. -/
inductive Fault where
  /-- `AdmissionError`. -/
  | admission (code : FailureCode)
  /-- `ResultLimitExceeded`. -/
  | resultLimit (message : Text)
  /-- `sqlite3.DatabaseError`, with its message in lower case. -/
  | database (message : Text)
  /-- `OSError`, `UnicodeError` and `ValueError`. -/
  | rejected
deriving DecidableEq

def isInterrupted (message : Text) : Bool := contains "interrupted".toList message

def Fault.code : Fault → FailureCode
  | admission code => code
  | resultLimit message => .raised message
  | database message =>
    if isInterrupted message then .queryTimeout
    else if contains "utf-8".toList message || contains "decode".toList message then .malformedText
    else .sqliteRejected
  | rejected => .workerRejected

end Codes

section Records

variable (K : Type) [Field K] [LinearOrder K]

inductive ParameterValue where
  | integer (value : Int)
  | text (value : Text)
  | boolean (value : Bool)
  | null
deriving DecidableEq

/-- What an evaluation request hands to the worker. -/
structure SandboxRequestV2 where
  task : PublicTaskV2
  reveal : TaskRevealV2
  fixture : HiddenFixtureDescriptor
  bundle : OptimizationBundle
  parameters : List ParameterValue
  ordered : Bool
  collation : Collation
  trialCount : Nat
  benchmarkPolicy : BenchmarkPolicy K
  parametersBound : parameters.length ≤ 32
  trialBounds : 6 ≤ trialCount ∧ trialCount ≤ 24
  /-- Interleaving needs an even number of trials. -/
  balancedTrials : trialCount % 2 = 0
  /-- Task, reveal and bundle name one task. -/
  oneTask : bundle.taskId = task.taskId ∧ reveal.taskId = task.taskId
  committedEngine : bundle.engineImageDigest = task.engineImageDigest
  committedFixture : fixture ∈ reveal.hiddenFixtures

structure SandboxTrialV2 where
  workerId : Text
  order : ExecutionOrder
  baselineColdMs : K
  candidateColdMs : K
  baselineWarmMs : K
  candidateWarmMs : K
  baselineTimedOut : Bool := false
  candidateTimedOut : Bool := false
  workerIdBounds : 1 ≤ workerId.length ∧ workerId.length ≤ 128
  timesPositive : 0 < baselineColdMs ∧ 0 < candidateColdMs ∧ 0 < baselineWarmMs ∧
    0 < candidateWarmMs

structure SandboxResultV2 where
  success : Bool
  failureCode : Option Text
  engine : Text
  artifactDigest : Text
  taskId : Text
  taskCommitment : Text
  fixtureId : Text
  fixtureContentDigest : Text
  hiddenFixtureMerkleRoot : Text
  referenceDigest : Option Text := none
  candidateDigest : Option Text := none
  correct : Bool := false
  compliant : Bool := false
  rowCount : Nat := 0
  setupMs : K := 0
  workerId : Option Text := none
  trials : List (SandboxTrialV2 K) := []
  databaseBytes : Nat := 0
  artifactStorageBytes : Nat := 0
  candidatePlan : List Text := []
  usedIndexNames : List Text := []
  setupNonnegative : 0 ≤ setupMs

structure SandboxPolicy where
  wallTimeoutSeconds : K := 20
  queryTimeoutMs : Nat := 750
  memoryBytes : Nat := 268435456
  cpuSeconds : Nat := 10
  pidsLimit : Nat := 16
  maxDatabaseBytes : Nat := 67108864
  maxRows : Nat := 10000
  maxCells : Nat := 100000
  maxResultBytes : Nat := 2097152
  maxWorkerInputBytes : Nat := 262144
  maxWorkerOutputBytes : Nat := 65536
  timeBounds : (0 < wallTimeoutSeconds ∧ wallTimeoutSeconds ≤ 60) ∧
    (10 ≤ queryTimeoutMs ∧ queryTimeoutMs ≤ 10000) ∧ (1 ≤ cpuSeconds ∧ cpuSeconds ≤ 30)
  memoryBounds : 67108864 ≤ memoryBytes ∧ 1048576 ≤ maxDatabaseBytes ∧
    (4 ≤ pidsLimit ∧ pidsLimit ≤ 64)
  resultBounds : (1 ≤ maxRows ∧ maxRows ≤ 100000) ∧ (1 ≤ maxCells ∧ maxCells ≤ 1000000) ∧
    (1024 ≤ maxResultBytes ∧ maxResultBytes ≤ 16777216)
  transferBounds : (65536 ≤ maxWorkerInputBytes ∧ maxWorkerInputBytes ≤ 1048576) ∧
    (1024 ≤ maxWorkerOutputBytes ∧ maxWorkerOutputBytes ≤ 1048576)

/-- A database path as the worker finds it. -/
structure DatabaseFile where
  /-- Nothing when the path does not resolve. -/
  size : Option Nat
  isFile : Bool
  fileDigest : Text
  /-- The recomputed logical content digest; nothing when recomputing it raises. -/
  contentDigest : Option Text

/-- What a worker installation brings along. -/
structure Host where
  /-- `format(value, ".17g")`. -/
  number : K → Text
  generatorSourceDigest : Text
  sqliteVersion : Text

inductive Arm where
  | baseline
  | candidate
deriving DecidableEq

inductive Track where
  | cold
  | warm
deriving DecidableEq

/-- One execution of the query with the time it took. -/
inductive Run where
  | completed (result : CanonicalResult) (elapsedMs : K)
  | raised (fault : Fault) (elapsedMs : K)

/-- What reading the query and the fixture database comes to. -/
structure Inspection where
  /-- `validate_reference_query`. -/
  query : Except Fault Text
  /-- `_read_schema` on a fresh connection. -/
  schema : Except Fault (List (Text × List Text))
  preexistingIndex : Except Fault Bool
  /-- The fingerprint of the database is that of the task's schema. -/
  schemaMatches : Except Fault Bool

/-- What the candidate database does once the indexes are installed. -/
structure Measurements where
  setupMs : K
  candidateFile : DatabaseFile
  /-- The details of `EXPLAIN QUERY PLAN`. -/
  planRows : Except Fault (List Text)
  workerId : Text
  /-- Opening the two connections of a trial. -/
  opens : Nat → Except Fault Unit
  run : Nat → Arm → Track → Run K
  setupNonnegative : 0 ≤ setupMs
  workerIdBounds : 1 ≤ workerId.length ∧ workerId.length ≤ 128

/-- SQLite on one fixture: `measure` installs the compiled indexes. -/
structure Engine where
  inspection : Inspection
  measure : List Text → Except Fault (Measurements K)

end Records

def pinnedSqliteVersion : Text := "3.46.1".toList

section Digests

variable {K : Type} [Field K] [LinearOrder K]

def ParameterValue.json : ParameterValue → Json
  | integer value => .int value
  | text value => .str value
  | boolean value => .bool value
  | null => .null

def parameterDomain : Text := "planrace/2:fixture-parameters".toList

/-- `fixture_parameter_set_digest`, for a family id within its bounds. -/
def fixtureParameterSetDigest (family : BenchmarkFamilyId) (parameters : List ParameterValue) :
    Text :=
  digestText (utf8 parameterDomain ++ 0 :: canonicalJsonBytes
    (.obj [("family".toList, modelDump family),
      ("parameters".toList, .arr (parameters.map ParameterValue.json))]))

def runtimePolicyDomain : Domain :=
  ⟨"planrace/2:benchmark-runtime-policy".toList, by decide +kernel, by decide +kernel,
    by decide +kernel⟩

def scoringPayload (number : K → Text) (policy : BenchmarkPolicy K) : Json :=
  .obj [("horizons".toList, modelDump policy.horizons),
    ("horizon_weights".toList, modelDump (policy.horizonWeights.map number)),
    ("minimum_trials".toList, modelDump policy.minimumTrials),
    ("winsor_fraction".toList, .str (number policy.winsorFraction)),
    ("confidence_z".toList, .str (number policy.confidenceZ)),
    ("maximum_timeout_rate".toList, .str (number policy.maximumTimeoutRate)),
    ("storage_penalty_at_database_size".toList,
      .str (number policy.storagePenaltyAtDatabaseSize))]

def sandboxPayload (number : K → Text) (policy : SandboxPolicy K) : Json :=
  .obj [("wall_timeout_seconds".toList, .str (number policy.wallTimeoutSeconds)),
    ("query_timeout_ms".toList, modelDump policy.queryTimeoutMs),
    ("memory_bytes".toList, modelDump policy.memoryBytes),
    ("cpu_seconds".toList, modelDump policy.cpuSeconds),
    ("pids_limit".toList, modelDump policy.pidsLimit),
    ("max_database_bytes".toList, modelDump policy.maxDatabaseBytes),
    ("max_rows".toList, modelDump policy.maxRows),
    ("max_cells".toList, modelDump policy.maxCells),
    ("max_result_bytes".toList, modelDump policy.maxResultBytes),
    ("max_worker_input_bytes".toList, modelDump policy.maxWorkerInputBytes),
    ("max_worker_output_bytes".toList, modelDump policy.maxWorkerOutputBytes)]

def benchmarkRuntimePolicyDigest (number : K → Text) (sandboxPolicy : SandboxPolicy K)
    (benchmarkPolicy : BenchmarkPolicy K) (trialCount : Nat) (ordered : Bool)
    (collation : Collation) : Text :=
  domainSeparatedDigest runtimePolicyDomain
    (.obj [("policy_version".toList, .str "planrace-benchmark-policy/2.1".toList),
      ("engine".toList, .str pinnedSqliteEngine),
      ("interleaving".toList, .str "abba-fresh-connections-cold-warm-v1".toList),
      ("trial_count".toList, modelDump trialCount), ("ordered".toList, modelDump ordered),
      ("collation".toList, .str collation.text),
      ("scoring".toList, scoringPayload number benchmarkPolicy),
      ("sandbox".toList, sandboxPayload number sandboxPolicy)])

end Digests

section Admission

variable {K : Type} [Field K] [LinearOrder K]

/-- `len(bundle.model_dump_json().encode("utf-8"))`. -/
def artifactBytes (bundle : OptimizationBundle) : Nat :=
  (utf8 (dumps false (modelDump bundle))).length

/-- `_safe_database_size`. -/
def safeDatabaseSize (policy : SandboxPolicy K) (database : DatabaseFile) : Except FailureCode Nat :=
  match database.size with
  | none => .error .databaseMissing
  | some size =>
    if !database.isFile || decide (size > policy.maxDatabaseBytes) then .error .databaseLimit
    else .ok size

/-- The checks that look at the task, the reveal and the fixture only. -/
def taskFailure (host : Host K) (policy : SandboxPolicy K) (database : DatabaseFile)
    (request : SandboxRequestV2 K) : Option FailureCode :=
  if auditTaskReveal request.task request.reveal none ≠ .ok true then some .taskRevealMismatch
  else if request.task.generatorSourceDigest.val ≠ host.generatorSourceDigest then
    some .generatorSourceMismatch
  else if request.task.benchmarkPolicyDigest.val ≠ benchmarkRuntimePolicyDigest host.number policy
      request.benchmarkPolicy request.trialCount request.ordered request.collation then
    some .benchmarkPolicyMismatch
  else if request.fixture ∉ request.reveal.hiddenFixtures then some .fixtureNotCommitted
  else
    match request.fixture.databaseFileDigest with
    | none => some .fixtureFileDigestMissing
    | some fileDigest =>
      if database.fileDigest ≠ fileDigest.val then some .fixtureFileMismatch
      else if database.contentDigest = none then some .fixtureDigestRejected
      else if database.contentDigest ≠ some request.fixture.contentDigest.val then
        some .fixtureContentMismatch
      else if fixtureParameterSetDigest request.task.benchmarkFamilyId request.parameters ≠
          request.fixture.parameterSetDigest.val then some .fixtureParametersMismatch
      else none

/-- The checks that `_validate_task_artifact_policy` makes on one index. -/
def indexPolicyFailure (budget : ArtifactBudget) (grammar : ArtifactGrammar) (index : IndexSpec) :
    Option FailureCode :=
  if index.keyColumns.length + index.includeColumns.length > budget.maxColumnsPerIndex then
    some .indexColumnPolicy
  else if index.unique && !grammar.allowsUnique then some .uniqueIndexPolicy
  else
    match index.predicate with
    | none => none
    | some predicate =>
      if !grammar.allowsPartial then some .partialIndexPolicy
      else if predicate.atoms.length > budget.maxPredicatesPerIndex then some .predicateCountPolicy
      else if predicate.atoms.any fun atom =>
          decide (atom.operator ∉ grammar.allowedPredicateOperators) then
        some .predicateOperatorPolicy
      else none

/-- `_validate_task_artifact_policy`. -/
def artifactPolicyFailure (task : PublicTaskV2) (indexes : List IndexSpec) : Option FailureCode :=
  if indexes.length > task.artifactBudget.maxIndexes then some .indexCountPolicy
  else indexes.findSome? (indexPolicyFailure task.artifactBudget task.artifactGrammar)

def oversized (task : PublicTaskV2) (bundle : OptimizationBundle) : Bool :=
  decide (artifactBytes bundle > task.artifactBudget.maxBundleBytes)

/-- The admission checks of `execute_request` in front of the database. -/
def admissionFailure (host : Host K) (policy : SandboxPolicy K) (requirePinnedEngine : Bool)
    (database : DatabaseFile) (request : SandboxRequestV2 K) : Option FailureCode :=
  match taskFailure host policy database request with
  | some code => some code
  | none =>
    if oversized request.task request.bundle then some .artifactSize
    else
      match artifactPolicyFailure request.task request.bundle.indexes with
      | some code => some code
      | none =>
        if requirePinnedEngine && decide (host.sqliteVersion ≠ pinnedSqliteVersion) then
          some .engineMismatch
        else none

/-- The columns that an index names. -/
def requestedColumns (index : IndexSpec) : List Text :=
  index.keyColumns.map (fun item => item.column.val) ++ index.includeColumns.map Subtype.val ++
    ((specAtoms index).getD []).map fun atom => atom.column.val

/-- The checks that `_validate_bundle_schema` makes on one index. -/
def schemaFailure (schema : List (Text × List Text)) (index : IndexSpec) : Option FailureCode :=
  match Dict.get? schema index.table.val with
  | none => some .unknownTable
  | some columns =>
    if (requestedColumns index).all fun column => decide (column ∈ columns) then none
    else some .unknownColumn

end Admission

section Trials

/-- The fault of an evaluation, with the arm whose query raised it. -/
abbrev Raised := Option Arm × Fault

def outside {α : Type} (x : Except Fault α) : Except Raised α := x.mapError (none, ·)

def inArm {α : Type} (arm : Arm) (x : Except Fault α) : Except Raised α := x.mapError (some arm, ·)

/-- `_balanced_interleave_orders`. -/
def balancedInterleaveOrders (trialCount : Nat) : Except Fault (List ExecutionOrder) :=
  if trialCount < 6 ∨ trialCount % 2 ≠ 0 then .error (.admission .unbalancedTrialCount)
  else
    let orders := (List.range trialCount).map fun index =>
      if index % 4 = 0 ∨ index % 4 = 3 then ExecutionOrder.baselineFirst else .candidateFirst
    if orders.count .baselineFirst ≠ orders.count .candidateFirst then
      -- an incomplete final block is repaired with one pair
      .ok (orders.take (trialCount - 2) ++ [.baselineFirst, .candidateFirst])
    else .ok orders

variable {K : Type} [Field K] [LinearOrder K] [IsStrictOrderedRing K]

/-- `sys.float_info.min`. -/
def floatMin : K := 1 / 2 ^ 1022

theorem floatMin_pos : (0 : K) < floatMin := one_div_pos.mpr (pow_pos two_pos 1022)

/-- A value with the positive time that was taken for it. -/
structure Timed (K : Type) [Field K] [LinearOrder K] (α : Type) where
  value : α
  elapsedMs : K
  positive : 0 < elapsedMs

def timed {α : Type} (value : α) (elapsedMs : K) : Timed K α :=
  ⟨value, max elapsedMs floatMin, lt_max_of_lt_right floatMin_pos⟩

/-- `_run_once`. -/
def runOnce : Run K → Except Fault (Timed K CanonicalResult)
  | .completed result elapsedMs => .ok (timed result elapsedMs)
  | .raised fault _ => .error fault

/-- `_run_candidate_once`: an interrupted query is a timeout, without a result. -/
def runCandidateOnce : Run K → Except Fault (Timed K (Option CanonicalResult))
  | .completed result elapsedMs => .ok (timed (some result) elapsedMs)
  | .raised (.database message) elapsedMs =>
    if isInterrupted message then .ok (timed none elapsedMs) else .error (.database message)
  | .raised fault _ => .error fault

/-- The four runs of a trial. -/
structure TrialRuns (K : Type) [Field K] [LinearOrder K] where
  baselineCold : Timed K CanonicalResult
  candidateCold : Timed K (Option CanonicalResult)
  baselineWarm : Timed K CanonicalResult
  candidateWarm : Timed K (Option CanonicalResult)

/-- After a cold timeout the candidate does not run again. -/
def warmCandidate (run : Arm → Track → Run K) (cold : Timed K (Option CanonicalResult)) :
    Except Raised (Timed K (Option CanonicalResult)) :=
  if cold.value.isNone then .ok cold
  else inArm .candidate (runCandidateOnce (run .candidate .warm))

def trialRuns (order : ExecutionOrder) (run : Arm → Track → Run K) :
    Except Raised (TrialRuns K) :=
  match order with
  | .baselineFirst => do
    let baselineCold ← inArm .baseline (runOnce (run .baseline .cold))
    let candidateCold ← inArm .candidate (runCandidateOnce (run .candidate .cold))
    let baselineWarm ← inArm .baseline (runOnce (run .baseline .warm))
    let candidateWarm ← warmCandidate run candidateCold
    return ⟨baselineCold, candidateCold, baselineWarm, candidateWarm⟩
  | .candidateFirst => do
    let candidateCold ← inArm .candidate (runCandidateOnce (run .candidate .cold))
    let baselineCold ← inArm .baseline (runOnce (run .baseline .cold))
    let candidateWarm ← warmCandidate run candidateCold
    let baselineWarm ← inArm .baseline (runOnce (run .baseline .warm))
    return ⟨baselineCold, candidateCold, baselineWarm, candidateWarm⟩

namespace TrialRuns

/-- `completed_candidates`. -/
def completedCandidates (runs : TrialRuns K) : List CanonicalResult :=
  runs.candidateCold.value.toList ++ runs.candidateWarm.value.toList

def mismatched (runs : TrialRuns K) : Option CanonicalResult :=
  runs.completedCandidates.find? fun item => item.digest ≠ runs.baselineCold.value.digest

def trial (runs : TrialRuns K) (workerId : Text)
    (bounds : 1 ≤ workerId.length ∧ workerId.length ≤ 128) (order : ExecutionOrder) :
    SandboxTrialV2 K where
  workerId := workerId
  order := order
  baselineColdMs := runs.baselineCold.elapsedMs
  candidateColdMs := runs.candidateCold.elapsedMs
  baselineWarmMs := runs.baselineWarm.elapsedMs
  candidateWarmMs := runs.candidateWarm.elapsedMs
  candidateTimedOut := runs.candidateCold.value.isNone || runs.candidateWarm.value.isNone
  workerIdBounds := bounds
  timesPositive := ⟨runs.baselineCold.positive, runs.candidateCold.positive,
    runs.baselineWarm.positive, runs.candidateWarm.positive⟩

end TrialRuns

/-- `reference_result`, `candidate_result` and `trials`. -/
structure LoopState (K : Type) [Field K] [LinearOrder K] where
  reference : Option CanonicalResult := none
  candidate : Option CanonicalResult := none
  trials : List (SandboxTrialV2 K) := []

/-- An early end of the trial loop. -/
inductive Stop (K : Type) [Field K] [LinearOrder K] where
  | raised (fault : Raised)
  /-- `return` with a mismatch. -/
  | mismatch (reference candidate : CanonicalResult) (trials : List (SandboxTrialV2 K))

def nondeterministic : Stop K := .raised (none, .admission .nondeterministicResult)

/-- What a trial makes of the loop's variables, its four runs given. -/
def recordTrial (m : Measurements K) (order : ExecutionOrder) (runs : TrialRuns K)
    (s : LoopState K) : Except (Stop K) (LoopState K) :=
  let baseline := runs.baselineCold.value
  if baseline.digest ≠ runs.baselineWarm.value.digest then .error nondeterministic
  else
    match runs.mismatched with
    | some candidate => .error (.mismatch baseline candidate s.trials)
    | none =>
      if s.reference.any fun reference => decide (reference.digest ≠ baseline.digest) then
        .error nondeterministic
      else
        .ok {
          reference := some baseline
          candidate := runs.completedCandidates.head?.or s.candidate
          trials := s.trials ++ [runs.trial m.workerId m.workerIdBounds order] }

/-- One round of the trial loop. -/
def runTrial (m : Measurements K) (s : LoopState K) (item : ExecutionOrder × Nat) :
    Except (Stop K) (LoopState K) :=
  match outside (m.opens item.2) >>= fun _ => trialRuns item.1 (m.run item.2) with
  | .error fault => .error (.raised fault)
  | .ok runs => recordTrial m item.1 runs s

def runTrials (m : Measurements K) (orders : List ExecutionOrder) :
    Except (Stop K) (LoopState K) :=
  orders.zipIdx.foldlM (runTrial m) {}

end Trials

section Execute

variable {K : Type} [Field K] [LinearOrder K]

theorem no_setup : (0 : K) ≤ 0 := le_refl 0

/-- `_failure`. -/
def failure (request : SandboxRequestV2 K) (code : FailureCode)
    (databaseBytes artifactBytes : Nat) : SandboxResultV2 K where
  success := false
  failureCode := some code.text
  engine := pinnedSqliteEngine
  artifactDigest := request.bundle.artifactDigest.val
  taskId := request.task.taskId.val
  taskCommitment := request.task.commitment.val
  fixtureId := request.fixture.fixtureId.val
  fixtureContentDigest := request.fixture.contentDigest.val
  hiddenFixtureMerkleRoot := request.reveal.hiddenFixtureMerkleRoot.val
  databaseBytes := databaseBytes
  artifactStorageBytes := artifactBytes
  setupNonnegative := no_setup

/-- What the result of a measured candidate takes from its setup. -/
structure Setup where
  databaseBytes : Nat
  artifactStorageBytes : Nat
  candidatePlan : List Text
  usedIndexNames : List Text

/-- The result of a candidate that was measured: compliant, and correct or not. -/
def verdict (request : SandboxRequestV2 K) (m : Measurements K) (setup : Setup)
    (failureCode : Option FailureCode) (reference : CanonicalResult)
    (candidate : Option CanonicalResult) (trials : List (SandboxTrialV2 K)) :
    SandboxResultV2 K where
  success := failureCode.isNone
  failureCode := failureCode.map FailureCode.text
  engine := pinnedSqliteEngine
  artifactDigest := request.bundle.artifactDigest.val
  taskId := request.task.taskId.val
  taskCommitment := request.task.commitment.val
  fixtureId := request.fixture.fixtureId.val
  fixtureContentDigest := request.fixture.contentDigest.val
  hiddenFixtureMerkleRoot := request.reveal.hiddenFixtureMerkleRoot.val
  referenceDigest := some reference.digest
  candidateDigest := candidate.map CanonicalResult.digest
  correct := failureCode.isNone
  compliant := true
  rowCount := (candidate.map CanonicalResult.rowCount).getD 0
  setupMs := m.setupMs
  workerId := some m.workerId
  trials := trials
  databaseBytes := setup.databaseBytes
  artifactStorageBytes := setup.artifactStorageBytes
  candidatePlan := setup.candidatePlan
  usedIndexNames := setup.usedIndexNames
  setupNonnegative := m.setupNonnegative

/-- `used_index_names`, read off the plan. -/
def usedIndexNames (indexes : List IndexSpec) (candidatePlan : List Text) : List Text :=
  sortBy Char.toNat id ((indexes.map validatorIndexName).dedup.filter fun name =>
    candidatePlan.any (contains name))

variable [IsStrictOrderedRing K]

/-- The end of `execute_request` once the loop is through. -/
def conclude (request : SandboxRequestV2 K) (m : Measurements K) (setup : Setup)
    (s : LoopState K) : Except Raised (SandboxResultV2 K) :=
  match s.reference, s.candidate with
  | none, _ => .error (none, .admission .missingResult)
  | some reference, none =>
    .ok (verdict request m setup (some .candidateTimeout) reference none s.trials)
  | some reference, some candidate =>
    if reference.digest = candidate.digest then
      .ok (verdict request m setup none reference (some candidate) s.trials)
    else
      .ok (verdict request m setup (some .resultMismatch) reference (some candidate) s.trials)

/-- The outcome of the trial loop, ended early or not. -/
def afterTrials (request : SandboxRequestV2 K) (m : Measurements K) (setup : Setup) :
    Except (Stop K) (LoopState K) → Except Raised (SandboxResultV2 K)
  | .error (.raised fault) => .error fault
  | .error (.mismatch reference candidate trials) =>
    .ok (verdict request m setup (some .resultMismatch) reference (some candidate) trials)
  | .ok s => conclude request m setup s

/-- The trials of an installed candidate. -/
def measureTrials (request : SandboxRequestV2 K) (m : Measurements K) (setup : Setup) :
    Except Raised (SandboxResultV2 K) := do
  let orders ← outside (balancedInterleaveOrders request.trialCount)
  afterTrials request m setup (runTrials m orders)

/-- The candidate once its indexes are installed. -/
def measureCandidate (policy : SandboxPolicy K) (databaseBytes : Nat)
    (request : SandboxRequestV2 K) (m : Measurements K) : Except Raised (SandboxResultV2 K) :=
  match safeDatabaseSize policy m.candidateFile with
  | .error code =>
    match m.candidateFile.size with
    | none => .error (none, .rejected)
    | some size => .ok (failure request code databaseBytes
        (max (artifactBytes request.bundle) (size - databaseBytes)))
  | .ok candidateBytes => do
    let rows ← outside m.planRows
    let candidatePlan := (rows.take 64).map (List.take 512)
    measureTrials request m {
      databaseBytes := databaseBytes
      artifactStorageBytes := candidateBytes - databaseBytes
      candidatePlan := candidatePlan
      usedIndexNames := usedIndexNames request.bundle.indexes candidatePlan }

/-- The checks on the query and the schema, before the candidate is installed. -/
def inspect (inspection : Inspection) (indexes : List IndexSpec) : Except Fault Unit := do
  let _ ← inspection.query
  let schema ← inspection.schema
  if (← inspection.preexistingIndex) then throw (.admission .preexistingIndex)
  if !(← inspection.schemaMatches) then throw (.admission .fixtureSchemaMismatch)
  match indexes.findSome? (schemaFailure schema) with
  | some code => throw (.admission code)
  | none => return ()

/-- `compile_index_sql` for every index. -/
def compileIndexes (indexes : List IndexSpec) : Except Fault (List Text) :=
  (indexes.mapM compileIndexSql).mapError fun _ => .rejected

/-- The `try` block of `execute_request`. -/
def evaluateRequest (policy : SandboxPolicy K) (databaseBytes : Nat) (engine : Engine K)
    (request : SandboxRequestV2 K) : Except Raised (SandboxResultV2 K) := do
  outside (inspect engine.inspection request.bundle.indexes)
  let statements ← outside (compileIndexes request.bundle.indexes)
  let m ← outside (engine.measure statements)
  measureCandidate policy databaseBytes request m

/-- The `except` clauses of `execute_request`. -/
def settle (request : SandboxRequestV2 K) (databaseBytes : Nat) :
    Except Raised (SandboxResultV2 K) → SandboxResultV2 K
  | .error (_, fault) => failure request fault.code databaseBytes (artifactBytes request.bundle)
  | .ok result => result

/-- All exceptions become a zero-score result. -/
def executeRequest (host : Host K) (policy : SandboxPolicy K) (requirePinnedEngine : Bool)
    (database : DatabaseFile) (engine : Engine K) (request : SandboxRequestV2 K) :
    SandboxResultV2 K :=
  match safeDatabaseSize policy database with
  | .error code => failure request code 0 (artifactBytes request.bundle)
  | .ok databaseBytes =>
    match admissionFailure host policy requirePinnedEngine database request with
    | some code => failure request code databaseBytes (artifactBytes request.bundle)
    | none => settle request databaseBytes (evaluateRequest policy databaseBytes engine request)

end Execute

section Boundary

variable {K : Type} [Field K] [LinearOrder K]

/-- The container process, with the result that its output parses to. -/
structure ProcessOutcome (K : Type) [Field K] [LinearOrder K] where
  status : ProcessStatus
  result : Option (SandboxResultV2 K)

def unpinnedImage : Text := "production worker image must be pinned by sha256 digest".toList

/-- `run_docker_worker`, with the digest in the name of the image. -/
def runDockerWorker (policy : SandboxPolicy K) (imageDigest : Option Text) (requireDigest : Bool)
    (database : DatabaseFile) (request : SandboxRequestV2 K) (outcome : ProcessOutcome K) :
    Except Text (SandboxResultV2 K) :=
  let bytes := artifactBytes request.bundle
  match safeDatabaseSize policy database with
  | .error code => .ok (failure request code 0 bytes)
  | .ok databaseBytes =>
    if requireDigest && imageDigest.isNone then .error unpinnedImage
    else if requireDigest && decide (imageDigest ≠ some request.bundle.engineImageDigest.val) then
      .ok (failure request .engineImageMismatch databaseBytes bytes)
    else if outcome.status ≠ .ok then
      .ok (failure request (.worker outcome.status) databaseBytes bytes)
    else
      match outcome.result with
      | none => .ok (failure request .workerMalformedOutput databaseBytes bytes)
      | some result => .ok result

end Boundary

end SandboxV2
