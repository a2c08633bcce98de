import PlanRace.EvaluationV2
import PlanRace.Library.Fallible

/-!
# What a sandbox result depends on

`execute_request` sees the whole bundle in its admission checks. Behind them
its result depends on the compiled statements and on nothing else of the
bundle, up to the identities that it repeats.
-/

namespace SandboxRuns

open JsonText ByteStrings LexOrder CanonicalJson WireText IndexAst SqlLexer CreateIndexReader IndexSql
  TaskModels TaskgenV2 OracleV2 BenchmarkScoring SandboxV2 StrategyDigest EvaluationV2 Fallible

section Statements

/-- The statement of an index specification. -/
def indexStatement (spec : IndexSpec) : Text :=
  statementText (validatorIndexName spec) spec ((specAtoms spec).map (List.map conjunctText))

/-- Every list of indexes compiles. -/
theorem compileIndexes_eq (indexes : List IndexSpec) :
    compileIndexes indexes = .ok (indexes.map indexStatement) := by
  rw [compileIndexes, mapM_eq_map fun spec _ => compileIndexSql_eq spec]
  rfl

/-- A statement shows the name of its index. -/
theorem validatorIndexName_of_indexStatement {s t : IndexSpec}
    (h : indexStatement s = indexStatement t) : validatorIndexName s = validatorIndexName t := by
  have hread : ∀ spec : IndexSpec, readScript (fun _ => false) (indexStatement spec) =
      some [statementOf (validatorIndexName spec) spec (specAtoms spec)] := fun spec =>
    readScript_statementText transparent_never (isWordChar_of_mem_validatorIndexName spec) spec
      (specAtoms_ne_nil spec) fun _ _ _ _ _ _ => rfl
  have hboth := (hread s).symm.trans ((congrArg _ h).trans (hread t))
  exact (CreateIndex.mk.inj (List.singleton_inj.mp (Option.some.inj hboth))).2.1

theorem map_validatorIndexName {xs ys : List IndexSpec}
    (h : compileIndexes xs = compileIndexes ys) :
    xs.map validatorIndexName = ys.map validatorIndexName := by
  rw [compileIndexes_eq, compileIndexes_eq] at h
  have statements := Except.ok.inj h
  clear h
  induction xs generalizing ys with
  | nil =>
    cases ys with
    | nil => rfl
    | cons y ys => cases statements
  | cons x xs ih =>
    cases ys with
    | nil => cases statements
    | cons y ys =>
      obtain ⟨first, rest⟩ := List.cons.inj statements
      rw [List.map_cons, List.map_cons, validatorIndexName_of_indexStatement first, ih rest]

end Statements

variable {K : Type} [Field K] [LinearOrder K]

section Agreement

/-- Results that score alike and show the same use of indexes. -/
structure Agree (r r' : SandboxResultV2 K) : Prop where
  correct : r.correct = r'.correct
  compliant : r.compliant = r'.compliant
  setupMs : r.setupMs = r'.setupMs
  databaseBytes : r.databaseBytes = r'.databaseBytes
  trials : r.trials = r'.trials
  /-- Without trials the storage is not scored. -/
  storage : r.trials = [] ∨ r.artifactStorageBytes = r'.artifactStorageBytes
  used : r.usedIndexNames = r'.usedIndexNames

/-- What two requests run to that differ in their bundles: the same fault, two
failures, or one verdict under the identities of each. -/
inductive Alike (request request' : SandboxRequestV2 K) :
    Except Raised (SandboxResultV2 K) → Except Raised (SandboxResultV2 K) → Prop
  | raised (fault : Raised) : Alike request request' (.error fault) (.error fault)
  | failed (code : FailureCode) (databaseBytes bytes bytes' : Nat) :
      Alike request request' (.ok (failure request code databaseBytes bytes))
        (.ok (failure request' code databaseBytes bytes'))
  | measured (m : Measurements K) (setup : Setup) (code : Option FailureCode)
      (reference : CanonicalResult) (candidate : Option CanonicalResult)
      (trials : List (SandboxTrialV2 K)) :
      Alike request request' (.ok (verdict request m setup code reference candidate trials))
        (.ok (verdict request' m setup code reference candidate trials))

variable {request request' : SandboxRequestV2 K} {m : Measurements K}

theorem alike_conclude (setup : Setup) (s : LoopState K) :
    Alike request request' (conclude request m setup s) (conclude request' m setup s) := by
  unfold conclude
  cases s.reference with
  | none => exact .raised _
  | some reference =>
    cases s.candidate with
    | none => exact .measured _ _ _ _ _ _
    | some candidate =>
      by_cases same : reference.digest = candidate.digest
      · simp only [if_pos same]
        exact .measured _ _ _ _ _ _
      · simp only [if_neg same]
        exact .measured _ _ _ _ _ _

theorem agree_settle (databaseBytes : Nat) {x y : Except Raised (SandboxResultV2 K)}
    (h : Alike request request' x y) :
    Agree (settle request databaseBytes x) (settle request' databaseBytes y) := by
  cases h with
  | raised fault => exact ⟨rfl, rfl, rfl, rfl, rfl, .inl rfl, rfl⟩
  | failed => exact ⟨rfl, rfl, rfl, rfl, rfl, .inl rfl, rfl⟩
  | measured => exact ⟨rfl, rfl, rfl, rfl, rfl, .inr rfl, rfl⟩

theorem echo_failure (request : SandboxRequestV2 K) (code : FailureCode)
    (databaseBytes bytes : Nat) :
    verifyWorkerEcho request (failure request code databaseBytes bytes) = .ok () :=
  if_pos ⟨rfl, rfl, rfl, rfl, rfl, rfl⟩

theorem echo_settle (databaseBytes : Nat) {x : Except Raised (SandboxResultV2 K)}
    (h : Alike request request x x) :
    verifyWorkerEcho request (settle request databaseBytes x) = .ok () := by
  cases h with
  | raised fault => exact echo_failure _ _ _ _
  | failed => exact echo_failure _ _ _ _
  | measured => exact if_pos ⟨rfl, rfl, rfl, rfl, rfl, rfl⟩

variable [IsStrictOrderedRing K]

theorem alike_measureTrials (trials : request.trialCount = request'.trialCount) (setup : Setup) :
    Alike request request' (measureTrials request m setup) (measureTrials request' m setup) := by
  unfold measureTrials
  rw [trials]
  cases balancedInterleaveOrders request'.trialCount with
  | error fault => exact .raised _
  | ok orders =>
    change Alike _ _ (afterTrials request m setup (runTrials m orders))
      (afterTrials request' m setup (runTrials m orders))
    cases runTrials m orders with
    | error stop =>
      cases stop with
      | raised fault => exact .raised _
      | mismatch reference candidate done => exact .measured _ _ _ _ _ _
    | ok s => exact alike_conclude setup s

theorem alike_measureCandidate (policy : SandboxPolicy K) (databaseBytes : Nat)
    (trials : request.trialCount = request'.trialCount)
    (names : request.bundle.indexes.map validatorIndexName =
      request'.bundle.indexes.map validatorIndexName) :
    Alike request request' (measureCandidate policy databaseBytes request m)
      (measureCandidate policy databaseBytes request' m) := by
  have used : ∀ plan, usedIndexNames request.bundle.indexes plan =
      usedIndexNames request'.bundle.indexes plan := by
    intro plan
    rw [usedIndexNames, usedIndexNames, names]
  unfold measureCandidate
  cases safeDatabaseSize policy m.candidateFile with
  | error code =>
    cases m.candidateFile.size with
    | none => exact .raised _
    | some size => exact .failed _ _ _ _
  | ok candidateBytes =>
    cases m.planRows with
    | error fault => exact .raised _
    | ok rows =>
      change Alike _ _ (measureTrials request m (Setup.mk _ _ _ (usedIndexNames _ _)))
        (measureTrials request' m (Setup.mk _ _ _ (usedIndexNames _ _)))
      rw [used]
      exact alike_measureTrials trials _

end Agreement

section Admission

/-- What the checks on the task, the reveal and the fixture ask for. -/
theorem taskFailure_eq_none_iff {host : Host K} {policy : SandboxPolicy K} {database : DatabaseFile}
    {request : SandboxRequestV2 K} :
    taskFailure host policy database request = none ↔
      auditTaskReveal request.task request.reveal none = .ok true ∧
        request.task.generatorSourceDigest.val = host.generatorSourceDigest ∧
        request.task.benchmarkPolicyDigest.val = benchmarkRuntimePolicyDigest host.number policy
          request.benchmarkPolicy request.trialCount request.ordered request.collation ∧
        request.fixture ∈ request.reveal.hiddenFixtures ∧
        ∃ fileDigest, request.fixture.databaseFileDigest = some fileDigest ∧
          database.fileDigest = fileDigest.val ∧
          database.contentDigest = some request.fixture.contentDigest.val ∧
          fixtureParameterSetDigest request.task.benchmarkFamilyId request.parameters =
            request.fixture.parameterSetDigest.val := by
  unfold taskFailure
  by_cases audit : auditTaskReveal request.task request.reveal none = .ok true
  case neg => simp [audit]
  by_cases source : request.task.generatorSourceDigest.val = host.generatorSourceDigest
  case neg => simp [audit, source]
  by_cases runtime : request.task.benchmarkPolicyDigest.val = benchmarkRuntimePolicyDigest
      host.number policy request.benchmarkPolicy request.trialCount request.ordered request.collation
  case neg => simp [audit, source, runtime]
  rw [if_neg (not_not.mpr audit), if_neg (not_not.mpr source), if_neg (not_not.mpr runtime),
    if_neg (not_not.mpr request.committedFixture)]
  cases request.fixture.databaseFileDigest with
  | none => simp
  | some fileDigest =>
    dsimp only
    split_ifs with file missing content parameters
    · simp [file]
    · simp [missing]
    · simp [content]
    · simp [parameters]
    · rw [not_not] at file content parameters
      simp [audit, source, runtime, request.committedFixture, file, content, parameters]

variable [IsStrictOrderedRing K]

/-- What a validator's worker brings along, and what it finds when it reads the
query and the database of a fixture. -/
structure Sandbox (K : Type) [Field K] [LinearOrder K] where
  host : Host K
  policy : SandboxPolicy K
  requirePinnedEngine : Bool
  inspection : Nat → Inspection

/-- The measurements on the fixture at a position, from the compiled statements. -/
abbrev Measure (K : Type) [Field K] [LinearOrder K] := Nat → List Text → Except Fault (Measurements K)

/-- `execute_request` as a worker. -/
def Sandbox.run (sandbox : Sandbox K) (measure : Measure K) (position : Nat)
    (database : DatabaseFile) (request : SandboxRequestV2 K) : SandboxResultV2 K :=
  executeRequest sandbox.host sandbox.policy sandbox.requirePinnedEngine database
    ⟨sandbox.inspection position, measure position⟩ request

def Sandbox.worker (sandbox : Sandbox K) (measure : Measure K) : WorkerRunner K :=
  fun position database request => .ok (sandbox.run measure position database request)

/-- The request passes every check in front of the measurements. -/
structure Passes (sandbox : Sandbox K) (position : Nat) (database : DatabaseFile)
    (request : SandboxRequestV2 K) : Prop where
  present : ∃ databaseBytes, safeDatabaseSize sandbox.policy database = .ok databaseBytes
  admitted : admissionFailure sandbox.host sandbox.policy sandbox.requirePinnedEngine database
    request = none
  inspected : inspect (sandbox.inspection position) request.bundle.indexes = .ok ()

variable {sandbox : Sandbox K} {measure : Measure K} {position : Nat} {database : DatabaseFile}
  {request request' : SandboxRequestV2 K}

/-- A request that fails a check leaves an incorrect and noncompliant result. -/
theorem run_of_not_passes (h : ¬ Passes sandbox position database request) :
    ∃ code databaseBytes, sandbox.run measure position database request =
      failure request code databaseBytes (artifactBytes request.bundle) := by
  unfold Sandbox.run executeRequest
  cases present : safeDatabaseSize sandbox.policy database with
  | error code => exact ⟨code, 0, rfl⟩
  | ok databaseBytes =>
    dsimp only
    cases admitted : admissionFailure sandbox.host sandbox.policy sandbox.requirePinnedEngine
        database request with
    | some code => exact ⟨code, databaseBytes, rfl⟩
    | none =>
      dsimp only
      cases inspected : inspect (sandbox.inspection position) request.bundle.indexes with
      | ok u => exact absurd ⟨⟨_, present⟩, admitted, inspected⟩ h
      | error fault =>
        refine ⟨fault.code, databaseBytes, ?_⟩
        unfold evaluateRequest
        dsimp only
        rw [inspected]
        rfl

/-- Behind the checks the measurements decide. -/
theorem run_of_passes (h : Passes sandbox position database request) {databaseBytes : Nat}
    (present : safeDatabaseSize sandbox.policy database = .ok databaseBytes) :
    sandbox.run measure position database request =
      settle request databaseBytes
        (outside (measure position (request.bundle.indexes.map indexStatement)) >>=
          measureCandidate sandbox.policy databaseBytes request) := by
  have runs : evaluateRequest sandbox.policy databaseBytes
      ⟨sandbox.inspection position, measure position⟩ request =
        outside (measure position (request.bundle.indexes.map indexStatement)) >>=
          measureCandidate sandbox.policy databaseBytes request := by
    unfold evaluateRequest
    dsimp only
    rw [h.inspected, compileIndexes_eq]
    rfl
  unfold Sandbox.run executeRequest
  rw [present]
  dsimp only
  rw [h.admitted]
  dsimp only
  rw [runs]

/-- Two requests behind the checks whose bundles compile alike have results
that agree. -/
theorem agree_run (passes : Passes sandbox position database request)
    (passes' : Passes sandbox position database request')
    (trials : request.trialCount = request'.trialCount)
    (compiled : compileIndexes request.bundle.indexes = compileIndexes request'.bundle.indexes) :
    Agree (sandbox.run measure position database request)
      (sandbox.run measure position database request') := by
  obtain ⟨databaseBytes, present⟩ := passes.present
  have names := map_validatorIndexName compiled
  rw [compileIndexes_eq, compileIndexes_eq] at compiled
  rw [run_of_passes passes present, run_of_passes passes' present, Except.ok.inj compiled]
  cases measure position (request'.bundle.indexes.map indexStatement) with
  | error fault => exact agree_settle databaseBytes (.raised _)
  | ok m =>
    change Agree (settle request databaseBytes (measureCandidate _ databaseBytes request m))
      (settle request' databaseBytes (measureCandidate _ databaseBytes request' m))
    exact agree_settle databaseBytes (alike_measureCandidate _ databaseBytes trials names)

/-- Every result is bound to its request. -/
theorem echo_run : verifyWorkerEcho request (sandbox.run measure position database request) =
    .ok () := by
  by_cases passes : Passes sandbox position database request
  · obtain ⟨databaseBytes, present⟩ := passes.present
    rw [run_of_passes passes present]
    cases measure position (request.bundle.indexes.map indexStatement) with
    | error fault => exact echo_failure _ _ _ _
    | ok m => exact echo_settle databaseBytes (alike_measureCandidate _ _ rfl rfl)
  · obtain ⟨code, databaseBytes, left⟩ := run_of_not_passes passes
    rw [left]
    exact echo_failure _ _ _ _

end Admission

/-! A candidate whose result never equals the reference. -/
section Clash

def clashResult : Arm → CanonicalResult
  | .baseline => ⟨['b'], 0, 0, 0, []⟩
  | .candidate => ⟨['c'], 0, 0, 0, []⟩

def clash : Measurements K where
  setupMs := 0
  candidateFile := ⟨some 0, true, [], none⟩
  planRows := .ok []
  workerId := ['w']
  opens := fun _ => .ok ()
  run := fun _ arm _ => .completed (clashResult arm) 1
  setupNonnegative := no_setup
  workerIdBounds := by decide

/-- Measurements that end in a clash, or not at all. -/
def Hopeless (measure : Measure K) : Prop :=
  ∀ position statements, measure position statements = .ok clash ∨
    ∃ fault, measure position statements = .error fault

/-- Clashes on the accepted statements, and raises on the others. -/
def clashOn (accepts : List Text → Bool) : Measure K := fun _ statements =>
  if accepts statements then .ok clash else .error .rejected

theorem clashOn_eq_ok_iff (accepts : List Text → Bool) (position : Nat) (statements : List Text) :
    (clashOn accepts : Measure K) position statements = .ok clash ↔ accepts statements = true := by
  unfold clashOn
  by_cases h : accepts statements = true
  · simp [h]
  · simp [h]

theorem hopeless_clashOn (accepts : List Text → Bool) : Hopeless (clashOn accepts : Measure K) := by
  intro position statements
  unfold clashOn
  by_cases h : accepts statements = true
  · exact .inl (if_pos h)
  · exact .inr ⟨.rejected, if_neg h⟩

variable [IsStrictOrderedRing K]

theorem runTrial_clash (s : LoopState K) (item : ExecutionOrder × Nat) :
    runTrial clash s item =
      .error (.mismatch (clashResult .baseline) (clashResult .candidate) s.trials) := by
  obtain ⟨order, index⟩ := item
  cases order
  · rfl
  · rfl

theorem balancedInterleaveOrders_ok {trialCount : Nat} (enough : 6 ≤ trialCount)
    (even : trialCount % 2 = 0) :
    ∃ orders, balancedInterleaveOrders trialCount = .ok orders ∧ orders ≠ [] := by
  have bounds : ¬ (trialCount < 6 ∨ trialCount % 2 ≠ 0) := by omega
  unfold balancedInterleaveOrders
  rw [if_neg bounds]
  refine Fallible.ok_ite ⟨_, rfl, by simp⟩ fun _ => ⟨_, rfl, ?_⟩
  refine List.ne_nil_of_length_pos ?_
  rw [List.length_map, List.length_range]
  omega

theorem runTrials_clash {orders : List ExecutionOrder} (nonempty : orders ≠ []) :
    runTrials (clash : Measurements K) orders =
      .error (.mismatch (clashResult .baseline) (clashResult .candidate) []) := by
  obtain ⟨order, rest, rfl⟩ := List.exists_cons_of_ne_nil nonempty
  rw [runTrials, List.zipIdx_cons, List.foldlM_cons, runTrial_clash]
  rfl

/-- Such a candidate is compliant and incorrect, whatever the request. -/
def clashVerdict (request : SandboxRequestV2 K) (setup : Setup) : SandboxResultV2 K :=
  verdict request clash setup (some .resultMismatch) (clashResult .baseline)
    (some (clashResult .candidate)) []

theorem measureTrials_clash (request : SandboxRequestV2 K) (setup : Setup) :
    measureTrials request clash setup = .ok (clashVerdict request setup) := by
  obtain ⟨orders, horders, nonempty⟩ :=
    balancedInterleaveOrders_ok request.trialBounds.1 request.balancedTrials
  unfold measureTrials
  rw [horders]
  change afterTrials request clash _ (runTrials clash orders) = _
  rw [runTrials_clash nonempty]
  rfl

theorem measureCandidate_clash (policy : SandboxPolicy K) (databaseBytes : Nat)
    (request : SandboxRequestV2 K) :
    ∃ setup, measureCandidate policy databaseBytes request clash =
      .ok (clashVerdict request setup) := by
  have present : safeDatabaseSize policy (clash : Measurements K).candidateFile = .ok 0 := by
    simp [safeDatabaseSize, clash]
  unfold measureCandidate
  rw [present]
  exact ⟨_, measureTrials_clash request
    ⟨databaseBytes, 0 - databaseBytes, [], usedIndexNames request.bundle.indexes []⟩⟩

variable {sandbox : Sandbox K} {measure : Measure K} {position : Nat} {database : DatabaseFile}
  {request : SandboxRequestV2 K}

/-- No result is correct, and the compliant ones have passed the checks and clashed. -/
theorem run_hopeless (hopeless : Hopeless measure) :
    (sandbox.run measure position database request).correct = false ∧
      ((sandbox.run measure position database request).compliant = true ↔
        Passes sandbox position database request ∧
          measure position (request.bundle.indexes.map indexStatement) = .ok clash) := by
  let statements := request.bundle.indexes.map indexStatement
  by_cases passes : Passes sandbox position database request
  · obtain ⟨databaseBytes, present⟩ := passes.present
    rw [run_of_passes passes present]
    rcases hopeless position statements with clashes | ⟨fault, raised⟩
    · obtain ⟨setup, hclash⟩ := measureCandidate_clash sandbox.policy databaseBytes request
      have runs : outside (measure position statements) >>=
          measureCandidate sandbox.policy databaseBytes request =
            .ok (clashVerdict request setup) := by
        rw [clashes]
        exact hclash
      rw [runs]
      exact ⟨rfl, fun _ => ⟨passes, clashes⟩, fun _ => rfl⟩
    · have runs : outside (measure position statements) >>=
          measureCandidate sandbox.policy databaseBytes request = .error (none, fault) := by
        rw [raised]
        rfl
      rw [runs]
      refine ⟨rfl, fun compliant => ?_, fun h => ?_⟩
      · cases compliant
      · rw [raised] at h
        cases h.2
  · obtain ⟨code, databaseBytes, left⟩ := run_of_not_passes passes
    rw [left]
    refine ⟨rfl, fun compliant => ?_, fun h => absurd h.1 passes⟩
    cases compliant

end Clash

end SandboxRuns
