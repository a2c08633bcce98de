import PlanRace.IndexAst

/-!
# Tasks, reveals, requests and responses

The remaining wire models of the v2 protocol. The validators of a model are
fields of its structure, defaults are fields' default values, and every model
has a dump that identifies it.
-/

namespace TaskModels

open JsonText ByteStrings LexOrder CanonicalJson WireText IndexAst

inductive ValueType where
  | integer
  | text
  | boolean
deriving DecidableEq

def ValueType.name : ValueType → Text
  | integer => "integer".toList
  | text => "text".toList
  | boolean => "boolean".toList

theorem ValueType.name_injective : Function.Injective ValueType.name := by
  intro a b he
  cases a <;> cases b <;> first | rfl | exact absurd he (by decide)

instance : WireModel ValueType := .ofText ValueType.name ValueType.name_injective

inductive RangeEndpoint where
  | integer (value : Int)
  | text (value : Text)
  | boolean (value : Bool)
deriving DecidableEq

namespace RangeEndpoint

/-- `type(endpoint)`. -/
def valueType : RangeEndpoint → ValueType
  | integer _ => .integer
  | text _ => .text
  | boolean _ => .boolean

/-- `minimum > maximum`; strings are compared by code points. -/
def exceeds : RangeEndpoint → RangeEndpoint → Bool
  | integer a, integer b => decide (a > b)
  | text a, text b => !lexLe Char.toNat a b
  | _, _ => false

instance : WireModel RangeEndpoint where
  modelDump
    | integer v => .int v
    | text v => .str v
    | boolean v => .bool v
  modelDump_inj := by
    intro x y h
    cases x <;> cases y <;> cases h <;> rfl

end RangeEndpoint

inductive Distribution where
  | uniform
  | logUniform
  | categorical
  | boundaryWeighted
  | orderedUniformPairLow
  | orderedUniformPairHigh
deriving DecidableEq

def Distribution.text : Distribution → Text
  | uniform => "uniform".toList
  | logUniform => "log_uniform".toList
  | categorical => "categorical".toList
  | boundaryWeighted => "boundary_weighted".toList
  | orderedUniformPairLow => "ordered_uniform_pair_low".toList
  | orderedUniformPairHigh => "ordered_uniform_pair_high".toList

theorem Distribution.text_injective : Function.Injective Distribution.text := by
  intro a b he
  cases a <;> cases b <;> first | rfl | exact absurd he (by decide)

instance : WireModel Distribution := .ofText Distribution.text Distribution.text_injective

structure ParameterRange where
  name : SafeIdentifier
  valueType : ValueType
  minimum : RangeEndpoint
  maximum : RangeEndpoint
  distribution : Distribution
  /-- Endpoints match `value_type`. -/
  endpointTypes : minimum.valueType = valueType ∧ maximum.valueType = valueType
  /-- `exceeds` is false on two booleans, which the source does not compare. -/
  ordered : minimum.exceeds maximum = false
deriving DecidableEq

instance : WireModel ParameterRange where
  modelDump r := .obj [("name".toList, modelDump r.name),
    ("value_type".toList, modelDump r.valueType), ("minimum".toList, modelDump r.minimum),
    ("maximum".toList, modelDump r.maximum), ("distribution".toList, modelDump r.distribution)]
  modelDump_inj := by
    intro x y h
    have hvalues := values_of_same h rfl (of_decide_eq_true rfl)
    obtain ⟨_, _, _, _, _, _, _⟩ := x
    obtain ⟨_, _, _, _, _, _, _⟩ := y
    simpa using hvalues

inductive DataProfile where
  | uniform
  | skewed
  | correlated
  | nullHeavy
  | duplicateHeavy
deriving DecidableEq

def DataProfile.text : DataProfile → Text
  | uniform => "uniform".toList
  | skewed => "skewed".toList
  | correlated => "correlated".toList
  | nullHeavy => "null_heavy".toList
  | duplicateHeavy => "duplicate_heavy".toList

theorem DataProfile.text_injective : Function.Injective DataProfile.text := by
  intro a b he
  cases a <;> cases b <;> first | rfl | exact absurd he (by decide)

instance : WireModel DataProfile := .ofText DataProfile.text DataProfile.text_injective

structure PublishedStatistics where
  rowCountMin : Nat
  rowCountMax : Nat
  selectivityMinBps : Nat
  selectivityMaxBps : Nat
  dataProfiles : List DataProfile
  bpsBounds : selectivityMinBps ≤ 10000 ∧ selectivityMaxBps ≤ 10000
  profileBound : 1 ≤ dataProfiles.length
  /-- Row count and selectivity bounds are not inverted. -/
  validateBounds : rowCountMin ≤ rowCountMax ∧ selectivityMinBps ≤ selectivityMaxBps
deriving DecidableEq

instance : WireModel PublishedStatistics where
  modelDump s := .obj [("row_count_min".toList, modelDump s.rowCountMin),
    ("row_count_max".toList, modelDump s.rowCountMax),
    ("selectivity_min_bps".toList, modelDump s.selectivityMinBps),
    ("selectivity_max_bps".toList, modelDump s.selectivityMaxBps),
    ("data_profiles".toList, modelDump s.dataProfiles)]
  modelDump_inj := by
    intro x y h
    have hvalues := values_of_same h rfl (of_decide_eq_true rfl)
    obtain ⟨_, _, _, _, _, _, _, _⟩ := x
    obtain ⟨_, _, _, _, _, _, _, _⟩ := y
    simpa using hvalues

structure PublicTrainingFixture where
  fixtureId : SafeIdentifier
  generatorSeedHex : Hex32Bytes
  contentDigest : Sha256Digest
  rowCount : Nat
deriving DecidableEq

instance : WireModel PublicTrainingFixture where
  modelDump f := .obj [("fixture_id".toList, modelDump f.fixtureId),
    ("generator_seed_hex".toList, modelDump f.generatorSeedHex),
    ("content_digest".toList, modelDump f.contentDigest),
    ("row_count".toList, modelDump f.rowCount)]
  modelDump_inj := by
    intro x y h
    have hvalues := values_of_same h rfl (of_decide_eq_true rfl)
    obtain ⟨_, _, _, _⟩ := x
    obtain ⟨_, _, _, _⟩ := y
    simpa using hvalues

structure ArtifactBudget where
  maxIndexes : Nat := 4
  maxColumnsPerIndex : Nat := 8
  maxPredicatesPerIndex : Nat := 8
  maxBundleBytes : Nat := 65536
  indexesBound : maxIndexes ≤ 4
  columnsBound : 1 ≤ maxColumnsPerIndex ∧ maxColumnsPerIndex ≤ 8
  predicatesBound : maxPredicatesPerIndex ≤ 8
  bytesBound : 1024 ≤ maxBundleBytes ∧ maxBundleBytes ≤ 65536
deriving DecidableEq

/-- `ArtifactBudget()`: the defaults pass their own bounds. -/
def ArtifactBudget.default : ArtifactBudget where
  indexesBound := by decide
  columnsBound := by decide
  predicatesBound := by decide
  bytesBound := by decide

instance : WireModel ArtifactBudget where
  modelDump b := .obj [("max_indexes".toList, modelDump b.maxIndexes),
    ("max_columns_per_index".toList, modelDump b.maxColumnsPerIndex),
    ("max_predicates_per_index".toList, modelDump b.maxPredicatesPerIndex),
    ("max_bundle_bytes".toList, modelDump b.maxBundleBytes)]
  modelDump_inj := by
    intro x y h
    have hvalues := values_of_same h rfl (of_decide_eq_true rfl)
    obtain ⟨_, _, _, _, _, _, _, _⟩ := x
    obtain ⟨_, _, _, _, _, _, _, _⟩ := y
    simpa using hvalues

/-- `artifact_type`, `allows_raw_sql` and `miner_controls_index_name` have one value each. -/
structure ArtifactGrammar where
  allowedPredicateOperators : List PredicateOperator := PredicateOperator.all
  allowsUnique : Bool := true
  allowsPartial : Bool := true
deriving DecidableEq

def artifactType : Text := "structured-index-spec-v1".toList

instance : WireModel ArtifactGrammar where
  modelDump g := .obj [("artifact_type".toList, .str artifactType),
    ("allowed_predicate_operators".toList, modelDump g.allowedPredicateOperators),
    ("allows_unique".toList, modelDump g.allowsUnique),
    ("allows_partial".toList, modelDump g.allowsPartial),
    ("allows_raw_sql".toList, .bool false),
    ("miner_controls_index_name".toList, .bool false)]
  modelDump_inj := by
    intro x y h
    have hvalues := values_of_same h rfl (of_decide_eq_true rfl)
    obtain ⟨_, _, _⟩ := x
    obtain ⟨_, _, _⟩ := y
    simpa using hvalues

/-- Public task contents; private seeds and holdout roots never appear here. -/
structure PublicTaskV2 where
  taskId : OpaqueId
  validatorHotkey : Hotkey
  engineImageDigest : Sha256Digest
  generatorSourceDigest : Sha256Digest
  benchmarkPolicyDigest : Sha256Digest
  benchmarkFamilyId : BenchmarkFamilyId
  schemaSql : SqlTextV2
  referenceSql : SqlTextV2
  publicTrainingFixture : PublicTrainingFixture
  parameterRanges : List ParameterRange
  publishedStatistics : PublishedStatistics
  artifactBudget : ArtifactBudget
  artifactGrammar : ArtifactGrammar
  hiddenHoldoutCount : Nat
  commitment : Sha256Digest
  deadlineUnixMs : Nat
  rangeBound : 1 ≤ parameterRanges.length
  holdoutBounds : 2 ≤ hiddenHoldoutCount ∧ hiddenHoldoutCount ≤ 64
  deadlinePositive : 0 < deadlineUnixMs
deriving DecidableEq

instance : WireModel PublicTaskV2 where
  modelDump t := .obj [("protocol_version".toList, .str protocolVersionV2),
    ("task_id".toList, modelDump t.taskId),
    ("validator_hotkey".toList, modelDump t.validatorHotkey),
    ("engine_image_digest".toList, modelDump t.engineImageDigest),
    ("generator_source_digest".toList, modelDump t.generatorSourceDigest),
    ("benchmark_policy_digest".toList, modelDump t.benchmarkPolicyDigest),
    ("benchmark_family_id".toList, modelDump t.benchmarkFamilyId),
    ("schema_sql".toList, modelDump t.schemaSql),
    ("reference_sql".toList, modelDump t.referenceSql),
    ("public_training_fixture".toList, modelDump t.publicTrainingFixture),
    ("parameter_ranges".toList, modelDump t.parameterRanges),
    ("published_statistics".toList, modelDump t.publishedStatistics),
    ("artifact_budget".toList, modelDump t.artifactBudget),
    ("artifact_grammar".toList, modelDump t.artifactGrammar),
    ("hidden_holdout_count".toList, modelDump t.hiddenHoldoutCount),
    ("commitment".toList, modelDump t.commitment),
    ("deadline_unix_ms".toList, modelDump t.deadlineUnixMs)]
  modelDump_inj := by
    intro x y h
    have hvalues := values_of_same h rfl (of_decide_eq_true rfl)
    cases x
    cases y
    simpa using hvalues

structure HiddenFixtureDescriptor where
  fixtureId : SafeIdentifier
  contentDigest : Sha256Digest
  databaseFileDigest : Option Sha256Digest := none
  parameterSetDigest : Sha256Digest
  rowCount : Nat
deriving DecidableEq

instance : WireModel HiddenFixtureDescriptor where
  modelDump f := .obj [("fixture_id".toList, modelDump f.fixtureId),
    ("content_digest".toList, modelDump f.contentDigest),
    ("database_file_digest".toList, dumpOption f.databaseFileDigest),
    ("parameter_set_digest".toList, modelDump f.parameterSetDigest),
    ("row_count".toList, modelDump f.rowCount)]
  modelDump_inj := by
    intro x y h
    have hvalues := values_of_same h rfl (of_decide_eq_true rfl)
    have hfile := dumpOption_inj (fun d => by change Json.tag (.str _) ≠ 0; simp [Json.tag])
      x.databaseFileDigest y.databaseFileDigest (by simp at hvalues; exact hvalues.2.2.1)
    obtain ⟨_, _, _, _, _⟩ := x
    obtain ⟨_, _, _, _, _⟩ := y
    simp_all

structure TaskRevealV2 where
  taskId : OpaqueId
  secretSeedHex : Hex32Bytes
  saltHex : Hex32Bytes
  hiddenFixtures : List HiddenFixtureDescriptor
  hiddenFixtureMerkleRoot : Sha256Digest
  fixtureBounds : 2 ≤ hiddenFixtures.length ∧ hiddenFixtures.length ≤ 64
deriving DecidableEq

structure OptimizationRequestV2 where
  requestId : OpaqueId
  task : PublicTaskV2
  validatorHotkey : Hotkey
  minerHotkey : Hotkey
  requestNonce : Nat
  issuedAtUnixMs : Nat
  expiresAtUnixMs : Nat
  timesPositive : 0 < issuedAtUnixMs ∧ 0 < expiresAtUnixMs
  /-- The request's validator owns the task. -/
  ownsTask : validatorHotkey = task.validatorHotkey
  /-- Expiry follows issue time. -/
  expiryFollowsIssue : issuedAtUnixMs < expiresAtUnixMs
deriving DecidableEq

instance : WireModel OptimizationRequestV2 where
  modelDump r := .obj [("protocol_version".toList, .str protocolVersionV2),
    ("request_id".toList, modelDump r.requestId), ("task".toList, modelDump r.task),
    ("validator_hotkey".toList, modelDump r.validatorHotkey),
    ("miner_hotkey".toList, modelDump r.minerHotkey),
    ("request_nonce".toList, modelDump r.requestNonce),
    ("issued_at_unix_ms".toList, modelDump r.issuedAtUnixMs),
    ("expires_at_unix_ms".toList, modelDump r.expiresAtUnixMs)]
  modelDump_inj := by
    intro x y h
    have hvalues := values_of_same h rfl (of_decide_eq_true rfl)
    cases x
    cases y
    simpa using hvalues

def requestDomainV2 : Domain :=
  ⟨"planrace/2:optimization-request".toList, by decide +kernel, by decide +kernel,
    by decide +kernel⟩

def optimizationRequestDigest (request : OptimizationRequestV2) : Text :=
  domainSeparatedDigest requestDomainV2 (modelDump request)

structure SignedOptimizationResponse where
  requestId : OpaqueId
  taskId : OpaqueId
  requestDigest : Sha256Digest
  validatorHotkey : Hotkey
  minerHotkey : Hotkey
  requestNonce : Nat
  issuedAtUnixMs : Nat
  expiresAtUnixMs : Nat
  artifactDigest : Sha256Digest
  artifact : OptimizationBundle
  signature : SignatureHex
  timesPositive : 0 < issuedAtUnixMs ∧ 0 < expiresAtUnixMs
  /-- Task and artifact digest are those of the artifact. -/
  artifactLinks : taskId = artifact.taskId ∧ artifactDigest = artifact.artifactDigest
  /-- Expiry follows issue time. -/
  expiryFollowsIssue : issuedAtUnixMs < expiresAtUnixMs
deriving DecidableEq

/-- `response.model_dump(mode="json", exclude={"signature"})`. -/
def unsignedDump (r : SignedOptimizationResponse) : Json :=
  .obj [("protocol_version".toList, .str protocolVersionV2),
    ("request_id".toList, modelDump r.requestId), ("task_id".toList, modelDump r.taskId),
    ("request_digest".toList, modelDump r.requestDigest),
    ("validator_hotkey".toList, modelDump r.validatorHotkey),
    ("miner_hotkey".toList, modelDump r.minerHotkey),
    ("request_nonce".toList, modelDump r.requestNonce),
    ("issued_at_unix_ms".toList, modelDump r.issuedAtUnixMs),
    ("expires_at_unix_ms".toList, modelDump r.expiresAtUnixMs),
    ("artifact_digest".toList, modelDump r.artifactDigest),
    ("artifact".toList, modelDump r.artifact)]

def responseDomainV2 : Domain :=
  ⟨"planrace/2:optimization-response".toList, by decide +kernel, by decide +kernel,
    by decide +kernel⟩

/-- The bytes a miner signs. -/
def optimizationResponseSigningBytes (response : SignedOptimizationResponse) : Bytes :=
  hashInput responseDomainV2 (unsignedDump response)

/-- The signed bytes determine every field but the signature. -/
theorem optimizationResponseSigningBytes_binds {x y : SignedOptimizationResponse}
    (he : optimizationResponseSigningBytes x = optimizationResponseSigningBytes y)
    (hsignature : x.signature = y.signature) : x = y := by
  have hsame := ((hashInput_eq_iff _ _ _ _).mp he).2
  have hvalues := values_of_same hsame rfl (of_decide_eq_true rfl)
  cases x
  cases y
  simp_all

/-! A smallest valid task, request and artifact, for concrete runs. -/
namespace Sample

def digest : Sha256Digest := ⟨digestText [], isSha256Digest_digestText []⟩

theorem isHex_replicate : hexOfLength 32 (List.replicate 32 'a') = true := by decide

def opaqueId : OpaqueId := ⟨List.replicate 32 'a', isHex_replicate⟩

def hex32 (digit : Char) (isHex : isHexDigit digit = true) : Hex32Bytes :=
  ⟨List.replicate 64 digit, by simp [hexOfLength, isHex]⟩

def validatorHotkey : Hotkey := ⟨List.replicate 48 'V', by decide⟩

def minerHotkey : Hotkey := ⟨List.replicate 48 'M', by decide⟩

theorem events_isSafe : isSafeIdentifier "events".toList = true := by decide

def events : SafeIdentifier := ⟨"events".toList, events_isSafe⟩

def referenceSql : SqlTextV2 := ⟨"SELECT 1".toList, by decide⟩

def parameterRange : ParameterRange :=
  ⟨events, .integer, .integer 0, .integer 9, .uniform, by decide, by decide⟩

def statistics : PublishedStatistics :=
  ⟨0, 9, 0, 10000, [.uniform], by decide, by decide, by decide⟩

def task : PublicTaskV2 where
  taskId := opaqueId
  validatorHotkey := validatorHotkey
  engineImageDigest := digest
  generatorSourceDigest := digest
  benchmarkPolicyDigest := digest
  benchmarkFamilyId := ⟨"custom".toList, by decide⟩
  schemaSql := referenceSql
  referenceSql := referenceSql
  publicTrainingFixture := ⟨events, hex32 'a' rfl, digest, 9⟩
  parameterRanges := [parameterRange]
  publishedStatistics := statistics
  artifactBudget := .default
  artifactGrammar := {}
  hiddenHoldoutCount := 2
  commitment := digest
  deadlineUnixMs := 3000
  rangeBound := by decide
  holdoutBounds := by decide
  deadlinePositive := by decide

def request : OptimizationRequestV2 where
  requestId := opaqueId
  task := task
  validatorHotkey := validatorHotkey
  minerHotkey := minerHotkey
  requestNonce := 0
  issuedAtUnixMs := 1000
  expiresAtUnixMs := 2000
  timesPositive := by decide
  ownsTask := rfl
  expiryFollowsIssue := by decide

def metadata : BundleMetadata :=
  ⟨"baseline".toList, .noIndex, [], by decide, rationaleBound_nil⟩

def artifact : OptimizationBundle := .create opaqueId digest [] metadata (by decide)

theorem artifact_ofTask : request.task.taskId = artifact.taskId := rfl

theorem lifetime : ((0 : Nat) < 1000 ∧ (0 : Nat) < 2000) ∧ (1000 : Nat) < 2000 := by decide

end Sample

end TaskModels
