import PlanRace.WeightPlanning

/-!
# Authorized weight submissions

A saved plan is submitted after its digest was authorized, its signer was bound
and a fresh plan of the same chain state confirmed it.
-/

namespace TestnetSubmission

open JsonText PythonObjects ChainReplies WeightConformity Fallible TestnetWeights

def walletAlias : Text := "planrace-testnet".toList

def validatorPrefix : Text := "validator-".toList

section Confirmation

variable {K : Type}

/-- `_target_fingerprint`, of one target: its identity and its values. -/
def fingerprint (target : WeightTarget K) :
    (Text × Int) × (Number K × Number K × Number K) × Int :=
  ((target.hotkeySs58, target.uid), (target.score, target.plannedWeight, target.weight),
    target.u16Weight)

def targetFingerprint (targets : List (WeightTarget K)) :
    List ((Text × Int) × (Number K × Number K × Number K) × Int) :=
  targets.map fingerprint

/-- The fields that `invariant_fields` names. -/
structure InvariantFields (K : Type) where
  endpoint : Text
  sdkVersion : Text
  network : Text
  netuid : Int
  runtimeSpecVersion : Option Int
  validatorHotkeySs58 : Text
  minAllowedWeights : Option Int
  maxWeightsLimit : Option Int
  weightsRateLimit : Option Int
  commitRevealWeightsEnabled : Option Bool
  commitRevealPeriod : Option Int
  weightsWereClipped : Bool
  currentReadback : WeightReadback K
deriving DecidableEq

def invariantFields (report : TestnetWeightPlanReport K) : InvariantFields K where
  endpoint := report.endpoint
  sdkVersion := report.sdkVersion
  network := report.network
  netuid := report.netuid
  runtimeSpecVersion := report.runtimeSpecVersion
  validatorHotkeySs58 := report.validatorHotkeySs58
  minAllowedWeights := report.minAllowedWeights
  maxWeightsLimit := report.maxWeightsLimit
  weightsRateLimit := report.weightsRateLimit
  commitRevealWeightsEnabled := report.commitRevealWeightsEnabled
  commitRevealPeriod := report.commitRevealPeriod
  weightsWereClipped := report.weightsWereClipped
  currentReadback := report.currentReadback

variable [DecidableEq K]

/-- The blocks of both plans. -/
def planBlocks (source fresh : TestnetWeightPlanReport K) : Except Raised (Int × Int) :=
  match source.block, fresh.block with
  | some sourceBlock, some freshBlock => .ok (sourceBlock, freshBlock)
  | _, _ => .error (.valueError "weight plan has no chain block".toList)

/-- `_require_fresh_equivalent_plan`. -/
def requireFreshEquivalentPlan (source fresh : TestnetWeightPlanReport K)
    (maxPlanAgeBlocks : Int) : Except Raised PUnit := do
  require (fresh.readyForAuthorizedSubmission = true ∧ fresh.errors = [])
    (.valueError "fresh testnet plan did not pass every pre-signing gate".toList)
  let blocks ← planBlocks source fresh
  let age := blocks.2 - blocks.1
  require (0 ≤ age ∧ age ≤ maxPlanAgeBlocks)
    (.valueError ("weight plan is stale by ".toList ++ intText age ++
      " blocks; create and authorize a fresh plan".toList))
  require (invariantFields source = invariantFields fresh)
    (.valueError "testnet state changed after the authorized plan was created".toList)
  require (targetFingerprint source.targets = targetFingerprint fresh.targets)
    (.valueError
      "testnet UID bindings or conformed weights changed after authorization".toList)

/-- Everything that `_require_fresh_equivalent_plan` compares. -/
structure Confirms (source fresh : TestnetWeightPlanReport K) (maxPlanAgeBlocks : Int) : Prop where
  ready : fresh.readyForAuthorizedSubmission = true
  errors : fresh.errors = []
  age : ∃ sourceBlock freshBlock, source.block = some sourceBlock ∧ fresh.block = some freshBlock ∧
    sourceBlock ≤ freshBlock ∧ freshBlock - sourceBlock ≤ maxPlanAgeBlocks
  fields : invariantFields source = invariantFields fresh
  targets : source.targets = fresh.targets

omit [DecidableEq K] in
theorem targetFingerprint_injective {xs ys : List (WeightTarget K)}
    (h : targetFingerprint xs = targetFingerprint ys) : xs = ys := by
  refine List.map_injective_iff.mpr ?_ h
  rintro ⟨⟩ ⟨⟩ same
  cases same
  rfl

theorem requireFreshEquivalentPlan_ok_iff {source fresh : TestnetWeightPlanReport K}
    {maxPlanAgeBlocks : Int} :
    requireFreshEquivalentPlan source fresh maxPlanAgeBlocks = .ok ⟨⟩ ↔
      Confirms source fresh maxPlanAgeBlocks := by
  constructor
  · intro h
    obtain ⟨_, ready, h⟩ := bind_ok h
    obtain ⟨⟨sourceBlock, freshBlock⟩, blocks, h⟩ := bind_ok h
    obtain ⟨_, age, h⟩ := bind_ok h
    obtain ⟨_, fields, h⟩ := bind_ok h
    obtain ⟨isReady, errors⟩ := require_ok_iff.mp ready
    have bounds := require_ok_iff.mp age
    refine ⟨isReady, errors, ?_, require_ok_iff.mp fields,
      targetFingerprint_injective (require_ok_iff.mp h)⟩
    unfold planBlocks at blocks
    split at blocks
    next hs hf =>
      cases blocks
      exact ⟨_, _, hs, hf, by omega, bounds.2⟩
    next => cases blocks
  · rintro ⟨ready, errors, ⟨s, f, hs, hf, later, age⟩, fields, targets⟩
    simp only [requireFreshEquivalentPlan, planBlocks, hs, hf, bind_ok_iff, require_ok_iff]
    exact ⟨⟨⟩, ⟨ready, errors⟩, (s, f), rfl, ⟨⟩, ⟨by omega, age⟩, ⟨⟩, fields,
      congrArg targetFingerprint targets⟩

end Confirmation

section Submission

/-- A wallet, by the reading of its public hotkey. -/
structure SigningWallet where
  /-- `wallet.hotkeypub.ss58_address`. -/
  hotkeySs58 : Except Raised Text

/-- What the SDK reports of a submission; every attribute may raise. -/
structure ExtrinsicResult (V : Type) where
  success : Except Raised Bool
  /-- `result.data.get("reveal_round")`. -/
  revealRound : Except Raised (Option V)
  blockHash : Except Raised (Option Text)
  extrinsicId : Except Raised (Option Text)
  explorerUrl : Except Raised (Option Text)
  /-- `_fee_tao(result.fee)`. -/
  feeTao : Except Raised (Option Text)

/-- The arguments of the submitter. -/
structure Invocation where
  netuid : Int
  weights : List (Int × Int)
  wallet : SigningWallet

structure SubmittedTarget where
  hotkeySs58 : Text
  uid : Int
  u16Weight : Int
deriving DecidableEq

structure TestnetWeightSubmissionReceipt where
  schemaVersion : Text := "planrace/testnet-weight-submission/1".toList
  network : Text := "test".toList
  endpoint : Text := testnetEndpoint
  sdkVersion : Text
  sourcePlanDigest : Text
  sourceBlock : Option Int
  preSubmitBlock : Int
  preSubmitBlockHash : Text
  runtimeSpecVersion : Int
  netuid : Int
  validatorHotkeySs58 : Text
  walletAlias : Text
  hotkeyAlias : Text
  submittedTargets : List SubmittedTarget
  transactionConstructed : Bool := true
  signatureRequested : Bool := true
  sdkReportedSuccess : Bool
  includingBlockHash : Option Text
  extrinsicId : Option Text
  explorerUrl : Option Text
  feeTao : Option Text
  revealRound : Option Int
  submittedAt : Text
  requiresDelayedReadback : Bool
  evidenceComplete : Bool := false
  nextAction : Text
deriving DecidableEq

/-- The arguments of a call and what surrounds it. -/
structure Submission (K V : Type) where
  source : TestnetWeightPlanReport K
  authorizePlanDigest : Text
  hotkeyAlias : Text
  walletAlias : Text
  maxPlanAgeBlocks : Int
  /-- `plan_collector(netuid=…, validator_hotkey_ss58=…, score_specs=…,
  minimum_positive_hotkeys=…)`. -/
  planCollector : Int → Text → List Text → Int → Except Raised (TestnetWeightPlanReport K)
  walletFactory : Text → Text → Except Raised SigningWallet
  submitter : Invocation → Except Raised (ExtrinsicResult V)
  /-- `clock().astimezone(UTC).isoformat()`. -/
  clock : Except Raised Text

/-- What the checks before the submission establish. -/
structure Prepared (K : Type) where
  digest : Text
  wallet : SigningWallet
  fresh : TestnetWeightPlanReport K
  preSubmitBlock : Int
  preSubmitBlockHash : Text
  runtimeSpecVersion : Int

variable {K V : Type} [Field K] [LinearOrder K]

def scoreSpec (floats : FloatText K) (target : WeightTarget K) : Text :=
  target.hotkeySs58 ++ '=' :: floats.repr target.score

/-- Whether an alias names a validator; `isDigit` is `str.isdigit` of a character. -/
def isValidatorAlias (isDigit : Char → Bool) (hotkeyAlias : Text) : Bool :=
  validatorPrefix.isPrefixOf hotkeyAlias && !(hotkeyAlias.drop 10).isEmpty &&
    (hotkeyAlias.drop 10).all isDigit

/-- The coordinates of a fresh plan. -/
def freshCoordinates (fresh : TestnetWeightPlanReport K) : Except Raised (Int × Text × Int) :=
  match fresh.block, fresh.blockHash, fresh.runtimeSpecVersion with
  | some block, some blockHash, some runtimeSpecVersion => .ok (block, blockHash, runtimeSpecVersion)
  | _, _, _ => .error (.valueError "fresh weight plan has incomplete chain coordinates".toList)

/-- `submit_testnet_weight_plan`, before it invokes the submitter. -/
def prepareSubmission [Rounding K] (floats : FloatText K) (isDigit : Char → Bool) (call : Submission K V) :
    Except Raised (Prepared K) := do
  let digest ← validatedPlanDigest floats call.source
  require (call.authorizePlanDigest = digest)
    (.valueError "authorized digest does not match the saved weight plan".toList)
  require (call.walletAlias = walletAlias)
    (.valueError "wallet alias must be exactly 'planrace-testnet'".toList)
  require (isValidatorAlias isDigit call.hotkeyAlias = true)
    (.valueError "hotkey alias must be a named PlanRace validator".toList)
  require (1 ≤ call.maxPlanAgeBlocks ∧ call.maxPlanAgeBlocks ≤ 24)
    (.valueError "max plan age must be between 1 and 24 blocks".toList)
  let wallet ← call.walletFactory call.walletAlias call.hotkeyAlias
  let address ← wallet.hotkeySs58
  require (address = call.source.validatorHotkeySs58)
    (.valueError "local signing hotkey does not match the authorized validator".toList)
  let fresh ← call.planCollector call.source.netuid call.source.validatorHotkeySs58
    (call.source.targets.map (scoreSpec floats)) 1
  requireFreshEquivalentPlan call.source fresh call.maxPlanAgeBlocks
  let (block, blockHash, runtimeSpecVersion) ← freshCoordinates fresh
  return ⟨digest, wallet, fresh, block, blockHash, runtimeSpecVersion⟩

/-- `{target.uid: target.u16_weight for target in targets}`. -/
def weightsByUid (targets : List (WeightTarget K)) : List (Int × Int) :=
  Dict.update [] (targets.map fun target => (target.uid, target.u16Weight))

variable [PythonObject V]

/-- `int(reveal_round_raw) if reveal_round_raw is not None else None`. -/
def revealRoundOf : Option V → Except Raised (Option Int)
  | none => .ok none
  | some raw => do
    if PythonObject.isNone raw then return none
    else
      let round ← PythonObject.int raw
      return some round

/-- The receipt of a successful submission. -/
def receiptOf (call : Submission K V) (prepared : Prepared K) (result : ExtrinsicResult V) :
    Except Raised TestnetWeightSubmissionReceipt := do
  let success ← result.success
  require (success = true)
    (.runtimeError "Bittensor SDK reported an unsuccessful testnet submission".toList)
  let revealRound ← revealRoundOf (← result.revealRound)
  let blockHash ← result.blockHash
  let extrinsicId ← result.extrinsicId
  let explorerUrl ← result.explorerUrl
  let feeTao ← result.feeTao
  let submittedAt ← call.clock
  return {
    sdkVersion := call.source.sdkVersion
    sourcePlanDigest := prepared.digest
    sourceBlock := call.source.block
    preSubmitBlock := prepared.preSubmitBlock
    preSubmitBlockHash := prepared.preSubmitBlockHash
    runtimeSpecVersion := prepared.runtimeSpecVersion
    netuid := call.source.netuid
    validatorHotkeySs58 := call.source.validatorHotkeySs58
    walletAlias := call.walletAlias
    hotkeyAlias := call.hotkeyAlias
    submittedTargets := call.source.targets.map fun target =>
      ⟨target.hotkeySs58, target.uid, target.u16Weight⟩
    sdkReportedSuccess := true
    includingBlockHash := blockHash
    extrinsicId := extrinsicId
    explorerUrl := explorerUrl
    feeTao := feeTao
    revealRound := revealRound
    submittedAt := submittedAt
    requiresDelayedReadback := revealRound.isSome
    nextAction :=
      if revealRound.isSome then
        "Wait for the timelock reveal round, then verify a later metagraph readback.".toList
      else "Verify a later metagraph readback and bind it to this receipt.".toList }

/-- `submit_testnet_weight_plan`: the invocations of the submitter that a call
makes, and what it returns. -/
def submitTestnetWeightPlan [Rounding K] (floats : FloatText K) (isDigit : Char → Bool)
    (call : Submission K V) : List Invocation × Except Raised TestnetWeightSubmissionReceipt :=
  match prepareSubmission floats isDigit call with
  | .error e => ([], .error e)
  | .ok prepared =>
    let invocation : Invocation :=
      ⟨call.source.netuid, weightsByUid call.source.targets, prepared.wallet⟩
    ([invocation], do
      let result ← call.submitter invocation
      receiptOf call prepared result)

end Submission

end TestnetSubmission
