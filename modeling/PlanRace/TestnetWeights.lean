import PlanRace.CanonicalJson
import PlanRace.ChainReplies
import PlanRace.Library.AsciiJson
import PlanRace.Library.Dict
import PlanRace.WeightConformity

/-!
# Weight plans for the testnet

Scores and one pinned snapshot of the chain become a report that says whether
the weights may be submitted, with a digest to authorize. A saved report is
checked again before it is used.
-/

namespace TestnetWeights

open JsonText LexOrder ByteStrings Sha256 CanonicalJson AsciiJson PythonObjects ChainReplies
  WeightConformity Fallible

/-- The decimal texts of floats. -/
structure FloatText (K : Type) where
  /-- `float(text)`. -/
  parse : Text → Except Raised (Number K)
  /-- `repr(x)`. -/
  repr : Number K → Text
  /-- The text of `x` in a JSON document. -/
  json : Number K → Text

section Records

variable (K : Type)

structure WeightTarget where
  hotkeySs58 : Text
  uid : Int
  score : Number K
  plannedWeight : Number K
  weight : Number K
  u16Weight : Int
deriving DecidableEq

structure WeightReadback where
  validatorUid : Option Int
  validatorPermit : Bool
  validatorIsSubnetOwner : Bool
  weightSettingAuthorized : Bool
  lastUpdate : Option Int
  weights : List (Int × Number K)
deriving DecidableEq

structure WeightPlanGates where
  canonicalEndpoint : Bool
  snapshotPinned : Bool
  subnetExists : Bool
  validatorRegistered : Bool
  validatorAuthorized : Bool
  allTargetsRegistered : Bool
  rateLimitElapsed : Bool
  minimumRecipientsMet : Bool
  maximumWeightLimitMet : Bool
deriving DecidableEq

/-- `all(gates.model_dump().values())`. -/
def WeightPlanGates.all (gates : WeightPlanGates) : Bool :=
  gates.canonicalEndpoint && gates.snapshotPinned && gates.subnetExists &&
    gates.validatorRegistered && gates.validatorAuthorized && gates.allTargetsRegistered &&
    gates.rateLimitElapsed && gates.minimumRecipientsMet && gates.maximumWeightLimitMet

structure TestnetWeightPlanReport where
  readOnly : Bool := true
  transactionConstructed : Bool := false
  signatureRequested : Bool := false
  network : Text := "test".toList
  endpoint : Text
  sdkVersion : Text
  netuid : Int
  block : Option Int
  blockHash : Option Text
  runtimeSpecVersion : Option Int
  validatorHotkeySs58 : Text
  minAllowedWeights : Option Int
  maxWeightsLimit : Option Int
  weightsRateLimit : Option Int
  commitRevealWeightsEnabled : Option Bool
  commitRevealPeriod : Option Int
  weightsWereClipped : Bool
  targets : List (WeightTarget K)
  currentReadback : WeightReadback K
  gates : WeightPlanGates
  readyForAuthorizedSubmission : Bool
  planDigest : Option Text
  nextAction : Text
  limitations : List Text
  errors : List Text
deriving DecidableEq

/-- `HotkeyWeightPlan`. -/
structure HotkeyWeightPlan where
  planned : Bool
  reason : Option Text
  hotkeys : List Text
  weights : List K

end Records

section Scores

variable {K : Type} [Field K] [LinearOrder K]

/-- One `public-hotkey=score` value. -/
def parseScore (floats : FloatText K) (value : Text) : Except Raised (Text × K) := do
  require ('=' ∈ value) (.valueError "score must use SS58=VALUE format".toList)
  let hotkey := value.takeWhile (· ≠ '=')
  let rawScore := (value.dropWhile (· ≠ '=')).tail
  validatePublicSs58 hotkey
  match ← finiteFloat false (floats.parse rawScore) with
  | none => throw (.valueError "scores must be finite and non-negative".toList)
  | some score =>
    require (0 ≤ score) (.valueError "scores must be finite and non-negative".toList)
    return (hotkey, score)

/-- The loop of `parse_public_scores`. -/
def parseScores (floats : FloatText K) :
    List (Text × K) → List Text → Except Raised (List (Text × K))
  | scores, [] => .ok scores
  | scores, value :: rest => do
    let (hotkey, score) ← parseScore floats value
    require (hotkey ∉ Dict.keys scores) (.valueError ("duplicate scored hotkey ".toList ++ hotkey))
    parseScores floats (scores ++ [(hotkey, score)]) rest

def parsePublicScores (floats : FloatText K) (values : List Text) :
    Except Raised (List (Text × K)) := do
  let scores ← parseScores floats [] values
  require (scores ≠ [])
    (.valueError "at least one public hotkey score is required".toList)
  return scores

/-- The positive scores, in the code-point order of their hotkeys. -/
def positiveScores (scores : List (Text × K)) : List (Text × K) :=
  sortBy Char.toNat Prod.fst (scores.filter fun entry => 0 < entry.2)

def planHotkeyWeights [Rounding K] (scores : List (Text × K)) (minimumPositiveHotkeys : Int) :
    Except Raised (HotkeyWeightPlan K) := do
  require (1 ≤ minimumPositiveHotkeys)
    (.valueError "minimum_positive_hotkeys must be positive".toList)
  require (∀ entry ∈ scores, entry.1 ≠ [])
    (.valueError "hotkeys must be non-empty strings".toList)
  require (∀ entry ∈ scores, 0 ≤ entry.2)
    (.valueError "scores must be finite and non-negative".toList)
  let positive := positiveScores scores
  if (positive.length : Int) < minimumPositiveHotkeys then
    return ⟨false, some "insufficient_positive_hotkeys".toList, [], []⟩
  let total := fsum (positive.map Prod.snd)
  return ⟨true, none, positive.map Prod.fst, positive.map fun entry => rounded (entry.2 / total)⟩

end Scores

section Digest

variable {K : Type}

def schemaVersion : Text := "planrace/testnet-weight-plan/3".toList

def optionText {α : Type} (text : α → Text) : Option α → Text
  | none => dumps true .null
  | some value => text value

def intJson (i : Int) : Text := dumps true (.int i)

def boolJson (b : Bool) : Text := dumps true (.bool b)

/-- `target.model_dump(mode="json")`, as JSON. -/
def targetText (floats : FloatText K) (target : WeightTarget K) : Text :=
  objectText [("hotkey_ss58".toList, quote target.hotkeySs58),
    ("uid".toList, intJson target.uid),
    ("score".toList, floats.json target.score),
    ("planned_weight".toList, floats.json target.plannedWeight),
    ("weight".toList, floats.json target.weight),
    ("u16_weight".toList, intJson target.u16Weight)]

/-- `readback.model_dump(mode="json")`, as JSON. -/
def readbackText (floats : FloatText K) (readback : WeightReadback K) : Text :=
  objectText [("validator_uid".toList, optionText intJson readback.validatorUid),
    ("validator_permit".toList, boolJson readback.validatorPermit),
    ("validator_is_subnet_owner".toList, boolJson readback.validatorIsSubnetOwner),
    ("weight_setting_authorized".toList, boolJson readback.weightSettingAuthorized),
    ("last_update".toList, optionText intJson readback.lastUpdate),
    ("weights".toList, arrayText (readback.weights.map fun entry =>
      arrayText [intJson entry.1, floats.json entry.2]))]

/-- What a digest is taken of. -/
structure DigestPayload (K : Type) where
  endpoint : Text
  sdkVersion : Text
  netuid : Int
  block : Int
  blockHash : Text
  runtimeSpecVersion : Int
  validatorHotkey : Text
  minAllowedWeights : Int
  maxWeightsLimit : Int
  weightsRateLimit : Int
  commitRevealWeightsEnabled : Bool
  commitRevealPeriod : Int
  weightsWereClipped : Bool
  targets : List (WeightTarget K)
  currentReadback : WeightReadback K

def payloadText (floats : FloatText K) (payload : DigestPayload K) : Text :=
  objectText [("schema_version".toList, quote schemaVersion),
    ("network".toList, quote "test".toList),
    ("endpoint".toList, quote payload.endpoint),
    ("sdk_version".toList, quote payload.sdkVersion),
    ("block".toList, intJson payload.block),
    ("block_hash".toList, quote payload.blockHash),
    ("runtime_spec_version".toList, intJson payload.runtimeSpecVersion),
    ("netuid".toList, intJson payload.netuid),
    ("min_allowed_weights".toList, intJson payload.minAllowedWeights),
    ("max_weights_limit".toList, intJson payload.maxWeightsLimit),
    ("weights_rate_limit".toList, intJson payload.weightsRateLimit),
    ("commit_reveal_weights_enabled".toList, boolJson payload.commitRevealWeightsEnabled),
    ("commit_reveal_period".toList, intJson payload.commitRevealPeriod),
    ("weights_were_clipped".toList, boolJson payload.weightsWereClipped),
    ("targets".toList, arrayText (payload.targets.map (targetText floats))),
    ("current_readback".toList, readbackText floats payload.currentReadback),
    ("validator_hotkey_ss58".toList, quote payload.validatorHotkey)]

/-- `_digest_payload`. -/
def digestPayload (floats : FloatText K) (payload : DigestPayload K) : Text :=
  digestText (utf8 (asciiText (payloadText floats payload)))

end Digest

section Validation

variable {K : Type} [Field K] [LinearOrder K]

/-- The complete operation that a report proposes, with the digest it carries. -/
def completeOperation (report : TestnetWeightPlanReport K) : Option (DigestPayload K × Text) := do
  let block ← report.block
  let blockHash ← report.blockHash
  let runtimeSpecVersion ← report.runtimeSpecVersion
  let minAllowedWeights ← report.minAllowedWeights
  let maxWeightsLimit ← report.maxWeightsLimit
  let weightsRateLimit ← report.weightsRateLimit
  let commitRevealWeightsEnabled ← report.commitRevealWeightsEnabled
  let commitRevealPeriod ← report.commitRevealPeriod
  let planDigest ← report.planDigest
  if report.targets = [] then none
  else some ({
    endpoint := report.endpoint
    sdkVersion := report.sdkVersion
    netuid := report.netuid
    block := block
    blockHash := blockHash
    runtimeSpecVersion := runtimeSpecVersion
    validatorHotkey := report.validatorHotkeySs58
    minAllowedWeights := minAllowedWeights
    maxWeightsLimit := maxWeightsLimit
    weightsRateLimit := weightsRateLimit
    commitRevealWeightsEnabled := commitRevealWeightsEnabled
    commitRevealPeriod := commitRevealPeriod
    weightsWereClipped := report.weightsWereClipped
    targets := report.targets
    currentReadback := report.currentReadback }, planDigest)

/-- A block hash as the chain prints it. -/
def isBlockHash (hash : Text) : Bool := "0x".toList.isPrefixOf hash && hash.length == 66

/-- The value of a finite positive float. -/
def finitePositive (n : Number K) : Except Raised K :=
  match n.finite? with
  | some x => if 0 < x then .ok x
    else .error (.valueError "weight plan contains an invalid target value".toList)
  | none => .error (.valueError "weight plan contains an invalid target value".toList)

/-- The checks on one target, which leave the value of its weight. -/
def checkTarget (validatorHotkey : Text) (target : WeightTarget K) : Except Raised K := do
  validatePublicSs58 target.hotkeySs58
  require (target.hotkeySs58 ≠ validatorHotkey ∧ 0 ≤ target.uid)
    (.valueError "weight plan contains an invalid target identity".toList)
  let _ ← finitePositive target.score
  let _ ← finitePositive target.plannedWeight
  let weight ← finitePositive target.weight
  require (0 < target.u16Weight ∧ target.u16Weight ≤ u16Max)
    (.valueError "weight plan contains an invalid target value".toList)
  return weight

/-- `math.isclose(x, y, abs_tol=1e-12)`. -/
def isClose [Rounding K] (x y : K) : Bool :=
  decide (|rounded (x - y)| ≤
    max (rounded (rounded (1 / 10 ^ 9) * max |x| |y|)) (rounded (1 / 10 ^ 12)))

/-- The flags and gates that a report of a plan shows. -/
def passedEveryGate (report : TestnetWeightPlanReport K) : Bool :=
  decide (report.endpoint = testnetEndpoint) && decide (report.network = "test".toList) &&
    report.readOnly && !report.transactionConstructed && !report.signatureRequested &&
    decide (report.errors = []) && report.readyForAuthorizedSubmission && report.gates.all

/-- The 16-bit values of targets, and their normalization. -/
def checkVector [Rounding K] (targets : List (WeightTarget K)) (weights : List K) (maxWeightsLimit : Int) :
    Except Raised Unit := do
  require ((targets.map WeightTarget.uid).Nodup)
    (.valueError "weight plan contains duplicate target UIDs".toList)
  require ((targets.map WeightTarget.hotkeySs58).Nodup)
    (.valueError "weight plan contains duplicate target hotkeys".toList)
  require (isClose (fsum weights) 1 = true)
    (.valueError "weight plan target weights are not normalized".toList)
  let values := targets.map WeightTarget.u16Weight
  require (0 < values.sum ∧ ∀ value ∈ values, 0 < value)
    (.valueError "weight plan contains an invalid u16 weight".toList)
  require (∀ pair ∈ weights.zip values, isClose pair.1 (rounded (pair.2 / values.sum) : K) = true)
    (.valueError "weight plan normalized weights do not match its u16 vector".toList)
  require (maximum values * u16Max ≤ maxWeightsLimit * values.sum)
    (.valueError "weight plan exceeds max_weights_limit".toList)

/-- `_validated_plan_digest`. -/
def validatedPlanDigest [Rounding K] (floats : FloatText K) (report : TestnetWeightPlanReport K) :
    Except Raised Text :=
  match completeOperation report with
  | none => .error (.valueError "weight plan has no complete proposed operation".toList)
  | some (payload, planDigest) => do
    validatePublicSs58 report.validatorHotkeySs58
    require (0 ≤ payload.netuid ∧ 0 ≤ payload.block)
      (.valueError "weight plan contains an invalid chain location".toList)
    require (isBlockHash payload.blockHash = true)
      (.valueError "weight plan contains an invalid block hash".toList)
    require (0 ≤ payload.minAllowedWeights ∧
        (0 < payload.maxWeightsLimit ∧ payload.maxWeightsLimit ≤ u16Max) ∧
        0 ≤ payload.weightsRateLimit ∧ 0 ≤ payload.commitRevealPeriod)
      (.valueError "weight plan contains invalid subnet parameters".toList)
    let weights ← report.targets.mapM (checkTarget report.validatorHotkeySs58)
    let expected := digestPayload floats payload
    require (planDigest = expected) (.valueError "weight plan digest mismatch".toList)
    require (passedEveryGate report = true)
      (.valueError "source weight plan did not pass every pre-signing gate".toList)
    checkVector report.targets weights payload.maxWeightsLimit
    return expected

/-- `load_testnet_weight_plan`, with the schema validation of the saved JSON as
a parameter. -/
def loadTestnetWeightPlan [Rounding K] (floats : FloatText K)
    (validateJson : Bytes → Except Raised (TestnetWeightPlanReport K)) (saved : Bytes) :
    Except Raised (TestnetWeightPlanReport K) := do
  let report ← match validateJson saved with
    | .ok report => pure report
    | .error _ => throw (.valueError "weight plan schema validation failed".toList)
  let _ ← validatedPlanDigest floats report
  return report

end Validation

section Collection

variable {K : Type} [Field K] [LinearOrder K] {V : Type} [PythonObject V] [PythonFloat V K]

open PythonObject

def emptyReadback : WeightReadback K := ⟨none, false, false, false, none, []⟩

/-- One entry of a weight row, when it is positive. -/
def weightEntry (entry : V × V) : Except Raised (Option (Int × Number K)) := do
  let uid ← optionalInt (some entry.1)
  let weight ← finiteFloat (asBool entry.2).isSome (PythonFloat.float (K := K) entry.2)
  match uid, weight with
  | some uid, some weight =>
    require (0 ≤ uid ∧ 0 ≤ weight)
      (.valueError "testnet returned an invalid weight entry".toList)
    return if 0 < weight then some (uid, .finite weight) else none
  | _, _ => throw (.valueError "testnet returned an invalid weight entry".toList)

/-- The order of `sorted` on pairs of a UID and a finite weight. -/
def entryLe (x y : Int × Number K) : Bool :=
  decide (x.1 < y.1) || (decide (x.1 = y.1) &&
    match x.2, y.2 with
    | .finite a, .finite b => decide (a ≤ b)
    | _, _ => true)

/-- The validator's row of the weight matrix, under its number or its text. -/
def validatorRow (rows : V) (validatorUid : Nat) : Except Raised (List (V × V)) := do
  let byText ← get rows (.inr (intText validatorUid))
  let byNumber ← get rows (.inl validatorUid)
  match byNumber.or byText with
  | none => return []
  | some row =>
    require (isMapping row = true)
      (.valueError "testnet returned an invalid validator weight row".toList)
    items row

/-- `bool(permit)`, false where the chain shows none. -/
def permitOf : Option V → Except Raised Bool
  | none => .ok false
  | some value => truth value

/-- Whether the subnet's owner is the hotkey at a UID. -/
def isSubnetOwner (metagraph : V) (ownerHotkey : Text) (uid : Nat) : Except Raised Bool :=
  if ownerHotkey = [] then .ok false
  else do
    let hotkeys ← hotkeysOf metagraph
    return decide (hotkeys[uid]? = some ownerHotkey)

/-- `_weight_readback`. -/
def weightReadback (snapshot : Snapshot V) (netuid : Int) (metagraph : V)
    (validatorUid : Option Nat) : Except Raised (WeightReadback K) := do
  let permits ← field metagraph "validator_permit".toList
  let ownerHotkey ← fieldText metagraph "owner_hotkey".toList
  let lastUpdates ← field metagraph "last_update".toList
  match validatorUid with
  | none => return emptyReadback
  | some uid =>
    let permit ← permitOf (indexed permits uid)
    let isOwner ← isSubnetOwner metagraph ownerHotkey uid
    let lastUpdate ← optionalInt (indexed lastUpdates uid)
    let rows ← snapshot.read "weights".toList netuid
    require (isMapping rows = true) (.valueError "testnet returned invalid weight rows".toList)
    let row ← validatorRow rows uid
    let entries ← row.mapM weightEntry
    return {
      validatorUid := some uid
      validatorPermit := permit
      validatorIsSubnetOwner := isOwner
      weightSettingAuthorized := permit || isOwner
      lastUpdate := lastUpdate
      weights := (entries.filterMap id).insertionSort fun x y => entryLe x y = true }

/-- The hyperparameters that a plan depends on. -/
structure Hyperparameters where
  minAllowed : Option Int
  maxWeightsLimit : Option Int
  rateLimit : Option Int
  commitReveal : Option Bool
  revealPeriod : Option Int
deriving DecidableEq

def readHyperparameters (hyper : V) : Except Raised Hyperparameters := do
  let minAllowed ← optionalInt (← field hyper "min_allowed_weights".toList)
  let maxWeightsLimit ← optionalInt (← field hyper "max_weights_limit".toList)
  let rateLimit ← optionalInt (← field hyper "weights_rate_limit".toList)
  let commitReveal := optionalBool (← field hyper "commit_reveal_weights_enabled".toList)
  let revealPeriod ← optionalInt (← field hyper "commit_reveal_period".toList)
  return ⟨minAllowed, maxWeightsLimit, rateLimit, commitReveal, revealPeriod⟩

/-- The target of one conformed weight. -/
def targetRow (scores : List (Text × K)) (proposed : HotkeyWeightPlan K) (hotkeys : List Text)
    (entry : ConformedWeight K) : Except Raised (WeightTarget K) :=
  match proposed.hotkeys[entry.index]?, proposed.weights[entry.index]? with
  | some hotkey, some planned =>
    match hotkeys.idxOf? hotkey, Dict.get? scores hotkey with
    | some uid, some score =>
      .ok ⟨hotkey, uid, .finite score, .finite planned, .finite entry.weight, entry.u16Weight⟩
    | _, _ => .error (.other "KeyError".toList)
  | _, _ => .error .indexError

variable [FloorRing K]

/-- The targets by UID, and whether their weights were clipped. -/
def proposedTargets [Rounding K] (scores : List (Text × K)) (proposed : HotkeyWeightPlan K)
    (hotkeys : List Text) (maxWeightsLimit : Option Int) :
    Except Raised (List (WeightTarget K) × Bool) :=
  match maxWeightsLimit with
  | none => .ok ([], false)
  | some limit =>
    if proposed.planned = true ∧ ∀ hotkey ∈ proposed.hotkeys, hotkey ∈ hotkeys then do
      let conformed ← conformWeightVector proposed.weights limit
      let rows ← conformed.1.mapM (targetRow scores proposed hotkeys)
      return (rows.insertionSort fun x y => x.uid ≤ y.uid, conformed.2)
    else .ok ([], false)

/-- What a plan reads of an existing subnet. -/
structure SubnetReading (K : Type) where
  hyperparameters : Hyperparameters
  validatorRegistered : Bool
  allTargetsRegistered : Bool
  weightsWereClipped : Bool
  targets : List (WeightTarget K)
  readback : WeightReadback K

def absentSubnet : SubnetReading K :=
  ⟨⟨none, none, none, none, none⟩, false, false, false, [], emptyReadback⟩

def readSubnet [Rounding K] (snapshot : Snapshot V) (netuid : Int) (validatorHotkey : Text)
    (scores : List (Text × K)) (proposed : HotkeyWeightPlan K) :
    Except Raised (SubnetReading K) := do
  let hyper ← snapshot.read "subnet_hyperparameters".toList netuid
  let metagraph ← snapshot.read "metagraph".toList netuid
  let hyperparameters ← readHyperparameters hyper
  let hotkeys ← hotkeysOf metagraph
  let validatorUid := hotkeys.idxOf? validatorHotkey
  let (targets, clipped) ←
    proposedTargets scores proposed hotkeys hyperparameters.maxWeightsLimit
  let readback ← weightReadback snapshot netuid metagraph validatorUid
  return {
    hyperparameters := hyperparameters
    validatorRegistered := validatorUid.isSome
    allTargetsRegistered :=
      proposed.planned && decide (∀ hotkey ∈ proposed.hotkeys, hotkey ∈ hotkeys)
    weightsWereClipped := clipped
    targets := targets
    readback := readback }

/-- What is read of a subnet that may not exist. -/
def subnetReading [Rounding K] (snapshot : Snapshot V) (netuid : Int) (validatorHotkey : Text)
    (scores : List (Text × K)) (proposed : HotkeyWeightPlan K) (subnetExists : Bool) :
    Except Raised (SubnetReading K) :=
  if subnetExists then readSubnet snapshot netuid validatorHotkey scores proposed
  else .ok absentSubnet

/-- Where a snapshot was taken. -/
structure SnapshotHeader where
  endpoint : Text
  block : Int
  blockHash : Text
  pinned : Bool

def readHeader (client : Client V) : Except Raised (SnapshotHeader × Snapshot V) := do
  let endpoint ← str (← client.endpoint)
  let block ← int (← client.block)
  let snapshot ← client.atBlock block
  let info ← snapshot.blockInfo
  let blockHash ← fieldText info "hash".toList
  let infoNumber ← optionalInt (← field info "number".toList)
  let snapshotBlock ← int (← snapshot.block)
  return (⟨endpoint, block, blockHash, decide (snapshotBlock = block ∧ infoNumber = some block)⟩,
    snapshot)

def headerErrors (header : SnapshotHeader) : List Text :=
  (if header.endpoint = testnetEndpoint then []
    else ["SDK resolved an unexpected endpoint; planning is denied".toList]) ++
  if isBlockHash header.blockHash then [] else ["testnet returned an invalid block hash".toList]

end Collection

section Assembly

variable {K : Type} [Field K] [LinearOrder K]

/-- Whether enough blocks passed since the last update. -/
def rateLimitElapsed (block : Int) (rateLimit lastUpdate : Option Int) : Bool :=
  rateLimit.any fun limit => decide (limit = 0) || decide (lastUpdate = some 0) ||
    lastUpdate.any fun last => decide (last ≤ block ∧ limit ≤ block - last)

def minimumRecipientsMet (targets : List (WeightTarget K)) (minAllowed : Option Int) : Bool :=
  !targets.isEmpty && minAllowed.any fun minimum => decide (minimum ≤ (targets.length : Int))

def maximumWeightLimitMet (targets : List (WeightTarget K)) (maxWeightsLimit : Option Int) : Bool :=
  !targets.isEmpty && maxWeightsLimit.any fun limit =>
    decide (maximum (targets.map WeightTarget.u16Weight) * u16Max ≤
      limit * (targets.map WeightTarget.u16Weight).sum)

def planGates (header : SnapshotHeader) (subnetExists : Bool) (reading : SubnetReading K) :
    WeightPlanGates where
  canonicalEndpoint := decide (header.endpoint = testnetEndpoint)
  snapshotPinned := header.pinned
  subnetExists := subnetExists
  validatorRegistered := reading.validatorRegistered
  validatorAuthorized := reading.readback.weightSettingAuthorized
  allTargetsRegistered := reading.allTargetsRegistered
  rateLimitElapsed :=
    rateLimitElapsed header.block reading.hyperparameters.rateLimit reading.readback.lastUpdate
  minimumRecipientsMet := minimumRecipientsMet reading.targets reading.hyperparameters.minAllowed
  maximumWeightLimitMet :=
    maximumWeightLimitMet reading.targets reading.hyperparameters.maxWeightsLimit

/-- The payload of a plan at a runtime version, when nothing it needs is missing. -/
def proposedPayload (sdkVersion : Text) (netuid : Int) (validatorHotkey : Text)
    (header : SnapshotHeader) (reading : SubnetReading K) : Option (Int → DigestPayload K) := do
  let minAllowed ← reading.hyperparameters.minAllowed
  let maxWeightsLimit ← reading.hyperparameters.maxWeightsLimit
  let rateLimit ← reading.hyperparameters.rateLimit
  let commitReveal ← reading.hyperparameters.commitReveal
  let revealPeriod ← reading.hyperparameters.revealPeriod
  if reading.targets = [] ∨ headerErrors header ≠ [] then none
  else some fun runtimeSpecVersion => {
    endpoint := header.endpoint
    sdkVersion := sdkVersion
    netuid := netuid
    block := header.block
    blockHash := header.blockHash
    runtimeSpecVersion := runtimeSpecVersion
    validatorHotkey := validatorHotkey
    minAllowedWeights := minAllowed
    maxWeightsLimit := maxWeightsLimit
    weightsRateLimit := rateLimit
    commitRevealWeightsEnabled := commitReveal
    commitRevealPeriod := revealPeriod
    weightsWereClipped := reading.weightsWereClipped
    targets := reading.targets
    currentReadback := reading.readback }

def restoreAction : Text := "Stop: restore canonical read-only testnet state and rerun.".toList

def nextAction (errors : List Text) (gates : WeightPlanGates) : Text :=
  if ¬ gates.canonicalEndpoint ∨ errors ≠ [] then restoreAction
  else if ¬ gates.subnetExists then "Choose an existing testnet subnet and rerun.".toList
  else if ¬ gates.validatorRegistered then
    "Register the validator only after explicit signing authorization.".toList
  else if ¬ gates.validatorAuthorized then
    ("Wait for validator permit or use the registered subnet-owner hotkey " ++
      "before any weight operation.").toList
  else if ¬ gates.allTargetsRegistered then
    "Register every scored miner and rerun against a fresh block.".toList
  else if ¬ gates.rateLimitElapsed then
    "Wait for the subnet weight rate limit, then build a fresh plan.".toList
  else if ¬ gates.minimumRecipientsMet then
    "Provide enough positive scored miners for the subnet minimum.".toList
  else if ¬ gates.maximumWeightLimitMet then
    "Provide enough recipients to satisfy max_weights_limit.".toList
  else "Review this digest, rerun at a fresh block, then explicitly authorize signing.".toList

def limitations : List Text :=
  ["This exact-block snapshot is not proof that the block is finalized.".toList,
    "The plan can become stale if UID bindings or subnet parameters change.".toList,
    "No wallet path, private key, transaction, signature, or submission is used.".toList]

/-- The report of a plan that was collected without an exception. -/
def reportOf (sdkVersion : Text) (netuid : Int) (validatorHotkey : Text) (planned : Bool)
    (header : SnapshotHeader) (subnetExists : Bool) (reading : SubnetReading K)
    (digest : Option Text) (runtimeSpecVersion : Int) : TestnetWeightPlanReport K :=
  let gates := planGates header subnetExists reading
  let errors := headerErrors header
  { endpoint := header.endpoint
    sdkVersion := sdkVersion
    netuid := netuid
    block := some header.block
    blockHash := if header.blockHash = [] then none else some header.blockHash
    runtimeSpecVersion := some runtimeSpecVersion
    validatorHotkeySs58 := validatorHotkey
    minAllowedWeights := reading.hyperparameters.minAllowed
    maxWeightsLimit := reading.hyperparameters.maxWeightsLimit
    weightsRateLimit := reading.hyperparameters.rateLimit
    commitRevealWeightsEnabled := reading.hyperparameters.commitReveal
    commitRevealPeriod := reading.hyperparameters.revealPeriod
    weightsWereClipped := reading.weightsWereClipped
    targets := reading.targets
    currentReadback := reading.readback
    gates := gates
    readyForAuthorizedSubmission :=
      planned && gates.all && decide (errors = []) && isBlockHash header.blockHash
    planDigest := digest
    nextAction := nextAction errors gates
    limitations := limitations
    errors := errors }

/-- The report when reading the chain raised. -/
def failedReport (sdkVersion : Text) (netuid : Int) (validatorHotkey : Text) (error : Raised) :
    TestnetWeightPlanReport K where
  endpoint := testnetEndpoint
  sdkVersion := sdkVersion
  netuid := netuid
  block := none
  blockHash := none
  runtimeSpecVersion := none
  validatorHotkeySs58 := validatorHotkey
  minAllowedWeights := none
  maxWeightsLimit := none
  weightsRateLimit := none
  commitRevealWeightsEnabled := none
  commitRevealPeriod := none
  weightsWereClipped := false
  targets := []
  currentReadback := emptyReadback
  gates := ⟨false, false, false, false, false, false, false, false, false⟩
  readyForAuthorizedSubmission := false
  planDigest := none
  nextAction := restoreAction
  limitations := limitations
  errors := ["read-only planning failed: ".toList ++ error.name]

variable {V : Type} [PythonObject V] [PythonFloat V K] [FloorRing K]

/-- `int(client.spec_version)`, at its `n`th reading. -/
def runtimeVersion (client : Client V) (n : Nat) : Except Raised Int := do
  PythonObject.int (← client.specVersion n)

/-- The digest of a complete proposal, which reads the runtime version. -/
def plannedDigest (floats : FloatText K) (client : Client V)
    (proposal : Option (Int → DigestPayload K)) : Except Raised (Option Text) :=
  match proposal with
  | none => .ok none
  | some payload => do
    let runtimeSpecVersion ← runtimeVersion client 0
    return some (digestPayload floats (payload runtimeSpecVersion))

/-- The body of the `try` in `collect_testnet_weight_plan`. -/
def planReport [Rounding K] (floats : FloatText K) (sdkVersion : Text) (netuid : Int) (validatorHotkey : Text)
    (scores : List (Text × K)) (proposed : HotkeyWeightPlan K) (client : Client V) :
    Except Raised (TestnetWeightPlanReport K) := do
  let (header, snapshot) ← readHeader client
  let subnetExists ← testnetSubnetExists snapshot netuid
  let reading ← subnetReading snapshot netuid validatorHotkey scores proposed subnetExists
  let digest ← plannedDigest floats client
    (proposedPayload sdkVersion netuid validatorHotkey header reading)
  let runtimeSpecVersion ← runtimeVersion client (if digest.isSome then 1 else 0)
  return reportOf sdkVersion netuid validatorHotkey proposed.planned header subnetExists reading
    digest runtimeSpecVersion

/-- `collect_testnet_weight_plan`. -/
def collectTestnetWeightPlan [Rounding K] (floats : FloatText K) (sdkVersion : Text) (netuid : Int)
    (validatorHotkey : Text) (scoreSpecs : List Text) (minimumPositiveHotkeys : Int)
    (clientFactory : Except Raised (Client V)) : Except Raised (TestnetWeightPlanReport K) := do
  require (0 ≤ netuid ∧ netuid ≤ maxNetuid)
    (.valueError "netuid must be between 0 and 65535".toList)
  require (1 ≤ minimumPositiveHotkeys)
    (.valueError "minimum_positive_hotkeys must be positive".toList)
  validatePublicSs58 validatorHotkey
  let scores ← parsePublicScores floats scoreSpecs
  require (validatorHotkey ∉ Dict.keys scores)
    (.valueError "validator hotkey cannot be a scored miner".toList)
  let proposed ← planHotkeyWeights scores minimumPositiveHotkeys
  match clientFactory with
  | .error e => return failedReport sdkVersion netuid validatorHotkey e
  | .ok client =>
    client.close
    match planReport floats sdkVersion netuid validatorHotkey scores proposed client with
    | .ok report => return report
    | .error e => return failedReport sdkVersion netuid validatorHotkey e

end Assembly

end TestnetWeights
