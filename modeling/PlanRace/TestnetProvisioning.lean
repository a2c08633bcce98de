import PlanRace.CanonicalJson
import PlanRace.ChainReplies
import PlanRace.Library.AsciiJson
import PlanRace.Library.Dict
import PlanRace.Library.JsonSchema

/-!
# Plans for the dedicated testnet subnet

`collect_testnet_provision_plan` binds public identities, costs and budget gates
to one pinned block. A saved plan is validated again, gate by gate, before it can
reach the code that signs.
-/

namespace TestnetProvisioning

open JsonText ByteStrings Sha256 CanonicalJson AsciiJson JsonSchema PythonObjects ChainReplies
  Fallible

section Constants

/-- A block hash as the chain prints it. -/
def isBlockHash (hash : Text) : Bool := "0x".toList.isPrefixOf hash && hash.length == 66

def walletAlias : Text := "planrace-testnet".toList

def ownerHotkeyAlias : Text := "validator-00".toList

def maxTestnetBudgetRao : Int := 5000000000

def maxSubnetCreationReviewCostRao : Int := 1250000000

def maxTransactionFeeRao : Int := 10000000

def maxCreationWalletBalanceRao : Int := 1260001000

def expectedValidators : Nat := 3

def expectedMiners : Nat := 10

/-- `f"{n:0{width}d}"`. -/
def padded (width n : Nat) : Text :=
  let digits := Nat.toDigits 10 n
  List.replicate (width - digits.length) '0' ++ digits

def validatorAliases : List Text :=
  (List.range expectedValidators).map fun index => "validator-".toList ++ padded 2 index

def minerAliases : List Text :=
  (List.range expectedMiners).map fun index => "miner-".toList ++ padded 2 index

/-- `_tao_string`. -/
def taoString (rao : Int) : Text :=
  let whole := rao / 1000000000
  let fraction := rao % 1000000000
  if fraction = 0 then intText whole
  else ((intText whole ++ '.' :: padded 9 fraction.toNat).reverse.dropWhile (· = '0')).reverse

end Constants

section Identities

structure IdentityEntry where
  name : Text
  hotkeySs58 : Text
deriving DecidableEq

structure IdentitySecurity where
  keyfileMode : Text
  mainnetAuthorized : Bool
  mnemonicOrPrivateKeyInRepository : Bool
  walletDirectoryMode : Text
deriving DecidableEq

structure PublicIdentityManifest where
  walletAlias : Exactly walletAlias
  coldkeySs58 : Text
  validators : List IdentityEntry
  miners : List IdentityEntry
  security : IdentitySecurity
deriving DecidableEq

namespace PublicIdentityManifest

def hotkeys (manifest : PublicIdentityManifest) : List Text :=
  (manifest.validators ++ manifest.miners).map IdentityEntry.hotkeySs58

end PublicIdentityManifest

/-- A file that `model_validate_json` was applied to. -/
inductive SavedModel (α : Type) where
  /-- `OSError`, by the name of its class. -/
  | unreadable (name : Text)
  | malformed
  | parsed (value : α)

/-- The value of a file, or the error that its loader raises. -/
def SavedModel.load {α : Type} (what : Text) : SavedModel α → Except Raised α
  | unreadable name => .error (.valueError ("cannot read ".toList ++ what ++ ": ".toList ++ name))
  | malformed => .error (.valueError (what ++ " schema validation failed".toList))
  | parsed value => .ok value

/-- The custody that a manifest has to state. -/
def IdentitySecurity.testnetOnly (security : IdentitySecurity) : Bool :=
  !security.mainnetAuthorized && !security.mnemonicOrPrivateKeyInRepository &&
    decide (security.keyfileMode = "0600".toList) &&
    decide (security.walletDirectoryMode = "0700".toList)

/-- `load_public_identities`. -/
def loadPublicIdentities (file : SavedModel PublicIdentityManifest) :
    Except Raised PublicIdentityManifest := do
  let manifest ← file.load "public identity manifest".toList
  validatePublicSs58 manifest.coldkeySs58
  require (manifest.validators.length = expectedValidators ∧
      manifest.miners.length = expectedMiners)
    (.valueError
      "public identity manifest must contain exactly 3 validators and 10 miners".toList)
  require (manifest.validators.map IdentityEntry.name = validatorAliases)
    (.valueError "validator aliases must be validator-00 through validator-02".toList)
  require (manifest.miners.map IdentityEntry.name = minerAliases)
    (.valueError "miner aliases must be miner-00 through miner-09".toList)
  let _ ← manifest.hotkeys.mapM validatePublicSs58
  require (manifest.hotkeys.Nodup ∧ manifest.coldkeySs58 ∉ manifest.hotkeys)
    (.valueError "public coldkey and hotkeys must all be unique".toList)
  require (manifest.security.testnetOnly = true)
    (.valueError
      "public identity manifest does not satisfy the testnet custody boundary".toList)
  return manifest

end Identities

section Plans

inductive RoleKind where
  | validator
  | miner
deriving DecidableEq

structure ProvisionRole where
  role : RoleKind
  roleAlias : Text
  hotkeySs58 : Text
  registeredNetuids : List Int
  createdWithSubnet : Bool
  requiresBurnRegistration : Bool
deriving DecidableEq

structure ProvisionGates where
  canonicalEndpoint : Bool
  snapshotPinned : Bool
  identitiesValid : Bool
  dedicatedWalletOnly : Bool
  exactRoleCount : Bool
  publicHotkeysUnique : Bool
  ownerIsValidator00 : Bool
  coldkeyHasNoOwnedHotkeys : Bool
  allHotkeysUnregistered : Bool
  coldkeyBalancePositive : Bool
  balanceWithinTotalBudget : Bool
  creationWalletBalanceWithinExposureCap : Bool
  subnetCostSnapshotWithinReviewCap : Bool
  canCoverSnapshotCostDepositAndFeeCap : Bool
deriving DecidableEq

/-- `all(gates.model_dump().values())`. -/
def ProvisionGates.all (gates : ProvisionGates) : Bool :=
  gates.canonicalEndpoint && gates.snapshotPinned && gates.identitiesValid &&
    gates.dedicatedWalletOnly && gates.exactRoleCount && gates.publicHotkeysUnique &&
    gates.ownerIsValidator00 && gates.coldkeyHasNoOwnedHotkeys && gates.allHotkeysUnregistered &&
    gates.coldkeyBalancePositive && gates.balanceWithinTotalBudget &&
    gates.creationWalletBalanceWithinExposureCap && gates.subnetCostSnapshotWithinReviewCap &&
    gates.canCoverSnapshotCostDepositAndFeeCap

def planSchemaVersion : Text := "planrace/testnet-provision-plan/2".toList

/-- The fields of a plan that its digest binds. -/
structure ProvisionPlanBody where
  schemaVersion : Exactly planSchemaVersion := exactly planSchemaVersion
  readOnly : Bool := true
  transactionConstructed : Bool := false
  signatureRequested : Bool := false
  network : Exactly "test".toList := exactly "test".toList
  endpoint : Text
  sdkVersion : Text
  block : Option Int
  blockHash : Option Text
  runtimeSpecVersion : Option Int
  walletAlias : Exactly walletAlias := exactly walletAlias
  coldkeySs58 : Text
  ownerHotkeyAlias : Exactly ownerHotkeyAlias := exactly ownerHotkeyAlias
  ownerHotkeySs58 : Text
  coldkeyOwnedHotkeys : List Text
  roles : List ProvisionRole
  subnetCreationCostRao : Option Int
  subnetCreationCostTao : Option Text
  existentialDepositRao : Option Int
  existentialDepositTao : Option Text
  coldkeyBalanceRao : Option Int
  coldkeyBalanceTao : Option Text
  maxTestnetBudgetRao : Int := maxTestnetBudgetRao
  maxSubnetCreationReviewCostRao : Int := maxSubnetCreationReviewCostRao
  maxTransactionFeeRao : Int := maxTransactionFeeRao
  maxCreationWalletBalanceRao : Int := maxCreationWalletBalanceRao
  onchainCreationCostLimitAvailable : Bool := false
  burnRegistrationsAfterCreation : Int
  gates : ProvisionGates
  readyForAuthorizedSubnetCreation : Bool
  limitations : List Text
  errors : List Text
deriving DecidableEq

structure TestnetProvisionPlan extends ProvisionPlanBody where
  planDigest : Option Text
  nextAction : Text
deriving DecidableEq

end Plans

section Schemas

open RecordSchema

def RoleKind.text : RoleKind → Text
  | validator => "validator".toList
  | miner => "miner".toList

instance roleKindModel : JsonModel RoleKind where
  dump kind := .str kind.text
  validate
    | .str s =>
      if s = RoleKind.validator.text then some .validator
      else if s = RoleKind.miner.text then some .miner
      else none
    | _ => none
  validate_dump kind := by
    cases kind with
    | validator => rfl
    | miner => rfl
  validate_normalize j := by cases j <;> rfl

def roleSchema : RecordSchema ProvisionRole :=
  ((field "role".toList).pair <|
    (field "alias".toList).pair <|
    (field "hotkey_ss58".toList).pair <|
    (field "registered_netuids".toList).pair <|
    (field "created_with_subnet".toList).pair <|
    field "requires_burn_registration".toList)
  |>.map (fun role => (role.role, role.roleAlias, role.hotkeySs58, role.registeredNetuids,
      role.createdWithSubnet, role.requiresBurnRegistration))
    (fun (role, roleAlias, hotkeySs58, registeredNetuids, createdWithSubnet,
        requiresBurnRegistration) =>
      ⟨role, roleAlias, hotkeySs58, registeredNetuids, createdWithSubnet,
        requiresBurnRegistration⟩)
    fun _ => rfl

theorem roleSchema_distinct : roleSchema.keys.Nodup := by decide

instance roleModel : JsonModel ProvisionRole := roleSchema.model roleSchema_distinct

def gatesSchema : RecordSchema ProvisionGates :=
  ((field "canonical_endpoint".toList).pair <|
    (field "snapshot_pinned".toList).pair <|
    (field "identities_valid".toList).pair <|
    (field "dedicated_wallet_only".toList).pair <|
    (field "exact_role_count".toList).pair <|
    (field "public_hotkeys_unique".toList).pair <|
    (field "owner_is_validator_00".toList).pair <|
    (field "coldkey_has_no_owned_hotkeys".toList).pair <|
    (field "all_hotkeys_unregistered".toList).pair <|
    (field "coldkey_balance_positive".toList).pair <|
    (field "balance_within_total_budget".toList).pair <|
    (field "creation_wallet_balance_within_exposure_cap".toList).pair <|
    (field "subnet_cost_snapshot_within_review_cap".toList).pair <|
    field "can_cover_snapshot_cost_deposit_and_fee_cap".toList)
  |>.map (fun gates => (gates.canonicalEndpoint, gates.snapshotPinned, gates.identitiesValid,
      gates.dedicatedWalletOnly, gates.exactRoleCount, gates.publicHotkeysUnique,
      gates.ownerIsValidator00, gates.coldkeyHasNoOwnedHotkeys, gates.allHotkeysUnregistered,
      gates.coldkeyBalancePositive, gates.balanceWithinTotalBudget,
      gates.creationWalletBalanceWithinExposureCap, gates.subnetCostSnapshotWithinReviewCap,
      gates.canCoverSnapshotCostDepositAndFeeCap))
    (fun (canonicalEndpoint, snapshotPinned, identitiesValid, dedicatedWalletOnly,
      exactRoleCount, publicHotkeysUnique, ownerIsValidator00, coldkeyHasNoOwnedHotkeys,
      allHotkeysUnregistered, coldkeyBalancePositive, balanceWithinTotalBudget,
      creationWalletBalanceWithinExposureCap, subnetCostSnapshotWithinReviewCap,
      canCoverSnapshotCostDepositAndFeeCap) =>
      ⟨canonicalEndpoint, snapshotPinned, identitiesValid, dedicatedWalletOnly, exactRoleCount,
        publicHotkeysUnique, ownerIsValidator00, coldkeyHasNoOwnedHotkeys,
        allHotkeysUnregistered, coldkeyBalancePositive, balanceWithinTotalBudget,
        creationWalletBalanceWithinExposureCap, subnetCostSnapshotWithinReviewCap,
        canCoverSnapshotCostDepositAndFeeCap⟩)
    fun _ => rfl

theorem gatesSchema_distinct : gatesSchema.keys.Nodup := by decide

instance gatesModel : JsonModel ProvisionGates := gatesSchema.model gatesSchema_distinct

def bodySchema : RecordSchema ProvisionPlanBody :=
  ((fieldOr "schema_version".toList (exactly planSchemaVersion)).pair <|
    (fieldOr "read_only".toList true).pair <|
    (fieldOr "transaction_constructed".toList false).pair <|
    (fieldOr "signature_requested".toList false).pair <|
    (fieldOr "network".toList (exactly "test".toList)).pair <|
    (field "endpoint".toList).pair <|
    (field "sdk_version".toList).pair <|
    (field "block".toList).pair <|
    (field "block_hash".toList).pair <|
    (field "runtime_spec_version".toList).pair <|
    (fieldOr "wallet_alias".toList (exactly walletAlias)).pair <|
    (field "coldkey_ss58".toList).pair <|
    (fieldOr "owner_hotkey_alias".toList (exactly ownerHotkeyAlias)).pair <|
    (field "owner_hotkey_ss58".toList).pair <|
    (field "coldkey_owned_hotkeys".toList).pair <|
    (field "roles".toList).pair <|
    (field "subnet_creation_cost_rao".toList).pair <|
    (field "subnet_creation_cost_tao".toList).pair <|
    (field "existential_deposit_rao".toList).pair <|
    (field "existential_deposit_tao".toList).pair <|
    (field "coldkey_balance_rao".toList).pair <|
    (field "coldkey_balance_tao".toList).pair <|
    (fieldOr "max_testnet_budget_rao".toList maxTestnetBudgetRao).pair <|
    (fieldOr "max_subnet_creation_review_cost_rao".toList maxSubnetCreationReviewCostRao).pair <|
    (fieldOr "max_transaction_fee_rao".toList maxTransactionFeeRao).pair <|
    (fieldOr "max_creation_wallet_balance_rao".toList maxCreationWalletBalanceRao).pair <|
    (fieldOr "onchain_creation_cost_limit_available".toList false).pair <|
    (field "burn_registrations_after_creation".toList).pair <|
    (field "gates".toList).pair <|
    (field "ready_for_authorized_subnet_creation".toList).pair <|
    (field "limitations".toList).pair <|
    field "errors".toList)
  |>.map (fun body => (body.schemaVersion, body.readOnly, body.transactionConstructed,
      body.signatureRequested, body.network, body.endpoint, body.sdkVersion, body.block,
      body.blockHash, body.runtimeSpecVersion, body.walletAlias, body.coldkeySs58,
      body.ownerHotkeyAlias, body.ownerHotkeySs58, body.coldkeyOwnedHotkeys, body.roles,
      body.subnetCreationCostRao, body.subnetCreationCostTao, body.existentialDepositRao,
      body.existentialDepositTao, body.coldkeyBalanceRao, body.coldkeyBalanceTao,
      body.maxTestnetBudgetRao, body.maxSubnetCreationReviewCostRao, body.maxTransactionFeeRao,
      body.maxCreationWalletBalanceRao, body.onchainCreationCostLimitAvailable,
      body.burnRegistrationsAfterCreation, body.gates, body.readyForAuthorizedSubnetCreation,
      body.limitations, body.errors))
    (fun (schemaVersion, readOnly, transactionConstructed, signatureRequested, network, endpoint,
      sdkVersion, block, blockHash, runtimeSpecVersion, walletAlias, coldkeySs58,
      ownerHotkeyAlias, ownerHotkeySs58, coldkeyOwnedHotkeys, roles, subnetCreationCostRao,
      subnetCreationCostTao, existentialDepositRao, existentialDepositTao, coldkeyBalanceRao,
      coldkeyBalanceTao, maxTestnetBudgetRao, maxSubnetCreationReviewCostRao,
      maxTransactionFeeRao, maxCreationWalletBalanceRao, onchainCreationCostLimitAvailable,
      burnRegistrationsAfterCreation, gates, readyForAuthorizedSubnetCreation, limitations,
      errors) =>
      ⟨schemaVersion, readOnly, transactionConstructed, signatureRequested, network, endpoint,
        sdkVersion, block, blockHash, runtimeSpecVersion, walletAlias, coldkeySs58,
        ownerHotkeyAlias, ownerHotkeySs58, coldkeyOwnedHotkeys, roles, subnetCreationCostRao,
        subnetCreationCostTao, existentialDepositRao, existentialDepositTao, coldkeyBalanceRao,
        coldkeyBalanceTao, maxTestnetBudgetRao, maxSubnetCreationReviewCostRao,
        maxTransactionFeeRao, maxCreationWalletBalanceRao, onchainCreationCostLimitAvailable,
        burnRegistrationsAfterCreation, gates, readyForAuthorizedSubnetCreation, limitations,
        errors⟩)
    fun _ => rfl

def planSchema : RecordSchema TestnetProvisionPlan :=
  (bodySchema.pair <| (field "plan_digest".toList).pair <| field "next_action".toList)
  |>.map (fun plan => (plan.toProvisionPlanBody, plan.planDigest, plan.nextAction))
    (fun (body, planDigest, nextAction) => ⟨body, planDigest, nextAction⟩)
    fun _ => rfl

theorem planSchema_distinct : planSchema.keys.Nodup := by decide +kernel

instance planModel : JsonModel TestnetProvisionPlan := planSchema.model planSchema_distinct

theorem bodySchema_distinct : bodySchema.keys.Nodup := by decide +kernel

instance bodyModel : JsonModel ProvisionPlanBody := bodySchema.model bodySchema_distinct

end Schemas

section Digest

/-- `_digest_payload`. -/
def digestPayload (body : ProvisionPlanBody) : Text :=
  digestText (utf8 (asciiText (dumps true (JsonModel.dump body))))

end Digest

section Validation

/-- The chain and cost coordinates of a plan. -/
structure PlanNumbers where
  block : Int
  runtimeSpecVersion : Int
  cost : Int
  deposit : Int
  balance : Int

namespace ProvisionPlanBody

variable (body : ProvisionPlanBody)

/-- The coordinates, when none is missing or negative. -/
def numbers : Option PlanNumbers := do
  let block ← body.block
  let runtimeSpecVersion ← body.runtimeSpecVersion
  let cost ← body.subnetCreationCostRao
  let deposit ← body.existentialDepositRao
  let balance ← body.coldkeyBalanceRao
  if 0 ≤ block ∧ 0 ≤ runtimeSpecVersion ∧ 0 ≤ cost ∧ 0 ≤ deposit ∧ 0 ≤ balance then
    some ⟨block, runtimeSpecVersion, cost, deposit, balance⟩
  else none

/-- The endpoint and the limits are the fixed ones; the network and the aliases
are so by their types. -/
def fixedBoundary : Bool :=
  decide (body.endpoint = testnetEndpoint) && !body.onchainCreationCostLimitAvailable &&
    decide (body.maxTestnetBudgetRao = TestnetProvisioning.maxTestnetBudgetRao) &&
    decide (body.maxSubnetCreationReviewCostRao =
      TestnetProvisioning.maxSubnetCreationReviewCostRao) &&
    decide (body.maxTransactionFeeRao = TestnetProvisioning.maxTransactionFeeRao) &&
    decide (body.maxCreationWalletBalanceRao = TestnetProvisioning.maxCreationWalletBalanceRao)

def hotkeys : List Text := body.roles.map ProvisionRole.hotkeySs58

end ProvisionPlanBody

/-- What a plan has to say of the role at a position. -/
def expectedState (index : Nat) : RoleKind × Bool × Bool :=
  (if index < expectedValidators then .validator else .miner, decide (index = 0),
    decide (index ≠ 0))

def ProvisionRole.state (role : ProvisionRole) : RoleKind × Bool × Bool :=
  (role.role, role.createdWithSubnet, role.requiresBurnRegistration)

/-- The gates of a plan by its numbers. -/
def expectedGates (numbers : PlanNumbers) : ProvisionGates where
  canonicalEndpoint := true
  snapshotPinned := decide (0 ≤ numbers.block ∧ 0 ≤ numbers.runtimeSpecVersion)
  identitiesValid := true
  dedicatedWalletOnly := true
  exactRoleCount := true
  publicHotkeysUnique := true
  ownerIsValidator00 := true
  coldkeyHasNoOwnedHotkeys := true
  allHotkeysUnregistered := true
  coldkeyBalancePositive := decide (0 < numbers.balance)
  balanceWithinTotalBudget :=
    decide (0 < numbers.balance ∧ numbers.balance ≤ maxTestnetBudgetRao)
  creationWalletBalanceWithinExposureCap := decide (numbers.balance ≤ maxCreationWalletBalanceRao)
  subnetCostSnapshotWithinReviewCap := decide (numbers.cost ≤ maxSubnetCreationReviewCostRao)
  canCoverSnapshotCostDepositAndFeeCap :=
    decide (numbers.cost + numbers.deposit + maxTransactionFeeRao ≤ numbers.balance)

/-- The gates and flags that a plan shows. -/
def ProvisionPlanBody.passedEveryGate (body : ProvisionPlanBody) (numbers : PlanNumbers) : Bool :=
  decide (body.gates = expectedGates numbers) && body.readyForAuthorizedSubnetCreation &&
    body.errors.isEmpty && body.readOnly && !body.transactionConstructed &&
    !body.signatureRequested && body.gates.all

/-- The checks on the identities and the roles of a plan. -/
def checkRoles (report : ProvisionPlanBody) : Except Raised PUnit := do
  require (report.roles.length = expectedValidators + expectedMiners)
    (.valueError "provision plan must contain exactly 3 validators and 10 miners".toList)
  require (report.roles.map ProvisionRole.roleAlias = validatorAliases ++ minerAliases)
    (.valueError "provision plan contains unexpected role aliases".toList)
  let _ ← report.hotkeys.mapM validatePublicSs58
  require (report.hotkeys.Nodup ∧ report.coldkeySs58 ∉ report.hotkeys ∧
      report.hotkeys.head? = some report.ownerHotkeySs58)
    (.valueError "provision plan contains invalid public identities".toList)
  require (∀ entry ∈ report.roles.zipIdx,
      entry.1.state = expectedState entry.2 ∧ entry.1.registeredNetuids = [])
    (.valueError "provision plan contains unexpected role state".toList)
  require (report.coldkeyOwnedHotkeys = [] ∧ report.burnRegistrationsAfterCreation = 12)
    (.valueError
      "provision plan contains existing ownership or an invalid topology".toList)

/-- `_validated_provision_plan_digest`. -/
def validatedProvisionPlanDigest (report : TestnetProvisionPlan) : Except Raised Text :=
  match report.numbers with
  | none => .error (.valueError "provision plan has incomplete chain or cost coordinates".toList)
  | some numbers => do
    require (report.blockHash.any isBlockHash = true)
      (.valueError "provision plan has an invalid block hash".toList)
    validatePublicSs58 report.coldkeySs58
    validatePublicSs58 report.ownerHotkeySs58
    require (report.fixedBoundary = true)
      (.valueError "provision plan violates the fixed testnet safety boundary".toList)
    checkRoles report.toProvisionPlanBody
    require (report.subnetCreationCostTao = some (taoString numbers.cost) ∧
        report.existentialDepositTao = some (taoString numbers.deposit) ∧
        report.coldkeyBalanceTao = some (taoString numbers.balance))
      (.valueError "provision plan TAO renderings do not match exact rao values".toList)
    require (report.passedEveryGate numbers = true)
      (.valueError "source provision plan did not pass every pre-signing gate".toList)
    require (report.planDigest ≠ none) (.valueError "provision plan has no digest".toList)
    let expectedDigest := digestPayload report.toProvisionPlanBody
    require (report.planDigest = some expectedDigest)
      (.valueError "provision plan digest mismatch".toList)
    return expectedDigest

/-- The bytes of a file, or the class name of an `OSError`, as a model. -/
def SavedModel.ofFile {α : Type} [JsonModel α] (parse : Bytes → Option Json) :
    Except Text Bytes → SavedModel α
  | .error name => .unreadable name
  | .ok bytes =>
    match (parse bytes).bind JsonModel.validate with
    | none => .malformed
    | some value => .parsed value

/-- `load_testnet_provision_plan`; `parse` reads the text of a JSON document. -/
def loadTestnetProvisionPlan (parse : Bytes → Option Json) (file : Except Text Bytes) :
    Except Raised TestnetProvisionPlan := do
  let report ← (SavedModel.ofFile parse file).load "provision plan".toList
  let _ ← validatedProvisionPlanDigest report
  return report

end Validation

section Collection

/-- `_roles`, with an empty registration for a hotkey that has none. -/
def rolesOf (manifest : PublicIdentityManifest) (registrations : List (Text × List Int)) :
    List ProvisionRole :=
  let registered (item : IdentityEntry) := (Dict.get? registrations item.hotkeySs58).getD []
  manifest.validators.map (fun item => {
    role := .validator
    roleAlias := item.name
    hotkeySs58 := item.hotkeySs58
    registeredNetuids := registered item
    createdWithSubnet := decide (item.name = ownerHotkeyAlias)
    requiresBurnRegistration := decide (item.name ≠ ownerHotkeyAlias) }) ++
  manifest.miners.map fun item => {
    role := .miner
    roleAlias := item.name
    hotkeySs58 := item.hotkeySs58
    registeredNetuids := registered item
    createdWithSubnet := false
    requiresBurnRegistration := true }

/-- `manifest.validators[0].hotkey_ss58`. -/
def ownerHotkey (manifest : PublicIdentityManifest) : Except Raised Text :=
  match manifest.validators with
  | [] => .error .indexError
  | owner :: _ => .ok owner.hotkeySs58

/-- `sum(role.requires_burn_registration for role in roles)`. -/
def burnRegistrations (roles : List ProvisionRole) : Int :=
  (roles.countP ProvisionRole.requiresBurnRegistration : Nat)

def limitations : List Text :=
  ["This latest-block plan is not finalized transaction evidence.".toList,
    "The subnet creation price is dynamic and can change before inclusion.".toList,
    ("Runtime v454 has no subnet-creation price-limit argument; 1.25 test TAO " ++
      "is a pre-signing review cap, not an on-chain execution cap.").toList,
    ("Creation requires a staged wallet balance no greater than 1.260001 test TAO; " ++
      "the 5 test TAO value is only the total project budget.").toList,
    ("Because anyone can send funds to a public address, even the staged " ++
      "balance is not an on-chain execution-price limit.").toList,
    ("The new subnet creates validator-00 as UID 0; the other 12 hotkeys " ++
      "require later burns.").toList,
    ("No transaction, wallet unlock, signature, registration, or mainnet access " ++
      "is performed.").toList]

def emptyGates : ProvisionGates :=
  ⟨false, false, false, false, false, false, false, false, false, false, false, false, false, false⟩

variable {V : Type} [PythonObject V]

open PythonObject

/-- `_rao`. -/
def raoOf (value : V) : Except Raised Int := do
  match ← optionalInt (← field value "rao".toList) with
  | none => throw (.valueError "testnet returned an invalid TAO balance".toList)
  | some amount =>
    require (0 ≤ amount) (.valueError "testnet returned an invalid TAO balance".toList)
    return amount

/-- The elements of a sequence that is no text. -/
def sequenceItems (what : Text) (value : V) : Except Raised (List V) :=
  match elements value with
  | some items =>
    if isText value then .error (.valueError ("testnet returned invalid ".toList ++ what))
    else .ok items
  | none => .error (.valueError ("testnet returned invalid ".toList ++ what))

/-- `_int_tuple`. -/
def intTuple (what : Text) (value : V) : Except Raised (List Int) := do
  let items ← sequenceItems what value
  let output ← items.mapM fun item => optionalInt (some item)
  require (∀ item ∈ output, ∃ i ∈ item, 0 ≤ i)
    (.valueError ("testnet returned invalid ".toList ++ what))
  return output.filterMap id

/-- `_string_tuple`. -/
def stringTuple (what : Text) (value : V) : Except Raised (List Text) := do
  let items ← sequenceItems what value
  let output ← items.mapM str
  require (∀ item ∈ output, item ≠ [])
    (.valueError ("testnet returned invalid ".toList ++ what))
  return output

/-- What a plan reads of the chain. -/
structure ChainReading where
  endpoint : Text
  block : Int
  blockHash : Text
  pinned : Bool
  balanceRao : Int
  costRao : Int
  existentialRao : Int
  ownedHotkeys : List Text
  registrations : List (Text × List Int)

/-- The netuids that a role's hotkey is registered on. -/
def readRegistration (snapshot : AccountSnapshot V) (role : ProvisionRole) :
    Except Raised (Text × List Int) := do
  let reply ← snapshot.readAccount "netuids_for_hotkey".toList role.hotkeySs58
  let netuids ← intTuple ("netuids for ".toList ++ role.roleAlias) reply
  return (role.hotkeySs58, netuids)

/-- `_string_tuple(snapshot.read("owned_hotkeys", …))`. -/
def readOwnedHotkeys (snapshot : AccountSnapshot V) (coldkey : Text) : Except Raised (List Text) := do
  let reply ← snapshot.readAccount "owned_hotkeys".toList coldkey
  stringTuple "owned hotkeys".toList reply

def readChain (manifest : PublicIdentityManifest)
    (client : PinnedClient V (AccountSnapshot V)) : Except Raised ChainReading := do
  let endpoint ← str (← client.endpoint)
  let block ← int (← client.block)
  let snapshot ← client.atBlock block
  let info ← snapshot.blockInfo
  let infoNumber ← optionalInt (← field info "number".toList)
  let blockHash ← fieldText info "hash".toList
  let snapshotBlock ← int (← snapshot.block)
  let balanceRao ← raoOf (← snapshot.readAccount "balance".toList manifest.coldkeySs58)
  let costRao ← raoOf (← snapshot.readGlobal "subnet_registration_cost".toList)
  let existentialRao ← raoOf (← snapshot.readGlobal "existential_deposit".toList)
  let ownedHotkeys ← readOwnedHotkeys snapshot manifest.coldkeySs58
  let registrations ← (rolesOf manifest []).mapM (readRegistration snapshot)
  return {
    endpoint := endpoint
    block := block
    blockHash := blockHash
    pinned := decide (snapshotBlock = block ∧ infoNumber = some block)
    balanceRao := balanceRao
    costRao := costRao
    existentialRao := existentialRao
    ownedHotkeys := ownedHotkeys
    registrations := Dict.update [] registrations }

namespace ChainReading

variable (reading : ChainReading)

def canonical : Bool := decide (reading.endpoint = testnetEndpoint)

def errors : List Text :=
  (if reading.canonical then []
    else ["SDK resolved an unexpected endpoint; provisioning is denied".toList]) ++
  if isBlockHash reading.blockHash then [] else ["testnet returned an invalid block hash".toList]

def gates (manifest : PublicIdentityManifest) : ProvisionGates :=
  let roles := rolesOf manifest reading.registrations
  { canonicalEndpoint := reading.canonical
    snapshotPinned := reading.pinned
    identitiesValid := true
    dedicatedWalletOnly := decide (manifest.walletAlias.val = walletAlias)
    exactRoleCount := decide (manifest.validators.length = 3 ∧ manifest.miners.length = 10)
    publicHotkeysUnique := decide (roles.map ProvisionRole.hotkeySs58).Nodup
    ownerIsValidator00 := (roles.map ProvisionRole.roleAlias).head? == some ownerHotkeyAlias
    coldkeyHasNoOwnedHotkeys := reading.ownedHotkeys.isEmpty
    allHotkeysUnregistered := roles.all fun role => role.registeredNetuids.isEmpty
    coldkeyBalancePositive := decide (0 < reading.balanceRao)
    balanceWithinTotalBudget :=
      decide (0 < reading.balanceRao ∧ reading.balanceRao ≤ maxTestnetBudgetRao)
    creationWalletBalanceWithinExposureCap :=
      decide (reading.balanceRao ≤ maxCreationWalletBalanceRao)
    subnetCostSnapshotWithinReviewCap :=
      decide (reading.costRao ≤ maxSubnetCreationReviewCostRao)
    canCoverSnapshotCostDepositAndFeeCap :=
      decide (reading.costRao + reading.existentialRao + maxTransactionFeeRao ≤
        reading.balanceRao) }

def ready (manifest : PublicIdentityManifest) : Bool :=
  (reading.gates manifest).all && reading.errors.isEmpty

def nextAction (manifest : PublicIdentityManifest) : Text :=
  let roles := rolesOf manifest reading.registrations
  if reading.errors ≠ [] ∨ ¬ reading.canonical ∨ ¬ reading.pinned then
    "Stop: restore canonical pinned testnet reads and rerun.".toList
  else if reading.ownedHotkeys ≠ [] ∨ ∃ role ∈ roles, role.registeredNetuids ≠ [] then
    "Stop: reconcile existing ownership or registrations; do not create again.".toList
  else if reading.balanceRao = 0 then
    "Obtain the approved test TAO allocation, then rerun this plan.".toList
  else if maxTestnetBudgetRao < reading.balanceRao then
    "Stop: balance exceeds the approved 5 test TAO project budget.".toList
  else if maxCreationWalletBalanceRao < reading.balanceRao then
    "Stop: staged creation-wallet balance exceeds 1.260001 test TAO.".toList
  else if maxSubnetCreationReviewCostRao < reading.costRao then
    "Stop: subnet creation snapshot exceeds the 1.25 test TAO review cap.".toList
  else if reading.balanceRao <
      reading.costRao + reading.existentialRao + maxTransactionFeeRao then
    ("Obtain enough test TAO to cover the snapshot cost, deposit, " ++
      "and estimated-fee policy cap.").toList
  else "Review this plan and explicitly authorize its digest before signing.".toList

/-- The digested fields of a plan that was collected without an exception. -/
def body (manifest : PublicIdentityManifest) (owner sdkVersion : Text) (runtimeSpecVersion : Int) :
    ProvisionPlanBody where
  endpoint := reading.endpoint
  sdkVersion := sdkVersion
  block := some reading.block
  blockHash := if reading.blockHash = [] then none else some reading.blockHash
  runtimeSpecVersion := some runtimeSpecVersion
  coldkeySs58 := manifest.coldkeySs58
  ownerHotkeySs58 := owner
  coldkeyOwnedHotkeys := reading.ownedHotkeys
  roles := rolesOf manifest reading.registrations
  subnetCreationCostRao := some reading.costRao
  subnetCreationCostTao := some (taoString reading.costRao)
  existentialDepositRao := some reading.existentialRao
  existentialDepositTao := some (taoString reading.existentialRao)
  coldkeyBalanceRao := some reading.balanceRao
  coldkeyBalanceTao := some (taoString reading.balanceRao)
  burnRegistrationsAfterCreation := burnRegistrations (rolesOf manifest reading.registrations)
  gates := reading.gates manifest
  readyForAuthorizedSubnetCreation := reading.ready manifest
  limitations := limitations
  errors := reading.errors

def report (manifest : PublicIdentityManifest) (owner sdkVersion : Text)
    (runtimeSpecVersion : Int) : TestnetProvisionPlan :=
  let body := reading.body manifest owner sdkVersion runtimeSpecVersion
  { toProvisionPlanBody := body
    planDigest := some (digestPayload body)
    nextAction := reading.nextAction manifest }

end ChainReading

/-- The report when reading the chain raised. -/
def failedReport (manifest : PublicIdentityManifest) (owner sdkVersion : Text)
    (roles : List ProvisionRole) (error : Raised) : TestnetProvisionPlan where
  endpoint := testnetEndpoint
  sdkVersion := sdkVersion
  block := none
  blockHash := none
  runtimeSpecVersion := none
  coldkeySs58 := manifest.coldkeySs58
  ownerHotkeySs58 := owner
  coldkeyOwnedHotkeys := []
  roles := roles
  subnetCreationCostRao := none
  subnetCreationCostTao := none
  existentialDepositRao := none
  existentialDepositTao := none
  coldkeyBalanceRao := none
  coldkeyBalanceTao := none
  burnRegistrationsAfterCreation := burnRegistrations roles
  gates := emptyGates
  readyForAuthorizedSubnetCreation := false
  planDigest := none
  nextAction := "Stop: restore canonical read-only testnet state and rerun.".toList
  limitations := limitations
  errors := ["read-only provisioning plan failed: ".toList ++ error.name]

/-- What follows the reading of the chain. -/
def reportReading (sdkVersion : Except Raised Text) (manifest : PublicIdentityManifest)
    (owner : Text) (client : PinnedClient V (AccountSnapshot V)) (reading : ChainReading) :
    Except Raised TestnetProvisionPlan := do
  let sdkVersion ← sdkVersion
  let runtimeSpecVersion ← int (← client.specVersion)
  return reading.report manifest owner sdkVersion runtimeSpecVersion

/-- The body of the `try`; an exception comes with the roles of that moment. -/
def tryPlan (sdkVersion : Except Raised Text) (manifest : PublicIdentityManifest) (owner : Text)
    (client : PinnedClient V (AccountSnapshot V)) :
    Except (List ProvisionRole × Raised) TestnetProvisionPlan := do
  let reading ← (readChain manifest client).mapError fun e => (rolesOf manifest [], e)
  (reportReading sdkVersion manifest owner client reading).mapError fun e =>
    (rolesOf manifest reading.registrations, e)

/-- `collect_testnet_provision_plan`. A failed plan reads the SDK's version
again, and an exception of `close` replaces what was returned. -/
def collectTestnetProvisionPlan (sdkVersion : Except Raised Text)
    (identities : SavedModel PublicIdentityManifest)
    (clientFactory : Except Raised (PinnedClient V (AccountSnapshot V))) :
    Except Raised TestnetProvisionPlan := do
  let manifest ← loadPublicIdentities identities
  let owner ← ownerHotkey manifest
  match clientFactory with
  | .error e => sdkVersion.map (failedReport manifest owner · (rolesOf manifest []) e)
  | .ok client =>
    client.close
    match tryPlan sdkVersion manifest owner client with
    | .ok report => return report
    | .error (roles, e) => sdkVersion.map (failedReport manifest owner · roles e)

end Collection

end TestnetProvisioning
