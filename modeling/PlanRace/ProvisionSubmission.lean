import PlanRace.TestnetProvisioning

/-!
# Authorized subnet creation

One approved plan is revalidated against a fresh plan of the chain, both public
keys of the wallet are bound, and the creation is submitted once. Its receipt is
validated again when it is loaded.
-/

namespace ProvisionSubmission

open JsonText ByteStrings CanonicalJson AsciiJson JsonSchema PythonObjects ChainReplies
  TestnetProvisioning Fallible

def schemaVersion : Text := "planrace/testnet-provision-submission/1".toList

section Confirmation

/-- The fields that `invariant_fields` names. -/
structure InvariantFields where
  endpoint : Text
  sdkVersion : Text
  network : Text
  runtimeSpecVersion : Option Int
  walletAlias : Text
  coldkeySs58 : Text
  ownerHotkeyAlias : Text
  ownerHotkeySs58 : Text
  roles : List ProvisionRole
  coldkeyOwnedHotkeys : List Text
  subnetCreationCostRao : Option Int
  existentialDepositRao : Option Int
  coldkeyBalanceRao : Option Int
  maxTestnetBudgetRao : Int
  maxSubnetCreationReviewCostRao : Int
  maxTransactionFeeRao : Int
  maxCreationWalletBalanceRao : Int
  onchainCreationCostLimitAvailable : Bool
  burnRegistrationsAfterCreation : Int
  gates : ProvisionGates
deriving DecidableEq

def invariantFields (plan : ProvisionPlanBody) : InvariantFields where
  endpoint := plan.endpoint
  sdkVersion := plan.sdkVersion
  network := plan.network
  runtimeSpecVersion := plan.runtimeSpecVersion
  walletAlias := plan.walletAlias
  coldkeySs58 := plan.coldkeySs58
  ownerHotkeyAlias := plan.ownerHotkeyAlias
  ownerHotkeySs58 := plan.ownerHotkeySs58
  roles := plan.roles
  coldkeyOwnedHotkeys := plan.coldkeyOwnedHotkeys
  subnetCreationCostRao := plan.subnetCreationCostRao
  existentialDepositRao := plan.existentialDepositRao
  coldkeyBalanceRao := plan.coldkeyBalanceRao
  maxTestnetBudgetRao := plan.maxTestnetBudgetRao
  maxSubnetCreationReviewCostRao := plan.maxSubnetCreationReviewCostRao
  maxTransactionFeeRao := plan.maxTransactionFeeRao
  maxCreationWalletBalanceRao := plan.maxCreationWalletBalanceRao
  onchainCreationCostLimitAvailable := plan.onchainCreationCostLimitAvailable
  burnRegistrationsAfterCreation := plan.burnRegistrationsAfterCreation
  gates := plan.gates

/-- The blocks of both plans. -/
def planBlocks (source fresh : TestnetProvisionPlan) : Except Raised (Int × Int) :=
  match source.block, fresh.block with
  | some sourceBlock, some freshBlock => .ok (sourceBlock, freshBlock)
  | _, _ => .error (.valueError "provision plan has no chain block".toList)

/-- `_require_fresh_equivalent_plan`. -/
def requireFreshEquivalentPlan (source fresh : TestnetProvisionPlan) (maxPlanAgeBlocks : Int) :
    Except Raised PUnit := do
  let _ ← validatedProvisionPlanDigest fresh
  let blocks ← planBlocks source fresh
  let age := blocks.2 - blocks.1
  require (0 ≤ age ∧ age ≤ maxPlanAgeBlocks)
    (.valueError ("provision plan is stale by ".toList ++ intText age ++
      " blocks; authorize a fresh plan".toList))
  require (invariantFields source.toProvisionPlanBody = invariantFields fresh.toProvisionPlanBody)
    (.valueError
      "testnet ownership, registration, balance, or price changed after approval".toList)

end Confirmation

section Receipts

/-- The fields of a receipt that its digest binds. -/
structure ProvisionReceiptBody where
  schemaVersion : Text := schemaVersion
  network : Text := "test".toList
  endpoint : Text := testnetEndpoint
  sdkVersion : Text
  sourcePlanDigest : Text
  sourceBlock : Int
  preSubmitBlock : Int
  preSubmitBlockHash : Text
  runtimeSpecVersion : Int
  walletAlias : Text
  coldkeySs58 : Text
  ownerHotkeyAlias : Text
  ownerHotkeySs58 : Text
  creationCostSnapshotRao : Int
  creationCostSnapshotTao : Text
  authorizedWalletBalanceSnapshotRao : Int
  authorizedWalletBalanceSnapshotTao : Text
  maxTransactionFeeRao : Int
  onchainCreationCostLimitAvailable : Bool := false
  dynamicCostAcknowledged : Bool := true
  transactionConstructed : Bool := true
  signatureRequested : Bool := true
  sdkReportedSuccess : Bool
  netuid : Int
  registrationMode : Option Text
  actualRegistrationPriceRao : Option Int
  actualRegistrationPriceTao : Option Text
  snapshotReviewCapExceededAtInclusion : Option Bool
  includingBlockHash : Option Text
  extrinsicId : Option Text
  explorerUrl : Option Text
  feeTao : Option Text
  submittedAt : Text
  requiresFinalizedReadback : Bool := true
  evidenceComplete : Bool := false
deriving DecidableEq

structure TestnetProvisionSubmissionReceipt extends ProvisionReceiptBody where
  receiptDigest : Option Text
  nextAction : Text
deriving DecidableEq

open RecordSchema

def receiptSchema : RecordSchema ProvisionReceiptBody :=
  ((fieldOr "schema_version".toList schemaVersion).pair <|
    (fieldOr "network".toList "test".toList).pair <|
    (fieldOr "endpoint".toList testnetEndpoint).pair <|
    (field "sdk_version".toList).pair <|
    (field "source_plan_digest".toList).pair <|
    (field "source_block".toList).pair <|
    (field "pre_submit_block".toList).pair <|
    (field "pre_submit_block_hash".toList).pair <|
    (field "runtime_spec_version".toList).pair <|
    (field "wallet_alias".toList).pair <|
    (field "coldkey_ss58".toList).pair <|
    (field "owner_hotkey_alias".toList).pair <|
    (field "owner_hotkey_ss58".toList).pair <|
    (field "creation_cost_snapshot_rao".toList).pair <|
    (field "creation_cost_snapshot_tao".toList).pair <|
    (field "authorized_wallet_balance_snapshot_rao".toList).pair <|
    (field "authorized_wallet_balance_snapshot_tao".toList).pair <|
    (field "max_transaction_fee_rao".toList).pair <|
    (fieldOr "onchain_creation_cost_limit_available".toList false).pair <|
    (fieldOr "dynamic_cost_acknowledged".toList true).pair <|
    (fieldOr "transaction_constructed".toList true).pair <|
    (fieldOr "signature_requested".toList true).pair <|
    (field "sdk_reported_success".toList).pair <|
    (field "netuid".toList).pair <|
    (field "registration_mode".toList).pair <|
    (field "actual_registration_price_rao".toList).pair <|
    (field "actual_registration_price_tao".toList).pair <|
    (field "snapshot_review_cap_exceeded_at_inclusion".toList).pair <|
    (field "including_block_hash".toList).pair <|
    (field "extrinsic_id".toList).pair <|
    (field "explorer_url".toList).pair <|
    (field "fee_tao".toList).pair <|
    (field "submitted_at".toList).pair <|
    (fieldOr "requires_finalized_readback".toList true).pair <|
    fieldOr "evidence_complete".toList false)
  |>.map (fun body => (body.schemaVersion, body.network, body.endpoint, body.sdkVersion,
      body.sourcePlanDigest, body.sourceBlock, body.preSubmitBlock, body.preSubmitBlockHash,
      body.runtimeSpecVersion, body.walletAlias, body.coldkeySs58, body.ownerHotkeyAlias,
      body.ownerHotkeySs58, body.creationCostSnapshotRao, body.creationCostSnapshotTao,
      body.authorizedWalletBalanceSnapshotRao, body.authorizedWalletBalanceSnapshotTao,
      body.maxTransactionFeeRao, body.onchainCreationCostLimitAvailable,
      body.dynamicCostAcknowledged, body.transactionConstructed, body.signatureRequested,
      body.sdkReportedSuccess, body.netuid, body.registrationMode,
      body.actualRegistrationPriceRao, body.actualRegistrationPriceTao,
      body.snapshotReviewCapExceededAtInclusion, body.includingBlockHash, body.extrinsicId,
      body.explorerUrl, body.feeTao, body.submittedAt, body.requiresFinalizedReadback,
      body.evidenceComplete))
    (fun (schemaVersion, network, endpoint, sdkVersion, sourcePlanDigest, sourceBlock,
      preSubmitBlock, preSubmitBlockHash, runtimeSpecVersion, walletAlias, coldkeySs58,
      ownerHotkeyAlias, ownerHotkeySs58, creationCostSnapshotRao, creationCostSnapshotTao,
      authorizedWalletBalanceSnapshotRao, authorizedWalletBalanceSnapshotTao,
      maxTransactionFeeRao, onchainCreationCostLimitAvailable, dynamicCostAcknowledged,
      transactionConstructed, signatureRequested, sdkReportedSuccess, netuid, registrationMode,
      actualRegistrationPriceRao, actualRegistrationPriceTao,
      snapshotReviewCapExceededAtInclusion, includingBlockHash, extrinsicId, explorerUrl, feeTao,
      submittedAt, requiresFinalizedReadback, evidenceComplete) =>
      ⟨schemaVersion, network, endpoint, sdkVersion, sourcePlanDigest, sourceBlock,
        preSubmitBlock, preSubmitBlockHash, runtimeSpecVersion, walletAlias, coldkeySs58,
        ownerHotkeyAlias, ownerHotkeySs58, creationCostSnapshotRao, creationCostSnapshotTao,
        authorizedWalletBalanceSnapshotRao, authorizedWalletBalanceSnapshotTao,
        maxTransactionFeeRao, onchainCreationCostLimitAvailable, dynamicCostAcknowledged,
        transactionConstructed, signatureRequested, sdkReportedSuccess, netuid, registrationMode,
        actualRegistrationPriceRao, actualRegistrationPriceTao,
        snapshotReviewCapExceededAtInclusion, includingBlockHash, extrinsicId, explorerUrl,
        feeTao, submittedAt, requiresFinalizedReadback, evidenceComplete⟩)
    fun _ => rfl

theorem receiptSchema_distinct : receiptSchema.keys.Nodup := by decide +kernel

instance receiptBodyModel : JsonModel ProvisionReceiptBody :=
  receiptSchema.model receiptSchema_distinct

def signedReceiptSchema : RecordSchema TestnetProvisionSubmissionReceipt :=
  (receiptSchema.pair <| (field "receipt_digest".toList).pair <| field "next_action".toList)
  |>.map (fun receipt => (receipt.toProvisionReceiptBody, receipt.receiptDigest,
      receipt.nextAction))
    (fun (body, receiptDigest, nextAction) => ⟨body, receiptDigest, nextAction⟩)
    fun _ => rfl

theorem signedReceiptSchema_distinct : signedReceiptSchema.keys.Nodup := by decide +kernel

instance receiptModel : JsonModel TestnetProvisionSubmissionReceipt :=
  signedReceiptSchema.model signedReceiptSchema_distinct

/-- `_receipt_digest_payload`. -/
def receiptDigestPayload (body : ProvisionReceiptBody) : Text :=
  digestText (utf8 (asciiText (dumps true (JsonModel.dump body))))

end Receipts

section Validation

namespace ProvisionReceiptBody

variable (receipt : ProvisionReceiptBody)

def fixedBoundary : Bool :=
  decide (receipt.network = "test".toList) && decide (receipt.endpoint = testnetEndpoint) &&
    decide (receipt.walletAlias = TestnetProvisioning.walletAlias) &&
    decide (receipt.ownerHotkeyAlias = TestnetProvisioning.ownerHotkeyAlias) &&
    !receipt.onchainCreationCostLimitAvailable && receipt.dynamicCostAcknowledged &&
    receipt.transactionConstructed && receipt.signatureRequested && receipt.sdkReportedSuccess &&
    receipt.requiresFinalizedReadback && !receipt.evidenceComplete &&
    decide (receipt.maxTransactionFeeRao = TestnetProvisioning.maxTransactionFeeRao)

/-- The snapshot amounts are in range and rendered exactly. -/
def snapshotAmounts : Prop :=
  0 ≤ receipt.creationCostSnapshotRao ∧ 0 < receipt.authorizedWalletBalanceSnapshotRao ∧
    receipt.authorizedWalletBalanceSnapshotRao ≤ maxCreationWalletBalanceRao ∧
    receipt.creationCostSnapshotTao = taoString receipt.creationCostSnapshotRao ∧
    receipt.authorizedWalletBalanceSnapshotTao =
      taoString receipt.authorizedWalletBalanceSnapshotRao

/-- The actual price, its rendering and its comparison are there together. -/
def actualPrice : Prop :=
  match receipt.actualRegistrationPriceRao with
  | none => receipt.actualRegistrationPriceTao = none ∧
      receipt.snapshotReviewCapExceededAtInclusion = none
  | some price => 0 ≤ price ∧ receipt.actualRegistrationPriceTao = some (taoString price) ∧
      receipt.snapshotReviewCapExceededAtInclusion =
        some (decide (maxSubnetCreationReviewCostRao < price))

instance snapshotAmountsDecidable : Decidable receipt.snapshotAmounts :=
  inferInstanceAs (Decidable (_ ∧ _))

instance actualPriceDecidable : Decidable receipt.actualPrice := by
  unfold actualPrice
  cases receipt.actualRegistrationPriceRao with
  | none => exact inferInstanceAs (Decidable (_ ∧ _))
  | some price => exact inferInstanceAs (Decidable (_ ∧ _))

end ProvisionReceiptBody

/-- The checks on the coordinates that a receipt names. -/
def checkCoordinates (receipt : ProvisionReceiptBody) : Except Raised Unit := do
  require ((0 < receipt.netuid ∧ receipt.netuid ≤ maxNetuid) ∧ 0 ≤ receipt.sourceBlock ∧
      0 ≤ receipt.preSubmitBlock)
    (.valueError "provision receipt contains an invalid chain location".toList)
  require (receipt.sourceBlock ≤ receipt.preSubmitBlock)
    (.valueError "provision receipt source block is later than its pre-submit block".toList)
  require (isBlockHash receipt.preSubmitBlockHash = true)
    (.valueError "provision receipt contains an invalid pre-submit block hash".toList)
  require (receipt.includingBlockHash ≠ none)
    (.valueError "provision receipt is missing its finalized including block hash".toList)
  require (receipt.includingBlockHash.any isBlockHash = true)
    (.valueError "provision receipt contains an invalid including block hash".toList)
  require (receipt.extrinsicId.any (fun identifier => !identifier.isEmpty) = true)
    (.valueError "provision receipt is missing its extrinsic identifier".toList)
  require ("sha256:".toList.isPrefixOf receipt.sourcePlanDigest = true ∧
      receipt.sourcePlanDigest.length = 71)
    (.valueError "provision receipt contains an invalid source digest".toList)

/-- `_validated_provision_receipt_digest`. -/
def validatedProvisionReceiptDigest (receipt : TestnetProvisionSubmissionReceipt) :
    Except Raised Text := do
  require (receipt.fixedBoundary = true)
    (.valueError "provision receipt violates the fixed testnet safety boundary".toList)
  checkCoordinates receipt.toProvisionReceiptBody
  validatePublicSs58 receipt.coldkeySs58
  validatePublicSs58 receipt.ownerHotkeySs58
  require (receipt.coldkeySs58 ≠ receipt.ownerHotkeySs58)
    (.valueError "provision receipt reuses its coldkey as the owner hotkey".toList)
  require receipt.snapshotAmounts
    (.valueError "provision receipt contains invalid snapshot amounts".toList)
  require (∀ mode ∈ receipt.registrationMode, mode = "immediate".toList ∨ mode = "queued".toList)
    (.valueError "provision receipt contains an invalid registration mode".toList)
  require receipt.actualPrice
    (.valueError "provision receipt contains an inconsistent actual price".toList)
  require (receipt.receiptDigest ≠ none) (.valueError "provision receipt has no digest".toList)
  let expected := receiptDigestPayload receipt.toProvisionReceiptBody
  require (receipt.receiptDigest = some expected)
    (.valueError "provision receipt digest mismatch".toList)
  return expected

/-- `load_testnet_provision_receipt`; `parse` reads the text of a JSON document. -/
def loadTestnetProvisionReceipt (parse : Bytes → Option Json) (file : Except Text Bytes) :
    Except Raised TestnetProvisionSubmissionReceipt := do
  let receipt ← (SavedModel.ofFile parse file).load "provision receipt".toList
  let _ ← validatedProvisionReceiptDigest receipt
  return receipt

end Validation

section Submission

/-- A wallet, by the readings of its public keys. -/
structure SigningWallet where
  /-- `wallet.coldkeypub.ss58_address`. -/
  coldkeySs58 : Except Raised Text
  /-- `wallet.hotkeypub.ss58_address`. -/
  hotkeySs58 : Except Raised Text

/-- What the SDK reports of a creation. -/
structure ExtrinsicResult (V : Type) where
  success : Bool
  blockHash : Option Text
  extrinsicId : Option Text
  explorerUrl : Option Text
  fee : Option V
  /-- `data.get(name)`. -/
  data : Text → Option V

/-- The arguments of the submitter. -/
structure Invocation where
  wallet : SigningWallet
  ownerHotkeySs58 : Text

/-- The arguments of a call and what surrounds it. -/
structure Submission (V : Type) where
  source : TestnetProvisionPlan
  authorizePlanDigest : Text
  acknowledgeDynamicCost : Bool
  walletAlias : Text := walletAlias
  ownerHotkeyAlias : Text := ownerHotkeyAlias
  maxPlanAgeBlocks : Int := 12
  /-- `plan_collector(identities_path)`. -/
  planCollector : Except Raised TestnetProvisionPlan
  walletFactory : Text → Text → Except Raised SigningWallet
  submitter : Invocation → Except Raised (ExtrinsicResult V)
  /-- `clock().astimezone(UTC).isoformat()`. -/
  clock : Text

/-- What the checks before the submission establish. -/
structure Prepared where
  digest : Text
  wallet : SigningWallet
  fresh : TestnetProvisionPlan
  sourceBlock : Int
  preSubmitBlock : Int
  preSubmitBlockHash : Text
  runtimeSpecVersion : Int
  cost : Int
  balance : Int

/-- The coordinates of the plans; a validated source has its block. -/
def freshCoordinates (source fresh : TestnetProvisionPlan) :
    Except Raised (Int × Int × Text × Int × Int × Int) :=
  match source.block, fresh.block, fresh.blockHash, fresh.runtimeSpecVersion,
    fresh.subnetCreationCostRao, fresh.coldkeyBalanceRao with
  | some sourceBlock, some block, some blockHash, some runtimeSpecVersion, some cost,
    some balance => .ok (sourceBlock, block, blockHash, runtimeSpecVersion, cost, balance)
  | _, _, _, _, _, _ =>
    .error (.valueError "fresh provision plan has incomplete chain coordinates".toList)

variable {V : Type}

/-- `submit_testnet_provision_plan`, before it invokes the submitter. -/
def prepareSubmission (call : Submission V) : Except Raised Prepared := do
  let digest ← validatedProvisionPlanDigest call.source
  require (call.authorizePlanDigest = digest)
    (.valueError "authorized digest does not match the saved provision plan".toList)
  require (call.acknowledgeDynamicCost = true)
    (.valueError ("runtime price has no on-chain limit; " ++
      "explicitly acknowledge execution-block risk").toList)
  require (call.walletAlias = walletAlias ∧ call.ownerHotkeyAlias = ownerHotkeyAlias)
    (.valueError "submission is pinned to planrace-testnet and validator-00".toList)
  require (1 ≤ call.maxPlanAgeBlocks ∧ call.maxPlanAgeBlocks ≤ 24)
    (.valueError "max plan age must be between 1 and 24 blocks".toList)
  let fresh ← call.planCollector
  requireFreshEquivalentPlan call.source fresh call.maxPlanAgeBlocks
  let (sourceBlock, block, blockHash, runtimeSpecVersion, cost, balance) ←
    freshCoordinates call.source fresh
  require (balance ≤ maxTestnetBudgetRao)
    (.valueError "fresh wallet exposure exceeds the approved testnet budget".toList)
  let wallet ← call.walletFactory call.walletAlias call.ownerHotkeyAlias
  let coldkey ← wallet.coldkeySs58
  require (coldkey = fresh.coldkeySs58)
    (.valueError "local signing coldkey does not match the authorized plan".toList)
  let hotkey ← wallet.hotkeySs58
  require (hotkey = fresh.ownerHotkeySs58)
    (.valueError "local owner hotkey does not match the authorized plan".toList)
  return ⟨digest, wallet, fresh, sourceBlock, block, blockHash, runtimeSpecVersion, cost, balance⟩

variable [PythonObject V]

open PythonObject

/-- `_optional_nonnegative_int`. -/
def optionalNonnegativeInt (value : Option V) : Except Raised (Option Int) := do
  let output ← optionalInt value
  return output.filter fun i => 0 ≤ i

/-- `_fee_tao`. -/
def feeTao (fee : Option V) : Except Raised (Option Text) :=
  match present fee with
  | none => .ok none
  | some value => do
    let tao ← getattr value "tao".toList
    match present tao with
    | none => return none
    | some tao =>
      let text ← str tao
      return some text
where
  /-- A value that is not `None`. -/
  present (item : Option V) : Option V := item.filter fun value => !isNone value

/-- `str(result.data["registration_mode"])`, when it is not `None`. -/
def registrationMode (result : ExtrinsicResult V) : Except Raised (Option Text) :=
  match feeTao.present (result.data "registration_mode".toList) with
  | none => .ok none
  | some mode => do
    let text ← str mode
    return some text

/-- The netuid of a created subnet, not the root. -/
def createdNetuid (result : ExtrinsicResult V) : Except Raised Int := do
  match ← optionalNonnegativeInt (result.data "netuid".toList) with
  | none => throw (.runtimeError
      "successful subnet creation result did not contain a non-root netuid".toList)
  | some netuid =>
    require (0 < netuid ∧ netuid ≤ maxNetuid) (.runtimeError
      "successful subnet creation result did not contain a non-root netuid".toList)
    return netuid

def nextAction : Text :=
  ("Verify the finalized subnet owner, validator-00 UID 0 binding, locked price, " ++
    "and extrinsic before any activation or additional registration.").toList

/-- The fields of the receipt of a creation. -/
def receiptBody (call : Submission V) (prepared : Prepared) (result : ExtrinsicResult V)
    (netuid : Int) (actualPrice : Option Int) (mode fee : Option Text) : ProvisionReceiptBody where
  sdkVersion := prepared.fresh.sdkVersion
  sourcePlanDigest := prepared.digest
  sourceBlock := prepared.sourceBlock
  preSubmitBlock := prepared.preSubmitBlock
  preSubmitBlockHash := prepared.preSubmitBlockHash
  runtimeSpecVersion := prepared.runtimeSpecVersion
  walletAlias := call.walletAlias
  coldkeySs58 := prepared.fresh.coldkeySs58
  ownerHotkeyAlias := call.ownerHotkeyAlias
  ownerHotkeySs58 := prepared.fresh.ownerHotkeySs58
  creationCostSnapshotRao := prepared.cost
  creationCostSnapshotTao := taoString prepared.cost
  authorizedWalletBalanceSnapshotRao := prepared.balance
  authorizedWalletBalanceSnapshotTao := taoString prepared.balance
  maxTransactionFeeRao := maxTransactionFeeRao
  sdkReportedSuccess := true
  netuid := netuid
  registrationMode := mode
  actualRegistrationPriceRao := actualPrice
  actualRegistrationPriceTao := actualPrice.map taoString
  snapshotReviewCapExceededAtInclusion := actualPrice.map fun price =>
    decide (prepared.fresh.maxSubnetCreationReviewCostRao < price)
  includingBlockHash := result.blockHash
  extrinsicId := result.extrinsicId
  explorerUrl := result.explorerUrl
  feeTao := fee
  submittedAt := call.clock

/-- The receipt of a successful creation. -/
def receiptOf (call : Submission V) (prepared : Prepared) (result : ExtrinsicResult V) :
    Except Raised TestnetProvisionSubmissionReceipt := do
  require (result.success = true)
    (.runtimeError "Bittensor SDK reported unsuccessful testnet subnet creation".toList)
  let netuid ← createdNetuid result
  let actualPrice ← optionalNonnegativeInt (result.data "registration_price_rao".toList)
  let mode ← registrationMode result
  let fee ← feeTao result.fee
  let body := receiptBody call prepared result netuid actualPrice mode fee
  return {
    toProvisionReceiptBody := body
    receiptDigest := some (receiptDigestPayload body)
    nextAction := nextAction }

/-- `submit_testnet_provision_plan`: the invocations of the submitter that a call
makes, and what it returns. -/
def submitTestnetProvisionPlan (call : Submission V) :
    List Invocation × Except Raised TestnetProvisionSubmissionReceipt :=
  match prepareSubmission call with
  | .error e => ([], .error e)
  | .ok prepared =>
    let invocation : Invocation := ⟨prepared.wallet, prepared.fresh.ownerHotkeySs58⟩
    ([invocation], do
      let result ← call.submitter invocation
      receiptOf call prepared result)

end Submission

end ProvisionSubmission
