import PlanRace.ProvisionReadiness
import PlanRace.ProvisionSubmission

/-!
# Receipts of subnet creations

A receipt is the only evidence of money that was already spent. It is written and
validated separately; the two agree wherever the reported values can be converted
at all.
-/

namespace ProvisionReceipts

open JsonText ByteStrings Sha256 CanonicalJson AsciiJson JsonSchema PythonObjects ChainReplies
  TestnetProvisioning ProvisionReadiness ProvisionSubmission Fallible

section Confirmation

variable {V : Type}

theorem numbers_eq_some {body : ProvisionPlanBody} {numbers : PlanNumbers}
    (h : body.numbers = some numbers) :
    (body.block = some numbers.block ∧
      body.runtimeSpecVersion = some numbers.runtimeSpecVersion ∧
      body.subnetCreationCostRao = some numbers.cost ∧
      body.existentialDepositRao = some numbers.deposit ∧
      body.coldkeyBalanceRao = some numbers.balance) ∧
    0 ≤ numbers.block ∧ 0 ≤ numbers.cost := by
  obtain ⟨block, hblock, h⟩ := Option.bind_eq_some_iff.mp h
  obtain ⟨runtime, hruntime, h⟩ := Option.bind_eq_some_iff.mp h
  obtain ⟨cost, hcost, h⟩ := Option.bind_eq_some_iff.mp h
  obtain ⟨deposit, hdeposit, h⟩ := Option.bind_eq_some_iff.mp h
  obtain ⟨balance, hbalance, h⟩ := Option.bind_eq_some_iff.mp h
  split_ifs at h with bounds
  cases h
  exact ⟨⟨hblock, hruntime, hcost, hdeposit, hbalance⟩, bounds.1, bounds.2.2.1⟩

/-- What the checks before an invocation saw. -/
structure Confirmed (call : Submission V) (prepared : Prepared) (numbers : PlanNumbers) :
    Prop where
  valid : validatedProvisionPlanDigest call.source = .ok prepared.digest
  authorized : call.authorizePlanDigest = prepared.digest
  pinned : call.walletAlias = walletAlias ∧ call.ownerHotkeyAlias = ownerHotkeyAlias
  collected : call.planCollector = .ok prepared.fresh
  accepted : AcceptedPlan prepared.fresh numbers
  fields : invariantFields call.source.toProvisionPlanBody =
    invariantFields prepared.fresh.toProvisionPlanBody
  source : call.source.block = some prepared.sourceBlock
  later : prepared.sourceBlock ≤ prepared.preSubmitBlock
  block : numbers.block = prepared.preSubmitBlock
  hash : prepared.fresh.blockHash = some prepared.preSubmitBlockHash
  cost : numbers.cost = prepared.cost
  balance : numbers.balance = prepared.balance
  wallet : call.walletFactory call.walletAlias call.ownerHotkeyAlias = .ok prepared.wallet
  coldkey : prepared.wallet.coldkeySs58 = .ok prepared.fresh.coldkeySs58
  hotkey : prepared.wallet.hotkeySs58 = .ok prepared.fresh.ownerHotkeySs58

theorem freshCoordinates_ok {source fresh : TestnetProvisionPlan} {sourceBlock block : Int}
    {blockHash : Text} {runtimeSpecVersion cost balance : Int}
    (h : freshCoordinates source fresh =
      .ok (sourceBlock, block, blockHash, runtimeSpecVersion, cost, balance)) :
    source.block = some sourceBlock ∧ fresh.block = some block ∧
      fresh.blockHash = some blockHash ∧ fresh.subnetCreationCostRao = some cost ∧
      fresh.coldkeyBalanceRao = some balance := by
  unfold freshCoordinates at h
  split at h
  next hsource hblock hhash hruntime hcost hbalance =>
    cases h
    exact ⟨hsource, hblock, hhash, hcost, hbalance⟩
  next => cases h

theorem requireFreshEquivalentPlan_ok {source fresh : TestnetProvisionPlan} {maxAge : Int}
    (h : requireFreshEquivalentPlan source fresh maxAge = .ok ⟨⟩) :
    (∃ numbers, AcceptedPlan fresh numbers) ∧
      (∀ sourceBlock block, source.block = some sourceBlock → fresh.block = some block →
        sourceBlock ≤ block) ∧
      invariantFields source.toProvisionPlanBody = invariantFields fresh.toProvisionPlanBody := by
  obtain ⟨digest, validated, h⟩ := bind_ok h
  obtain ⟨⟨sourceBlock, freshBlock⟩, blocks, h⟩ := bind_ok h
  obtain ⟨_, age, h⟩ := bind_ok h
  refine ⟨(validatedProvisionPlanDigest_ok_iff.mp validated).1, ?_, require_ok_iff.mp h⟩
  intro first second hfirst hsecond
  rw [planBlocks, hfirst, hsecond] at blocks
  cases blocks
  have bounds := require_ok_iff.mp age
  dsimp only at bounds
  omega

theorem confirmed_of_prepared {call : Submission V} {prepared : Prepared}
    (h : prepareSubmission call = .ok prepared) : ∃ numbers, Confirmed call prepared numbers := by
  obtain ⟨digest, valid, h⟩ := bind_ok h
  obtain ⟨_, authorized, h⟩ := bind_ok h
  obtain ⟨_, -, h⟩ := bind_ok h
  obtain ⟨_, pinned, h⟩ := bind_ok h
  obtain ⟨_, -, h⟩ := bind_ok h
  obtain ⟨fresh, collected, h⟩ := bind_ok h
  obtain ⟨_, equivalent, h⟩ := bind_ok h
  obtain ⟨⟨sourceBlock, block, blockHash, runtime, cost, balance⟩, coordinates, h⟩ := bind_ok h
  obtain ⟨_, -, h⟩ := bind_ok h
  obtain ⟨wallet, opened, h⟩ := bind_ok h
  obtain ⟨coldkey, hcoldkey, h⟩ := bind_ok h
  obtain ⟨_, sameColdkey, h⟩ := bind_ok h
  obtain ⟨hotkey, hhotkey, h⟩ := bind_ok h
  obtain ⟨_, sameHotkey, h⟩ := bind_ok h
  cases h
  obtain ⟨hsource, hblock, hhash, hcost, hbalance⟩ := freshCoordinates_ok coordinates
  obtain ⟨⟨numbers, accepted⟩, later, fields⟩ := requireFreshEquivalentPlan_ok equivalent
  obtain ⟨⟨block', -, cost', -, balance'⟩, -, -⟩ := numbers_eq_some accepted.shown
  rw [require_ok_iff.mp sameColdkey] at hcoldkey
  rw [require_ok_iff.mp sameHotkey] at hhotkey
  exact ⟨numbers, valid, require_ok_iff.mp authorized, require_ok_iff.mp pinned, collected,
    accepted, fields, hsource, later _ _ hsource hblock,
    Option.some.inj (block'.symm.trans hblock), hhash, Option.some.inj (cost'.symm.trans hcost),
    Option.some.inj (balance'.symm.trans hbalance), opened, hcoldkey, hhotkey⟩

end Confirmation

section Conversions

variable {V : Type} [PythonObject V]

open PythonObject

/-- A creation that the SDK reports as finalized. -/
structure Finalized (result : ExtrinsicResult V) : Prop where
  success : result.success = true
  blockHash : ∃ hash, result.blockHash = some hash ∧ isBlockHash hash = true
  extrinsicId : ∃ identifier, result.extrinsicId = some identifier ∧ identifier ≠ []
  mode : ∀ value, result.data "registration_mode".toList = some value → isNone value = false →
    str value = .ok "immediate".toList ∨ str value = .ok "queued".toList

end Conversions

section Validation

end Validation

section Submissions

variable {V : Type} [PythonObject V] {call : Submission V} {prepared : Prepared}
  {numbers : PlanNumbers} {result : ExtrinsicResult V}

/-- The call returns a receipt that is accepted, before and after it is saved. -/
def Kept (call : Submission V) : Prop :=
  ∃ receipt, (submitTestnetProvisionPlan call).2 = .ok receipt ∧
    (∃ digest, validatedProvisionReceiptDigest receipt = .ok digest) ∧
    ∀ parse saved document, parse saved = some document →
      document.Same (JsonModel.dump receipt) →
      loadTestnetProvisionReceipt parse (.ok saved) = .ok receipt

end Submissions

/-! A plan at the caps, confirmed four blocks later, and what the SDK may report of it. -/
namespace Sample

open ProvisionReadiness.Sample

/-- A reply of the SDK: a literal, or the float that is no number of rao. -/
inductive Reply where
  | plain (value : Literal Int)
  | infinity

instance replyObject : PythonObject Reply where
  isNone
    | .plain value => PythonObject.isNone value
    | .infinity => false
  asBool
    | .plain value => PythonObject.asBool value
    | .infinity => none
  isText
    | .plain value => PythonObject.isText value
    | .infinity => false
  hasInt
    | .plain value => PythonObject.hasInt value
    | .infinity => true
  int
    | .plain value => PythonObject.int value
    | .infinity => .error .overflowError
  str
    | .plain value => PythonObject.str value
    | .infinity => .ok "inf".toList
  truth
    | .plain value => PythonObject.truth value
    | .infinity => .ok true
  elements
    | .plain value => (PythonObject.elements value).map (List.map .plain)
    | .infinity => none
  isMapping
    | .plain value => PythonObject.isMapping value
    | .infinity => false
  get value key :=
    match value with
    | .plain value => (PythonObject.get value key).map (Option.map .plain)
    | .infinity => .error (.other "AttributeError".toList)
  items
    | .plain value => (PythonObject.items value).map (List.map fun m => (.plain m.1, .plain m.2))
    | .infinity => .error (.other "AttributeError".toList)
  getattr value name :=
    match value with
    | .plain value => (PythonObject.getattr value name).map (Option.map .plain)
    | .infinity => .ok none

def wallet : SigningWallet := ⟨.ok (address 'A'), .ok (address 'B')⟩

/-- A created subnet with a reported price. -/
def created (price : Reply) : ExtrinsicResult Reply where
  success := true
  blockHash := some ("0x".toList ++ List.replicate 64 'c')
  extrinsicId := some "105-2".toList
  explorerUrl := none
  fee := none
  data name :=
    if name = "netuid".toList then some (.plain (.int 7))
    else if name = "registration_price_rao".toList then some price
    else none

def reviewed : ExtrinsicResult Reply := created (.plain (.int 1250000000))

def infinite : ExtrinsicResult Reply := created .infinity

def call {V : Type} (source : TestnetProvisionPlan) (digest : Text) (result : ExtrinsicResult V) :
    Submission V where
  source := source
  authorizePlanDigest := digest
  acknowledgeDynamicCost := true
  planCollector := collect maxCreationWalletBalanceRao [] 104
  walletFactory _ _ := .ok wallet
  submitter _ := .ok result
  clock := "2026-01-01T00:00:00+00:00".toList

/-- What a source and a fresh plan have to show for the sample to be submitted. -/
def confirms (source fresh : TestnetProvisionPlan) : Bool :=
  source.readyForAuthorizedSubnetCreation && fresh.readyForAuthorizedSubnetCreation &&
    decide (invariantFields source.toProvisionPlanBody =
      invariantFields fresh.toProvisionPlanBody) &&
    decide (planBlocks source fresh = .ok (100, 104)) &&
    decide (freshCoordinates source fresh = .ok (100, 104, "0x".toList ++ List.replicate 64 'a',
      454, 1250000000, maxCreationWalletBalanceRao)) &&
    decide (fresh.coldkeySs58 = address 'A') && decide (fresh.ownerHotkeySs58 = address 'B')

theorem collected_confirms : (collect maxCreationWalletBalanceRao [] 100).toOption.bind (fun source =>
    (collect maxCreationWalletBalanceRao [] 104).toOption.map (confirms source)) = some true := by
  decide +kernel

theorem validated_of_ready {block : Int} (bound : 0 ≤ block) {report : TestnetProvisionPlan}
    (collected : collect maxCreationWalletBalanceRao [] block = .ok report)
    (ready : report.readyForAuthorizedSubnetCreation = true) :
    ∃ digest, validatedProvisionPlanDigest report = .ok digest := by
  refine (ready_iff_validated ?_ collected).mp ready
  rintro client ⟨⟩
  exact client_nonnegative bound

/-- The approved plan is confirmed by the chain, whatever is reported of its creation. -/
theorem call_prepares : ∃ source digest prepared, source.ownerHotkeySs58 = address 'B' ∧
    ∀ {V : Type} (result : ExtrinsicResult V),
      prepareSubmission (call source digest result) = .ok prepared := by
  have shown := collected_confirms
  obtain ⟨source, hsource, shown⟩ := Option.bind_eq_some_iff.mp shown
  obtain ⟨fresh, hfresh, shown⟩ := Option.map_eq_some_iff.mp shown
  simp only [confirms, Bool.and_eq_true, decide_eq_true_eq] at shown
  obtain ⟨⟨⟨⟨⟨⟨ready, ready'⟩, fields⟩, blocks⟩, coordinates⟩, coldkey⟩, owner⟩ := shown
  have collected : ∀ {block : Int} {plan : TestnetProvisionPlan},
      (collect maxCreationWalletBalanceRao [] block).toOption = some plan →
        collect maxCreationWalletBalanceRao [] block = .ok plan := by
    intro block plan h
    cases shown : collect maxCreationWalletBalanceRao [] block with
    | error e =>
      rw [shown] at h
      cases h
    | ok other =>
      rw [shown] at h
      exact congrArg Except.ok (Option.some.inj h)
  obtain ⟨digest, valid⟩ := validated_of_ready (by decide) (collected hsource) ready
  obtain ⟨digest', valid'⟩ := validated_of_ready (by decide) (collected hfresh) ready'
  have equivalent : requireFreshEquivalentPlan source fresh 12 = .ok ⟨⟩ :=
    bind_ok_iff.mpr ⟨digest', valid', bind_ok_iff.mpr ⟨(100, 104), blocks, bind_ok_iff.mpr
      ⟨⟨⟩, require_ok_iff.mpr (by decide), require_ok_iff.mpr fields⟩⟩⟩
  refine ⟨source, digest, ⟨digest, wallet, fresh, 100, 104, "0x".toList ++ List.replicate 64 'a',
    454, 1250000000, maxCreationWalletBalanceRao⟩,
    (congrArg InvariantFields.ownerHotkeySs58 fields).trans owner, fun result => ?_⟩
  exact bind_ok_iff.mpr ⟨digest, valid,
    bind_ok_iff.mpr ⟨⟨⟩, require_ok_iff.mpr rfl,
    bind_ok_iff.mpr ⟨⟨⟩, require_ok_iff.mpr rfl,
    bind_ok_iff.mpr ⟨⟨⟩, require_ok_iff.mpr ⟨rfl, rfl⟩,
    bind_ok_iff.mpr ⟨⟨⟩, require_ok_iff.mpr (show (1 : Int) ≤ 12 ∧ (12 : Int) ≤ 24 by decide),
    bind_ok_iff.mpr ⟨fresh, collected hfresh,
    bind_ok_iff.mpr ⟨⟨⟩, equivalent,
    bind_ok_iff.mpr ⟨_, coordinates,
    bind_ok_iff.mpr ⟨⟨⟩, require_ok_iff.mpr (by decide),
    bind_ok_iff.mpr ⟨wallet, rfl,
    bind_ok_iff.mpr ⟨address 'A', rfl,
    bind_ok_iff.mpr ⟨⟨⟩, require_ok_iff.mpr coldkey.symm,
    bind_ok_iff.mpr ⟨address 'B', rfl,
    bind_ok_iff.mpr ⟨⟨⟩, require_ok_iff.mpr owner.symm, rfl⟩⟩⟩⟩⟩⟩⟩⟩⟩⟩⟩⟩⟩⟩

end Sample

end ProvisionReceipts
