import PlanRace.ProvisionReceipts

/-!
# Runs of subnet creations

A creation is irreversible. Over one manifest of identities the submitter is
invoked only for a plan that the chain still confirms, and it succeeds at most
once: from then on the chain shows the owner hotkey as owned.
-/

namespace CreationRuns

open JsonText PythonObjects ChainReplies TestnetProvisioning ProvisionReadiness
  ProvisionSubmission ProvisionReceipts Fallible

section Chain

variable {V : Type} [PythonObject V] {α : Type}

open PythonObject

/-- A reading at the block of a client. -/
def atClient (client : PinnedClient V (AccountSnapshot V))
    (read : AccountSnapshot V → Except Raised α) : Except Raised α := do
  let block ← int (← client.block)
  let snapshot ← client.atBlock block
  read snapshot

def readBalance (coldkey : Text) (snapshot : AccountSnapshot V) : Except Raised Int := do
  raoOf (← snapshot.readAccount "balance".toList coldkey)

def readGlobalAmount (name : Text) (snapshot : AccountSnapshot V) : Except Raised Int := do
  raoOf (← snapshot.readGlobal name)

def chainOwned (client : PinnedClient V (AccountSnapshot V)) (coldkey : Text) :
    Except Raised (List Text) :=
  atClient client fun snapshot => readOwnedHotkeys snapshot coldkey

/-- What a collected reading says of the chain. -/
structure Shows (client : PinnedClient V (AccountSnapshot V)) (manifest : PublicIdentityManifest)
    (reading : ChainReading) : Prop where
  owned : chainOwned client manifest.coldkeySs58 = .ok reading.ownedHotkeys
  balance : atClient client (readBalance manifest.coldkeySs58) = .ok reading.balanceRao
  cost : atClient client (readGlobalAmount "subnet_registration_cost".toList) =
    .ok reading.costRao
  deposit : atClient client (readGlobalAmount "existential_deposit".toList) =
    .ok reading.existentialRao
  registrations : ∃ entries, reading.registrations = Dict.update [] entries ∧
    atClient client (fun snapshot => (rolesOf manifest []).mapM (readRegistration snapshot)) =
      .ok entries

theorem atClient_ok {client : PinnedClient V (AccountSnapshot V)} {reply : V} {block : Int}
    {snapshot : AccountSnapshot V} {read : AccountSnapshot V → Except Raised α} {found : α}
    (replied : client.block = .ok reply) (converted : int reply = .ok block)
    (pinned : client.atBlock block = .ok snapshot) (h : read snapshot = .ok found) :
    atClient client read = .ok found :=
  bind_ok_iff.mpr ⟨reply, replied, bind_ok_iff.mpr ⟨block, converted,
    bind_ok_iff.mpr ⟨snapshot, pinned, h⟩⟩⟩

theorem shows_of_read {client : PinnedClient V (AccountSnapshot V)}
    {manifest : PublicIdentityManifest} {reading : ChainReading}
    (h : readChain manifest client = .ok reading) : Shows client manifest reading := by
  obtain ⟨_, -, h⟩ := bind_ok h
  obtain ⟨_, -, h⟩ := bind_ok h
  obtain ⟨reply, replied, h⟩ := bind_ok h
  obtain ⟨block, converted, h⟩ := bind_ok h
  obtain ⟨snapshot, pinned, h⟩ := bind_ok h
  obtain ⟨_, -, h⟩ := bind_ok h
  obtain ⟨_, -, h⟩ := bind_ok h
  obtain ⟨_, -, h⟩ := bind_ok h
  obtain ⟨_, -, h⟩ := bind_ok h
  obtain ⟨_, -, h⟩ := bind_ok h
  obtain ⟨_, -, h⟩ := bind_ok h
  obtain ⟨held, hheld, h⟩ := bind_ok h
  obtain ⟨balance, hbalance, h⟩ := bind_ok h
  obtain ⟨price, hprice, h⟩ := bind_ok h
  obtain ⟨cost, hcost, h⟩ := bind_ok h
  obtain ⟨floor, hfloor, h⟩ := bind_ok h
  obtain ⟨existential, hexistential, h⟩ := bind_ok h
  obtain ⟨owned, howned, h⟩ := bind_ok h
  obtain ⟨entries, hentries, h⟩ := bind_ok h
  cases h
  refine ⟨atClient_ok replied converted pinned howned,
    atClient_ok replied converted pinned (bind_ok_iff.mpr ⟨held, hheld, hbalance⟩),
    atClient_ok replied converted pinned (bind_ok_iff.mpr ⟨price, hprice, hcost⟩),
    atClient_ok replied converted pinned (bind_ok_iff.mpr ⟨floor, hfloor, hexistential⟩),
    entries, rfl, atClient_ok replied converted pinned hentries⟩

/-- A reading of the netuids of a role names the role's hotkey. -/
theorem readRegistration_key {snapshot : AccountSnapshot V} {role : ProvisionRole}
    {entry : Text × List Int} (h : readRegistration snapshot role = .ok entry) :
    entry.1 = role.hotkeySs58 := by
  obtain ⟨_, -, h⟩ := bind_ok h
  obtain ⟨_, -, h⟩ := bind_ok h
  cases h
  rfl

/-- Where no role is registered, the chain showed none for any hotkey. -/
theorem unregistered_on_chain {client : PinnedClient V (AccountSnapshot V)}
    {manifest : PublicIdentityManifest} {reading : ChainReading} (admitted : Admitted manifest)
    (shows_ : Shows client manifest reading)
    (unregistered : ∀ role ∈ rolesOf manifest reading.registrations,
      role.registeredNetuids = []) :
    ∀ role ∈ rolesOf manifest [],
      atClient client (fun snapshot => readRegistration snapshot role) =
        .ok (role.hotkeySs58, []) := by
  intro role hrole
  obtain ⟨entries, dictionary, read⟩ := shows_.registrations
  obtain ⟨reply, replied, read⟩ := bind_ok read
  obtain ⟨block, converted, read⟩ := bind_ok read
  obtain ⟨snapshot, pinned, read⟩ := bind_ok read
  have keys : Dict.keys entries = manifest.hotkeys := by
    rw [Dict.keys, ← @rolesOf_hotkeys manifest []]
    exact (map_eq_map_of_forall₂ (mapM_ok_iff.mp read) fun x y h =>
      (readRegistration_key h).symm).symm
  have distinct : (Dict.keys entries).Nodup := by
    rw [keys]
    exact admitted.distinct
  rw [Dict.update_eq_append (by rwa [List.nil_append]), List.nil_append] at dictionary
  obtain ⟨entry, hentry, hread⟩ := ok_of_mapM read role hrole
  have key := readRegistration_key hread
  have found : Dict.get? reading.registrations role.hotkeySs58 = some entry.2 := by
    rw [dictionary, Dict.get?_eq_some_iff distinct, ← key]
    exact hentry
  have listed : role.hotkeySs58 ∈
      (rolesOf manifest reading.registrations).map ProvisionRole.hotkeySs58 := by
    rw [rolesOf_hotkeys, ← @rolesOf_hotkeys manifest []]
    exact List.mem_map_of_mem hrole
  obtain ⟨shown, hshown, same⟩ := List.mem_map.mp listed
  have netuids : shown.registeredNetuids =
      (Dict.get? reading.registrations shown.hotkeySs58).getD [] := by
    rcases List.mem_append.mp hshown with h | h
    · obtain ⟨_, -, rfl⟩ := List.mem_map.mp h
      rfl
    · obtain ⟨_, -, rfl⟩ := List.mem_map.mp h
      rfl
  rw [same, found, Option.getD_some, unregistered shown hshown] at netuids
  have whole : entry = (role.hotkeySs58, []) := Prod.ext key netuids.symm
  rw [whole] at hread
  exact atClient_ok replied converted pinned hread

end Chain

section Calls

variable {V : Type} [PythonObject V]

/-- A call of `submit_testnet_provision_plan` against the replies of one client. -/
structure Call (V : Type) where
  source : TestnetProvisionPlan
  authorizePlanDigest : Text
  acknowledgeDynamicCost : Bool
  walletAlias : Text
  ownerHotkeyAlias : Text
  maxPlanAgeBlocks : Int
  walletFactory : Text → Text → Except Raised SigningWallet
  sdkVersion : Except Raised Text
  clientFactory : Except Raised (PinnedClient V (AccountSnapshot V))
  submitter : Invocation → Except Raised (ExtrinsicResult V)
  clock : Text

/-- The plan is collected by `collect_testnet_provision_plan`. -/
def Call.submission (identities : SavedModel PublicIdentityManifest) (call : Call V) :
    Submission V where
  source := call.source
  authorizePlanDigest := call.authorizePlanDigest
  acknowledgeDynamicCost := call.acknowledgeDynamicCost
  walletAlias := call.walletAlias
  ownerHotkeyAlias := call.ownerHotkeyAlias
  maxPlanAgeBlocks := call.maxPlanAgeBlocks
  planCollector := collectTestnetProvisionPlan call.sdkVersion identities call.clientFactory
  walletFactory := call.walletFactory
  submitter := call.submitter
  clock := call.clock

/-- The invocations of the submitter in a call. -/
def invocations (identities : SavedModel PublicIdentityManifest) (call : Call V) :
    List Invocation :=
  (submitTestnetProvisionPlan (call.submission identities)).1

/-- The submitter was invoked and reported success. -/
def Succeeds (identities : SavedModel PublicIdentityManifest) (call : Call V) : Prop :=
  ∃ invocation ∈ invocations identities call, ∃ result,
    call.submitter invocation = .ok result ∧ result.success = true

/-- What holds when the submitter is invoked. -/
structure Authorized (identities : SavedModel PublicIdentityManifest) (call : Call V)
    (invocation : Invocation) (manifest : PublicIdentityManifest)
    (client : PinnedClient V (AccountSnapshot V)) (cost deposit balance : Int) : Prop where
  valid : validatedProvisionPlanDigest call.source = .ok call.authorizePlanDigest
  digest : call.authorizePlanDigest = digestPayload call.source.toProvisionPlanBody
  loaded : loadPublicIdentities identities = .ok manifest
  connected : call.clientFactory = .ok client
  identity : call.source.coldkeySs58 = manifest.coldkeySs58 ∧
    ownerHotkey manifest = .ok call.source.ownerHotkeySs58
  unregistered : ∀ role ∈ rolesOf manifest [],
    atClient client (fun snapshot => readRegistration snapshot role) = .ok (role.hotkeySs58, [])
  unowned : chainOwned client manifest.coldkeySs58 = .ok []
  wallet : call.walletFactory walletAlias ownerHotkeyAlias = .ok invocation.wallet ∧
    invocation.wallet.coldkeySs58 = .ok call.source.coldkeySs58 ∧
    invocation.wallet.hotkeySs58 = .ok call.source.ownerHotkeySs58
  owner : invocation.ownerHotkeySs58 = call.source.ownerHotkeySs58
  readBalance : atClient client (readBalance manifest.coldkeySs58) = .ok balance
  readCost : atClient client (readGlobalAmount "subnet_registration_cost".toList) = .ok cost
  readDeposit : atClient client (readGlobalAmount "existential_deposit".toList) = .ok deposit
  capped : balance ≤ maxCreationWalletBalanceRao
  covered : cost + deposit + maxTransactionFeeRao ≤ balance
  sameCost : call.source.subnetCreationCostRao = some cost
  sameBalance : call.source.coldkeyBalanceRao = some balance

variable {identities : SavedModel PublicIdentityManifest}

/-- A call makes its invocation after the checks, and no other. -/
theorem mem_invocations {call : Call V} {invocation : Invocation}
    (h : invocation ∈ invocations identities call) :
    ∃ prepared, prepareSubmission (call.submission identities) = .ok prepared ∧
      invocation = ⟨prepared.wallet, prepared.fresh.ownerHotkeySs58⟩ := by
  unfold invocations submitTestnetProvisionPlan at h
  cases prepares : prepareSubmission (call.submission identities) with
  | error e =>
    rw [prepares] at h
    cases h
  | ok prepared =>
    rw [prepares] at h
    exact ⟨prepared, rfl, List.mem_singleton.mp h⟩

theorem invocations_length (call : Call V) : (invocations identities call).length ≤ 1 := by
  unfold invocations submitTestnetProvisionPlan
  cases prepareSubmission (call.submission identities) with
  | error e => exact Nat.zero_le 1
  | ok prepared => exact le_refl 1

/-- An accepted fresh plan is the report of a reading that passes every gate. -/
theorem exists_reading {sdkVersion : Except Raised Text}
    {clientFactory : Except Raised (PinnedClient V (AccountSnapshot V))}
    {fresh : TestnetProvisionPlan} {numbers : PlanNumbers}
    (collected : collectTestnetProvisionPlan sdkVersion identities clientFactory = .ok fresh)
    (accepted : AcceptedPlan fresh numbers) :
    ∃ manifest owner client reading sdk runtime, loadPublicIdentities identities = .ok manifest ∧
      ownerHotkey manifest = .ok owner ∧ clientFactory = .ok client ∧
      Shows client manifest reading ∧ Passes reading manifest ∧
      fresh = reading.report manifest owner sdk runtime := by
  obtain ⟨manifest, owner, loaded, owned, collected⟩ := collected_cases collected
  cases collected with
  | failed sdkVersion roles e => cases accepted.shown
  | @read client reading runtime reply sdk connected shown version converted =>
    have ready := ready_of_accepted accepted
    exact ⟨manifest, owner, client, reading, sdk, runtime, loaded, owned, connected,
      shows_of_read shown, (ready_iff (admitted_of_loaded loaded)).mp ready, rfl⟩

/-- An invocation is authorized. -/
theorem authorized_of_invoked {call : Call V} {invocation : Invocation}
    (h : invocation ∈ invocations identities call) :
    ∃ manifest client cost deposit balance,
      Authorized identities call invocation manifest client cost deposit balance := by
  obtain ⟨prepared, prepares, rfl⟩ := mem_invocations h
  obtain ⟨numbers, confirmed⟩ := confirmed_of_prepared prepares
  obtain ⟨manifest, owner, client, reading, sdk, runtime, loaded, owned, connected, shows_, passes,
    report⟩ := exists_reading confirmed.collected confirmed.accepted
  have valid := confirmed.valid
  rw [← confirmed.authorized] at valid
  obtain ⟨-, -, digest⟩ := validatedProvisionPlanDigest_ok_iff.mp valid
  have fields := confirmed.fields
  rw [report] at fields
  have coldkey := congrArg InvariantFields.coldkeySs58 fields
  have hotkey := congrArg InvariantFields.ownerHotkeySs58 fields
  have cost := congrArg InvariantFields.subnetCreationCostRao fields
  have balance := congrArg InvariantFields.coldkeyBalanceRao fields
  have freshColdkey : prepared.fresh.coldkeySs58 = call.source.coldkeySs58 := by
    rw [report]
    exact coldkey.symm
  have freshOwner : prepared.fresh.ownerHotkeySs58 = call.source.ownerHotkeySs58 := by
    rw [report]
    exact hotkey.symm
  have walletColdkey := confirmed.coldkey
  have walletHotkey := confirmed.hotkey
  rw [freshColdkey] at walletColdkey
  rw [freshOwner] at walletHotkey
  have opened := confirmed.wallet
  rw [confirmed.pinned.1, confirmed.pinned.2] at opened
  have unowned := shows_.owned
  rw [passes.unowned] at unowned
  refine ⟨manifest, client, reading.costRao, reading.existentialRao, reading.balanceRao, valid,
    digest, loaded, connected, ⟨coldkey, ?_⟩,
    unregistered_on_chain (admitted_of_loaded loaded) shows_ passes.unregistered, unowned,
    ⟨opened, walletColdkey, walletHotkey⟩, freshOwner, shows_.balance, shows_.cost, shows_.deposit,
    passes.capped, passes.covered, cost, balance⟩
  rw [owned]
  exact congrArg Except.ok hotkey.symm

/-- After a success, every later call reads that the coldkey owns the hotkey that
was created with the subnet. -/
def OwnedFromThenOn (identities : SavedModel PublicIdentityManifest) (calls : List (Call V)) :
    Prop :=
  calls.Pairwise fun call later => Succeeds identities call →
    ∀ client owned, later.clientFactory = .ok client →
      chainOwned client call.source.coldkeySs58 = .ok owned →
      call.source.ownerHotkeySs58 ∈ owned

/-- Every invocation of a run is authorized, one for each call, and no two calls
of a run succeed. -/
theorem created_at_most_once {calls : List (Call V)} (owns : OwnedFromThenOn identities calls) :
    (∀ call ∈ calls, (invocations identities call).length ≤ 1 ∧
      ∀ invocation ∈ invocations identities call, ∃ manifest client cost deposit balance,
        Authorized identities call invocation manifest client cost deposit balance) ∧
    calls.Pairwise fun call later =>
      Succeeds identities call → ¬ Succeeds identities later := by
  refine ⟨fun call _ => ⟨invocations_length call, fun _ => authorized_of_invoked⟩, ?_⟩
  refine owns.imp fun {call later} owned succeeds again => ?_
  have shown := owned succeeds
  obtain ⟨_, first, -⟩ := succeeds
  obtain ⟨_, second, -⟩ := again
  obtain ⟨manifest, _, _, _, _, authorized⟩ := authorized_of_invoked first
  obtain ⟨manifest', client, _, _, _, authorized'⟩ := authorized_of_invoked second
  have same : manifest = manifest' :=
    Except.ok.inj (authorized.loaded.symm.trans authorized'.loaded)
  have unowned := authorized'.unowned
  rw [← same, ← authorized.identity.1] at unowned
  exact absurd (shown client [] authorized'.connected unowned) List.not_mem_nil

end Calls

namespace Sample

open ProvisionReadiness.Sample

def created : ExtrinsicResult (Literal Int) where
  success := true
  blockHash := some ("0x".toList ++ List.replicate 64 'c')
  extrinsicId := some "105-2".toList
  explorerUrl := none
  fee := none
  data name := if name = "netuid".toList then some (.int 7) else none

def call (source : TestnetProvisionPlan) (digest : Text)
    (client : PinnedClient (Literal Int) (AccountSnapshot (Literal Int))) : Call (Literal Int) where
  source := source
  authorizePlanDigest := digest
  acknowledgeDynamicCost := true
  walletAlias := walletAlias
  ownerHotkeyAlias := ownerHotkeyAlias
  maxPlanAgeBlocks := 12
  walletFactory _ _ := .ok ProvisionReceipts.Sample.wallet
  sdkVersion := .ok "11.1.0".toList
  clientFactory := .ok client
  submitter _ := .ok created
  clock := "2026-01-01T00:00:00+00:00".toList

def before : PinnedClient (Literal Int) (AccountSnapshot (Literal Int)) :=
  client maxCreationWalletBalanceRao [] 104

/-- The chain after the creation: the coldkey owns the first validator. -/
def after : PinnedClient (Literal Int) (AccountSnapshot (Literal Int)) :=
  client maxCreationWalletBalanceRao [address 'B'] 110

theorem owned_after (coldkey : Text) : chainOwned after coldkey = .ok [address 'B'] := rfl

theorem succeeds_before : ∃ source digest, source.ownerHotkeySs58 = address 'B' ∧
    Succeeds (.parsed manifest) (call source digest before) := by
  obtain ⟨source, digest, prepared, owner, prepares⟩ := ProvisionReceipts.Sample.call_prepares
  have confirmed : prepareSubmission ((call source digest before).submission (.parsed manifest)) =
      .ok prepared := prepares created
  refine ⟨source, digest, owner, ⟨prepared.wallet, prepared.fresh.ownerHotkeySs58⟩, ?_, created,
    rfl, rfl⟩
  rw [invocations, submitTestnetProvisionPlan, confirmed]
  exact List.mem_singleton.mpr rfl

end Sample

/-- The same approved plan succeeds, and is tried again on the chain that it changed. -/
theorem created_at_most_once_twice : ∃ source digest,
    Succeeds (.parsed ProvisionReadiness.Sample.manifest)
      (Sample.call source digest Sample.before) ∧
    ((∀ call ∈ [Sample.call source digest Sample.before, Sample.call source digest Sample.after],
        (invocations (.parsed ProvisionReadiness.Sample.manifest) call).length ≤ 1 ∧
        ∀ invocation ∈ invocations (.parsed ProvisionReadiness.Sample.manifest) call,
          ∃ manifest client cost deposit balance,
            Authorized (.parsed ProvisionReadiness.Sample.manifest) call invocation manifest client
              cost deposit balance) ∧
      [Sample.call source digest Sample.before, Sample.call source digest Sample.after].Pairwise
        fun call later => Succeeds (.parsed ProvisionReadiness.Sample.manifest) call →
          ¬ Succeeds (.parsed ProvisionReadiness.Sample.manifest) later) := by
  obtain ⟨source, digest, owner, succeeds⟩ := Sample.succeeds_before
  refine ⟨source, digest, succeeds, created_at_most_once (List.pairwise_pair.mpr ?_)⟩
  rintro - _ owned ⟨⟩ shown
  have found := Except.ok.inj ((Sample.owned_after _).symm.trans shown)
  rw [← found]
  exact List.mem_singleton.mpr owner

end CreationRuns
