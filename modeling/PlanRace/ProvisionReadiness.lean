import PlanRace.TestnetProvisioning

/-!
# Ready provision plans are the acceptable ones

The collector's gates and the checks on a saved plan are written separately. On
the plans that are collected they agree, before and after a plan is saved.
-/

namespace ProvisionReadiness

open JsonText ByteStrings CanonicalJson JsonSchema PythonObjects ChainReplies
  TestnetProvisioning Fallible

section Manifests

variable {manifest : PublicIdentityManifest} {registrations : List (Text × List Int)}

theorem mapM_validate_iff {addresses : List Text} :
    (∃ units, addresses.mapM validatePublicSs58 = .ok units) ↔
      ∀ address ∈ addresses, isPublicSs58 address = true := by
  constructor
  · rintro ⟨units, h⟩ address haddress
    obtain ⟨_, -, valid⟩ := ok_of_mapM h address haddress
    exact validatePublicSs58_ok_iff.mp valid
  · intro all
    have each : ∀ address ∈ addresses, ∃ u, validatePublicSs58 address = .ok u ∧ True :=
      fun address haddress => ⟨⟨⟩, validatePublicSs58_ok_iff.mpr (all address haddress), trivial⟩
    obtain ⟨units, h, -⟩ := exists_mapM each
    exact ⟨units, h⟩

/-- The manifests that `load_public_identities` returns. -/
structure Admitted (manifest : PublicIdentityManifest) : Prop where
  coldkey : isPublicSs58 manifest.coldkeySs58 = true
  validators : manifest.validators.map IdentityEntry.name = validatorAliases
  miners : manifest.miners.map IdentityEntry.name = minerAliases
  hotkeys : ∀ hotkey ∈ manifest.hotkeys, isPublicSs58 hotkey = true
  distinct : manifest.hotkeys.Nodup
  separate : manifest.coldkeySs58 ∉ manifest.hotkeys

theorem admitted_of_loaded {identities : SavedModel PublicIdentityManifest}
    (h : loadPublicIdentities identities = .ok manifest) : Admitted manifest := by
  obtain ⟨loaded, -, h⟩ := bind_ok h
  obtain ⟨_, coldkey, h⟩ := bind_ok h
  obtain ⟨_, -, h⟩ := bind_ok h
  obtain ⟨_, validators, h⟩ := bind_ok h
  obtain ⟨_, miners, h⟩ := bind_ok h
  obtain ⟨_, hotkeys, h⟩ := bind_ok h
  obtain ⟨_, unique, h⟩ := bind_ok h
  obtain ⟨_, -, h⟩ := bind_ok h
  cases h
  exact ⟨validatePublicSs58_ok_iff.mp coldkey, require_ok_iff.mp validators,
    require_ok_iff.mp miners, mapM_validate_iff.mp ⟨_, hotkeys⟩, (require_ok_iff.mp unique).1,
    (require_ok_iff.mp unique).2⟩

theorem ownerHotkey_head {owner : Text} (h : ownerHotkey manifest = .ok owner) :
    manifest.hotkeys.head? = some owner := by
  unfold ownerHotkey at h
  split at h
  next => cases h
  next entry rest shown =>
    cases h
    rw [PublicIdentityManifest.hotkeys, shown]
    rfl

theorem map_rolesOf {α : Type} (f : ProvisionRole → α) (validator miner : IdentityEntry → α)
    (hvalidator : ∀ item : IdentityEntry, f {
      role := .validator
      roleAlias := item.name
      hotkeySs58 := item.hotkeySs58
      registeredNetuids := (Dict.get? registrations item.hotkeySs58).getD []
      createdWithSubnet := decide (item.name = ownerHotkeyAlias)
      requiresBurnRegistration := decide (item.name ≠ ownerHotkeyAlias) } = validator item)
    (hminer : ∀ item : IdentityEntry, f {
      role := .miner
      roleAlias := item.name
      hotkeySs58 := item.hotkeySs58
      registeredNetuids := (Dict.get? registrations item.hotkeySs58).getD []
      createdWithSubnet := false
      requiresBurnRegistration := true } = miner item) :
    (rolesOf manifest registrations).map f =
      manifest.validators.map validator ++ manifest.miners.map miner := by
  rw [rolesOf, List.map_append, List.map_map, List.map_map]
  congr 1
  · exact List.map_congr_left fun item _ => hvalidator item
  · exact List.map_congr_left fun item _ => hminer item

theorem rolesOf_hotkeys :
    (rolesOf manifest registrations).map ProvisionRole.hotkeySs58 = manifest.hotkeys := by
  rw [map_rolesOf ProvisionRole.hotkeySs58 IdentityEntry.hotkeySs58 IdentityEntry.hotkeySs58
    (fun _ => rfl) fun _ => rfl, PublicIdentityManifest.hotkeys, List.map_append]

theorem rolesOf_aliases (admitted : Admitted manifest) :
    (rolesOf manifest registrations).map ProvisionRole.roleAlias =
      validatorAliases ++ minerAliases := by
  rw [map_rolesOf ProvisionRole.roleAlias IdentityEntry.name IdentityEntry.name (fun _ => rfl)
    fun _ => rfl, admitted.validators, admitted.miners]

/-- The states of the roles are fixed by their names. -/
theorem rolesOf_states (admitted : Admitted manifest) :
    (rolesOf manifest registrations).map ProvisionRole.state =
      (List.range (expectedValidators + expectedMiners)).map expectedState := by
  have states := @map_rolesOf manifest registrations _ ProvisionRole.state
    ((fun name => (RoleKind.validator, decide (name = ownerHotkeyAlias),
      decide (name ≠ ownerHotkeyAlias))) ∘ IdentityEntry.name)
    ((fun _ => (RoleKind.miner, false, true)) ∘ IdentityEntry.name) (fun _ => rfl) fun _ => rfl
  rw [states, ← List.map_map, ← List.map_map, admitted.validators, admitted.miners]
  decide +kernel

theorem burnRegistrations_rolesOf (admitted : Admitted manifest) :
    burnRegistrations (rolesOf manifest registrations) = 12 := by
  have count : (rolesOf manifest registrations).countP ProvisionRole.requiresBurnRegistration =
      ((rolesOf manifest registrations).map ProvisionRole.state).countP fun state => state.2.2 := by
    rw [List.countP_map]
    rfl
  rw [burnRegistrations, count, rolesOf_states admitted]
  decide +kernel

theorem rolesOf_length (admitted : Admitted manifest) :
    (rolesOf manifest registrations).length = expectedValidators + expectedMiners := by
  have states := congrArg List.length (@rolesOf_states manifest registrations admitted)
  rwa [List.length_map, List.length_map, List.length_range] at states

end Manifests

section Acceptance

/-- What a plan shows that is accepted. -/
structure AcceptedRoles (report : ProvisionPlanBody) : Prop where
  length : report.roles.length = expectedValidators + expectedMiners
  aliases : report.roles.map ProvisionRole.roleAlias = validatorAliases ++ minerAliases
  addresses : ∀ hotkey ∈ report.hotkeys, isPublicSs58 hotkey = true
  distinct : report.hotkeys.Nodup
  separate : report.coldkeySs58 ∉ report.hotkeys
  owner : report.hotkeys.head? = some report.ownerHotkeySs58
  states : ∀ entry ∈ report.roles.zipIdx,
    entry.1.state = expectedState entry.2 ∧ entry.1.registeredNetuids = []
  unowned : report.coldkeyOwnedHotkeys = []
  burns : report.burnRegistrationsAfterCreation = 12

theorem checkRoles_ok_iff {report : ProvisionPlanBody} :
    checkRoles report = .ok ⟨⟩ ↔ AcceptedRoles report := by
  constructor
  · intro h
    obtain ⟨_, length, h⟩ := bind_ok h
    obtain ⟨_, aliases, h⟩ := bind_ok h
    obtain ⟨_, addresses, h⟩ := bind_ok h
    obtain ⟨_, identities, h⟩ := bind_ok h
    obtain ⟨_, states, h⟩ := bind_ok h
    obtain ⟨distinct, separate, owner⟩ := require_ok_iff.mp identities
    obtain ⟨unowned, burns⟩ := require_ok_iff.mp h
    exact ⟨require_ok_iff.mp length, require_ok_iff.mp aliases, mapM_validate_iff.mp ⟨_, addresses⟩,
      distinct, separate, owner, require_ok_iff.mp states, unowned, burns⟩
  · intro accepted
    obtain ⟨units, addresses⟩ := mapM_validate_iff.mpr accepted.addresses
    exact bind_ok_iff.mpr ⟨⟨⟩, require_ok_iff.mpr accepted.length,
      bind_ok_iff.mpr ⟨⟨⟩, require_ok_iff.mpr accepted.aliases,
      bind_ok_iff.mpr ⟨units, addresses,
      bind_ok_iff.mpr ⟨⟨⟩, require_ok_iff.mpr
        ⟨accepted.distinct, accepted.separate, accepted.owner⟩,
      bind_ok_iff.mpr ⟨⟨⟩, require_ok_iff.mpr accepted.states,
      require_ok_iff.mpr ⟨accepted.unowned, accepted.burns⟩⟩⟩⟩⟩⟩

structure AcceptedPlan (report : TestnetProvisionPlan) (numbers : PlanNumbers) : Prop where
  shown : report.numbers = some numbers
  blockHash : report.blockHash.any isBlockHash = true
  coldkey : isPublicSs58 report.coldkeySs58 = true
  owner : isPublicSs58 report.ownerHotkeySs58 = true
  boundary : report.fixedBoundary = true
  roles : AcceptedRoles report.toProvisionPlanBody
  rendered : report.subnetCreationCostTao = some (taoString numbers.cost) ∧
    report.existentialDepositTao = some (taoString numbers.deposit) ∧
    report.coldkeyBalanceTao = some (taoString numbers.balance)
  passed : report.passedEveryGate numbers = true

theorem validatedProvisionPlanDigest_ok_iff {report : TestnetProvisionPlan} {digest : Text} :
    validatedProvisionPlanDigest report = .ok digest ↔
      (∃ numbers, AcceptedPlan report numbers) ∧ report.planDigest = some digest ∧
        digest = digestPayload report.toProvisionPlanBody := by
  constructor
  · intro h
    unfold validatedProvisionPlanDigest at h
    split at h
    next => cases h
    next numbers shown =>
      obtain ⟨_, blockHash, h⟩ := bind_ok h
      obtain ⟨_, coldkey, h⟩ := bind_ok h
      obtain ⟨_, owner, h⟩ := bind_ok h
      obtain ⟨_, boundary, h⟩ := bind_ok h
      obtain ⟨_, roles, h⟩ := bind_ok h
      obtain ⟨_, rendered, h⟩ := bind_ok h
      obtain ⟨_, passed, h⟩ := bind_ok h
      obtain ⟨_, -, h⟩ := bind_ok h
      obtain ⟨_, same, h⟩ := bind_ok h
      cases h
      exact ⟨⟨numbers, shown, require_ok_iff.mp blockHash, validatePublicSs58_ok_iff.mp coldkey,
        validatePublicSs58_ok_iff.mp owner, require_ok_iff.mp boundary, checkRoles_ok_iff.mp roles,
        require_ok_iff.mp rendered, require_ok_iff.mp passed⟩, require_ok_iff.mp same, rfl⟩
  · rintro ⟨⟨numbers, accepted⟩, same, rfl⟩
    have digested : report.planDigest ≠ none := by simp [same]
    unfold validatedProvisionPlanDigest
    rw [accepted.shown]
    exact bind_ok_iff.mpr ⟨⟨⟩, require_ok_iff.mpr accepted.blockHash,
      bind_ok_iff.mpr ⟨⟨⟩, validatePublicSs58_ok_iff.mpr accepted.coldkey,
      bind_ok_iff.mpr ⟨⟨⟩, validatePublicSs58_ok_iff.mpr accepted.owner,
      bind_ok_iff.mpr ⟨⟨⟩, require_ok_iff.mpr accepted.boundary,
      bind_ok_iff.mpr ⟨⟨⟩, checkRoles_ok_iff.mpr accepted.roles,
      bind_ok_iff.mpr ⟨⟨⟩, require_ok_iff.mpr accepted.rendered,
      bind_ok_iff.mpr ⟨⟨⟩, require_ok_iff.mpr accepted.passed,
      bind_ok_iff.mpr ⟨⟨⟩, require_ok_iff.mpr digested,
      bind_ok_iff.mpr ⟨⟨⟩, require_ok_iff.mpr same, rfl⟩⟩⟩⟩⟩⟩⟩⟩⟩

end Acceptance

section Readings

variable {manifest : PublicIdentityManifest} {owner sdkVersion : Text} {runtimeSpecVersion : Int}

/-- What a chain must show for a plan to be ready. -/
structure Passes (reading : ChainReading) (manifest : PublicIdentityManifest) : Prop where
  canonical : reading.endpoint = testnetEndpoint
  pinned : reading.pinned = true
  blockHash : isBlockHash reading.blockHash = true
  unowned : reading.ownedHotkeys = []
  unregistered : ∀ role ∈ rolesOf manifest reading.registrations, role.registeredNetuids = []
  positive : 0 < reading.balanceRao
  capped : reading.balanceRao ≤ maxCreationWalletBalanceRao
  reviewed : reading.costRao ≤ maxSubnetCreationReviewCostRao
  covered : reading.costRao + reading.existentialRao + maxTransactionFeeRao ≤ reading.balanceRao

theorem errors_eq_nil_iff {reading : ChainReading} :
    reading.errors = [] ↔
      reading.endpoint = testnetEndpoint ∧ isBlockHash reading.blockHash = true := by
  simp only [ChainReading.errors, ChainReading.canonical, List.append_eq_nil_iff,
    ite_eq_left_iff, reduceCtorEq, imp_false, not_not, decide_eq_true_eq]

/-- A wallet within the exposure cap is within the budget. -/
theorem within_budget {balance : Int} (h : balance ≤ maxCreationWalletBalanceRao) :
    balance ≤ maxTestnetBudgetRao := le_trans h (by decide)

variable {reading : ChainReading}

theorem aliases_head (admitted : Admitted manifest) (registrations : List (Text × List Int)) :
    ((rolesOf manifest registrations).map ProvisionRole.roleAlias).head? =
      some ownerHotkeyAlias := by
  rw [rolesOf_aliases admitted]
  decide

theorem counts (admitted : Admitted manifest) :
    manifest.validators.length = 3 ∧ manifest.miners.length = 10 := by
  have validators := congrArg List.length admitted.validators
  have miners := congrArg List.length admitted.miners
  rw [List.length_map] at validators miners
  exact ⟨validators, miners⟩

theorem ready_iff (admitted : Admitted manifest) :
    reading.ready manifest = true ↔ Passes reading manifest := by
  have wallet : manifest.walletAlias.val = walletAlias := manifest.walletAlias.property
  have unique : ((rolesOf manifest reading.registrations).map ProvisionRole.hotkeySs58).Nodup := by
    rw [rolesOf_hotkeys]
    exact admitted.distinct
  have first := aliases_head admitted reading.registrations
  have exact3 := counts admitted
  rw [ChainReading.ready, Bool.and_eq_true, List.isEmpty_iff, errors_eq_nil_iff]
  simp only [ProvisionGates.all, ChainReading.gates, ChainReading.canonical, Bool.and_eq_true,
    decide_eq_true_eq, List.isEmpty_iff, List.all_eq_true, wallet, exact3, unique, first,
    beq_self_eq_true, and_true]
  constructor
  · rintro ⟨⟨⟨⟨⟨⟨⟨⟨⟨canonical, pinned⟩, unowned⟩, unregistered⟩, positive⟩, -⟩, capped⟩, reviewed⟩,
      covered⟩, -, blockHash⟩
    exact ⟨canonical, pinned, blockHash, unowned, unregistered, positive, capped, reviewed, covered⟩
  · intro passes
    exact ⟨⟨⟨⟨⟨⟨⟨⟨⟨passes.canonical, passes.pinned⟩, passes.unowned⟩, passes.unregistered⟩,
      passes.positive⟩, passes.positive, within_budget passes.capped⟩, passes.capped⟩,
      passes.reviewed⟩, passes.covered⟩, passes.canonical, passes.blockHash⟩

theorem gates_eq_of_all {gates gates' : ProvisionGates} (h : gates.all = true)
    (h' : gates'.all = true) : gates = gates' := by
  have full : ∀ {g : ProvisionGates}, g.all = true → g = ⟨true, true, true, true, true, true, true,
      true, true, true, true, true, true, true⟩ := by
    rintro ⟨⟩ all
    simp only [ProvisionGates.all, Bool.and_eq_true] at all
    simp only [all]
  rw [full h, full h']

/-- The numbers of a collected plan. -/
def planNumbers (reading : ChainReading) (runtimeSpecVersion : Int) : PlanNumbers :=
  ⟨reading.block, runtimeSpecVersion, reading.costRao, reading.existentialRao, reading.balanceRao⟩

theorem expectedGates_all (block : 0 ≤ reading.block) (runtime : 0 ≤ runtimeSpecVersion)
    (passes : Passes reading manifest) :
    (expectedGates (planNumbers reading runtimeSpecVersion)).all = true := by
  simp [ProvisionGates.all, expectedGates, planNumbers, block, runtime, passes.positive,
    within_budget passes.capped, passes.capped, passes.reviewed, passes.covered]

/-- Entries with expected states, by their positions. -/
theorem states_of_map {roles : List ProvisionRole} {n : Nat}
    (states : roles.map ProvisionRole.state = (List.range n).map expectedState)
    (unregistered : ∀ role ∈ roles, role.registeredNetuids = []) :
    ∀ entry ∈ roles.zipIdx,
      entry.1.state = expectedState entry.2 ∧ entry.1.registeredNetuids = [] := by
  rintro ⟨role, index⟩ hentry
  have found := List.mem_zipIdx_iff_getElem?.mp hentry
  have same := congrArg (·[index]?) states
  simp only [List.getElem?_map, found, Option.map_some] at same
  obtain ⟨position, hposition, hstate⟩ := Option.map_eq_some_iff.mp same.symm
  obtain ⟨_, listed⟩ := List.getElem?_eq_some_iff.mp hposition
  rw [List.getElem_range] at listed
  subst listed
  exact ⟨hstate.symm, unregistered role (List.mem_of_getElem? found)⟩

/-- Amounts that the chain returned are not negative. -/
structure NonnegativeReading (reading : ChainReading) : Prop where
  block : 0 ≤ reading.block
  cost : 0 ≤ reading.costRao
  existential : 0 ≤ reading.existentialRao

theorem roles_accepted (admitted : Admitted manifest) (owned : ownerHotkey manifest = .ok owner)
    (passes : Passes reading manifest) :
    AcceptedRoles (reading.body manifest owner sdkVersion runtimeSpecVersion) := by
  have hotkeys : (reading.body manifest owner sdkVersion runtimeSpecVersion).hotkeys =
      manifest.hotkeys := rolesOf_hotkeys
  refine ⟨rolesOf_length admitted, rolesOf_aliases admitted, ?_, ?_, ?_, ?_,
    states_of_map (rolesOf_states admitted) passes.unregistered, passes.unowned,
    burnRegistrations_rolesOf admitted⟩
  · rw [hotkeys]
    exact admitted.hotkeys
  · rw [hotkeys]
    exact admitted.distinct
  · rw [hotkeys]
    exact admitted.separate
  · rw [hotkeys]
    exact ownerHotkey_head owned

/-- A ready plan passes every check. -/
theorem accepted_of_passes (admitted : Admitted manifest)
    (owned : ownerHotkey manifest = .ok owner) (nonnegative : NonnegativeReading reading)
    (runtime : 0 ≤ runtimeSpecVersion) (passes : Passes reading manifest) :
    AcceptedPlan (reading.report manifest owner sdkVersion runtimeSpecVersion)
      (planNumbers reading runtimeSpecVersion) := by
  have ready := (ready_iff admitted).mpr passes
  have gates := (Bool.and_eq_true _ _ ▸ ready).1
  have expected := expectedGates_all nonnegative.block runtime passes
  have errors := errors_eq_nil_iff.mpr ⟨passes.canonical, passes.blockHash⟩
  have member : owner ∈ manifest.hotkeys := List.mem_of_head? (ownerHotkey_head owned)
  have hash : reading.blockHash ≠ [] := by
    intro none
    have valid := passes.blockHash
    rw [none] at valid
    cases valid
  refine ⟨if_pos ⟨nonnegative.block, runtime, nonnegative.cost, nonnegative.existential,
    le_of_lt passes.positive⟩, ?_, admitted.coldkey, admitted.hotkeys owner member, ?_,
    roles_accepted admitted owned passes, ⟨rfl, rfl, rfl⟩, ?_⟩
  · change Option.any isBlockHash (if reading.blockHash = [] then none else _) = true
    rw [if_neg hash]
    exact passes.blockHash
  · change (decide (reading.endpoint = testnetEndpoint) && _ && _ && _ && _ && _) = true
    rw [decide_eq_true passes.canonical]
    rfl
  · simp only [ProvisionPlanBody.passedEveryGate, Bool.and_eq_true, decide_eq_true_eq]
    exact ⟨⟨⟨⟨⟨⟨gates_eq_of_all gates expected, ready⟩, List.isEmpty_iff.mpr errors⟩, rfl⟩, rfl⟩,
      rfl⟩, gates⟩

theorem ready_of_accepted {report : TestnetProvisionPlan} {numbers : PlanNumbers}
    (accepted : AcceptedPlan report numbers) : report.readyForAuthorizedSubnetCreation = true := by
  have passed := accepted.passed
  simp only [ProvisionPlanBody.passedEveryGate, Bool.and_eq_true] at passed
  exact passed.1.1.1.1.1.2

theorem report_ready_iff (admitted : Admitted manifest)
    (owned : ownerHotkey manifest = .ok owner) (nonnegative : NonnegativeReading reading)
    (runtime : 0 ≤ runtimeSpecVersion) :
    (reading.report manifest owner sdkVersion runtimeSpecVersion).readyForAuthorizedSubnetCreation =
        true ↔
      ∃ digest, validatedProvisionPlanDigest
        (reading.report manifest owner sdkVersion runtimeSpecVersion) = .ok digest := by
  constructor
  · intro ready
    have passes := (ready_iff admitted).mp ready
    exact ⟨_, validatedProvisionPlanDigest_ok_iff.mpr
      ⟨⟨_, accepted_of_passes admitted owned nonnegative runtime passes⟩, rfl, rfl⟩⟩
  · rintro ⟨digest, validated⟩
    obtain ⟨⟨numbers, accepted⟩, -⟩ := validatedProvisionPlanDigest_ok_iff.mp validated
    exact ready_of_accepted accepted

end Readings

section Collected

variable {V : Type} [PythonObject V]

open PythonObject

/-- A client whose block and runtime version are not negative. -/
structure NonnegativeReplies (client : PinnedClient V (AccountSnapshot V)) : Prop where
  block : ∀ reply i, client.block = .ok reply → int reply = .ok i → 0 ≤ i
  runtime : ∀ reply i, client.specVersion = .ok reply → int reply = .ok i → 0 ≤ i

theorem raoOf_nonneg {value : V} {rao : Int} (h : raoOf value = .ok rao) : 0 ≤ rao := by
  obtain ⟨_, -, h⟩ := bind_ok h
  obtain ⟨amount, -, h⟩ := bind_ok h
  cases amount with
  | none => cases h
  | some amount =>
    obtain ⟨_, bound, h⟩ := bind_ok h
    cases h
    exact require_ok_iff.mp bound

theorem nonnegative_of_read {manifest : PublicIdentityManifest}
    {client : PinnedClient V (AccountSnapshot V)} {reading : ChainReading}
    (replies : NonnegativeReplies client) (h : readChain manifest client = .ok reading) :
    NonnegativeReading reading := by
  obtain ⟨_, -, h⟩ := bind_ok h
  obtain ⟨_, -, h⟩ := bind_ok h
  obtain ⟨reply, replied, h⟩ := bind_ok h
  obtain ⟨block, converted, h⟩ := bind_ok h
  obtain ⟨_, -, h⟩ := bind_ok h
  obtain ⟨_, -, h⟩ := bind_ok h
  obtain ⟨_, -, h⟩ := bind_ok h
  obtain ⟨_, -, h⟩ := bind_ok h
  obtain ⟨_, -, h⟩ := bind_ok h
  obtain ⟨_, -, h⟩ := bind_ok h
  obtain ⟨_, -, h⟩ := bind_ok h
  obtain ⟨_, -, h⟩ := bind_ok h
  obtain ⟨balance, -, h⟩ := bind_ok h
  obtain ⟨_, -, h⟩ := bind_ok h
  obtain ⟨cost, costed, h⟩ := bind_ok h
  obtain ⟨_, -, h⟩ := bind_ok h
  obtain ⟨existential, deposited, h⟩ := bind_ok h
  obtain ⟨_, -, h⟩ := bind_ok h
  obtain ⟨_, -, h⟩ := bind_ok h
  cases h
  exact ⟨replies.block reply block replied converted, raoOf_nonneg costed, raoOf_nonneg deposited⟩

/-- A plan is the report of a reading, or of an exception. -/
inductive Collected (manifest : PublicIdentityManifest) (owner : Text)
    (clientFactory : Except Raised (PinnedClient V (AccountSnapshot V))) :
    TestnetProvisionPlan → Prop
  | failed (sdkVersion : Text) (roles : List ProvisionRole) (e : Raised) :
    Collected manifest owner clientFactory (failedReport manifest owner sdkVersion roles e)
  | read {client : PinnedClient V (AccountSnapshot V)} {reading : ChainReading}
    {runtimeSpecVersion : Int} {reply : V} (sdkVersion : Text)
    (connected : clientFactory = .ok client)
    (shown : readChain manifest client = .ok reading) (version : client.specVersion = .ok reply)
    (converted : int reply = .ok runtimeSpecVersion) :
    Collected manifest owner clientFactory
      (reading.report manifest owner sdkVersion runtimeSpecVersion)

theorem collected_cases {sdkVersion : Except Raised Text}
    {identities : SavedModel PublicIdentityManifest}
    {clientFactory : Except Raised (PinnedClient V (AccountSnapshot V))}
    {report : TestnetProvisionPlan}
    (h : collectTestnetProvisionPlan sdkVersion identities clientFactory = .ok report) :
    ∃ manifest owner, loadPublicIdentities identities = .ok manifest ∧
      ownerHotkey manifest = .ok owner ∧ Collected manifest owner clientFactory report := by
  obtain ⟨manifest, loaded, h⟩ := bind_ok h
  obtain ⟨owner, owned, h⟩ := bind_ok h
  refine ⟨manifest, owner, loaded, owned, ?_⟩
  have failed : ∀ {roles : List ProvisionRole} {e : Raised},
      sdkVersion.map (failedReport manifest owner · roles e) = .ok report →
        Collected manifest owner clientFactory report := by
    intro roles e h
    cases sdkVersion with
    | error _ => cases h
    | ok version =>
      cases h
      exact .failed version roles e
  cases connected : clientFactory with
  | error e =>
    rw [connected] at h failed
    exact failed h
  | ok client =>
    rw [connected] at h failed
    obtain ⟨_, -, h⟩ := bind_ok h
    cases tried : tryPlan sdkVersion manifest owner client with
    | error raised =>
      rw [tried] at h
      exact failed h
    | ok plan =>
      rw [tried] at h
      cases h
      obtain ⟨reading, shown, tried⟩ := bind_ok tried
      obtain ⟨version, -, tried⟩ := bind_ok (mapError_ok_iff.mp tried)
      obtain ⟨reply, replied, tried⟩ := bind_ok tried
      obtain ⟨runtime, converted, tried⟩ := bind_ok tried
      cases tried
      exact .read version rfl (mapError_ok_iff.mp shown) replied converted

theorem failedReport_refused {manifest : PublicIdentityManifest} {owner sdkVersion digest : Text}
    {roles : List ProvisionRole} {e : Raised} :
    validatedProvisionPlanDigest (failedReport manifest owner sdkVersion roles e) ≠ .ok digest := by
  intro validated
  obtain ⟨⟨_, accepted⟩, -⟩ := validatedProvisionPlanDigest_ok_iff.mp validated
  cases accepted.shown

/-- A plan that is saved as a document and loaded is validated as it was. -/
theorem load_saved_ok_iff {parse : Bytes → Option Json} {saved : Bytes} {document : Json}
    {report loaded : TestnetProvisionPlan} (parsed : parse saved = some document)
    (same : document.Same (JsonModel.dump report)) :
    loadTestnetProvisionPlan parse (.ok saved) = .ok loaded ↔
      loaded = report ∧ ∃ digest, validatedProvisionPlanDigest report = .ok digest := by
  have read : (SavedModel.ofFile parse (.ok saved)).load "provision plan".toList = .ok report := by
    rw [SavedModel.ofFile, parsed, Option.bind_some, validate_of_same same]
    rfl
  rw [loadTestnetProvisionPlan, bind_ok_iff]
  constructor
  · rintro ⟨_, found, h⟩
    rw [read] at found
    cases found
    obtain ⟨digest, validated, h⟩ := bind_ok h
    cases h
    exact ⟨rfl, digest, validated⟩
  · rintro ⟨rfl, digest, validated⟩
    exact ⟨loaded, read, bind_ok_iff.mpr ⟨digest, validated, rfl⟩⟩

/-- A collected plan is ready exactly when the checks on a saved plan accept it. -/
theorem ready_iff_validated {sdkVersion : Except Raised Text}
    {identities : SavedModel PublicIdentityManifest}
    {clientFactory : Except Raised (PinnedClient V (AccountSnapshot V))}
    {report : TestnetProvisionPlan}
    (replies : ∀ client, clientFactory = .ok client → NonnegativeReplies client)
    (collected : collectTestnetProvisionPlan sdkVersion identities clientFactory = .ok report) :
    report.readyForAuthorizedSubnetCreation = true ↔
      ∃ digest, validatedProvisionPlanDigest report = .ok digest := by
  obtain ⟨manifest, owner, loaded, owned, collected⟩ := collected_cases collected
  cases collected with
  | failed sdkVersion roles e =>
    refine iff_of_false (fun ready => by cases ready) ?_
    rintro ⟨digest, validated⟩
    exact failedReport_refused validated
  | read sdkVersion connected shown version converted =>
    have nonnegative := replies _ connected
    exact report_ready_iff (admitted_of_loaded loaded) owned
      (nonnegative_of_read nonnegative shown) (nonnegative.runtime _ _ version converted)

/-- A collected plan is ready exactly when it is accepted, and exactly when it is
accepted after it was saved. -/
theorem ready_iff_accepted {sdkVersion : Except Raised Text}
    {identities : SavedModel PublicIdentityManifest}
    {clientFactory : Except Raised (PinnedClient V (AccountSnapshot V))}
    {report : TestnetProvisionPlan} {parse : Bytes → Option Json} {saved : Bytes}
    (replies : ∀ client, clientFactory = .ok client → NonnegativeReplies client)
    (collected : collectTestnetProvisionPlan sdkVersion identities clientFactory = .ok report)
    (parsed : ∃ document, parse saved = some document ∧ document.Same (JsonModel.dump report)) :
    (report.readyForAuthorizedSubnetCreation = true ↔
      ∃ digest, validatedProvisionPlanDigest report = .ok digest) ∧
    (report.readyForAuthorizedSubnetCreation = true ↔
      loadTestnetProvisionPlan parse (.ok saved) = .ok report) ∧
    ∀ loaded, loadTestnetProvisionPlan parse (.ok saved) = .ok loaded → loaded = report := by
  have accepted := ready_iff_validated replies collected
  obtain ⟨document, parsed, same⟩ := parsed
  refine ⟨accepted, accepted.trans ?_, fun loaded h => ((load_saved_ok_iff parsed same).mp h).1⟩
  rw [load_saved_ok_iff parsed same]
  exact (and_iff_right rfl).symm

end Collected

/-! A chain at the caps: the wallet holds exactly what it may hold. -/
namespace Sample

def address (c : Char) : Text := '5' :: List.replicate 47 c

def entries (aliases : List Text) (letters : List Char) : List IdentityEntry :=
  (aliases.zip letters).map fun entry => ⟨entry.1, address entry.2⟩

def manifest : PublicIdentityManifest where
  walletAlias := exactly walletAlias
  coldkeySs58 := address 'A'
  validators := entries validatorAliases "BCD".toList
  miners := entries minerAliases "EFGHJKLMNP".toList
  security := ⟨"0600".toList, false, false, "0700".toList⟩

def rao (amount : Int) : Literal Int := .dict [(.str "rao".toList, .int amount)]

/-- What a chain shows of the owned hotkeys at a block. -/
def snapshot (balance : Int) (owned : List Text) (block : Int) : AccountSnapshot (Literal Int) where
  block := .ok (.int block)
  blockInfo := .ok (.dict [(.str "number".toList, .int block),
    (.str "hash".toList, .str ("0x".toList ++ List.replicate 64 'a'))])
  networksAdded _ := .ok (.bool false)
  read _ _ := .ok .none
  readAccount name _ :=
    if name = "balance".toList then .ok (rao balance)
    else if name = "owned_hotkeys".toList then .ok (.list (owned.map .str))
    else .ok (.list [])
  readGlobal name :=
    if name = "existential_deposit".toList then .ok (rao 500) else .ok (rao 1250000000)

def client (balance : Int) (owned : List Text) (block : Int) :
    PinnedClient (Literal Int) (AccountSnapshot (Literal Int)) where
  endpoint := .ok (.str testnetEndpoint)
  block := .ok (.int block)
  specVersion := .ok (.int 454)
  atBlock block := .ok (snapshot balance owned block)
  close := .ok ()

def collect (balance : Int) (owned : List Text) (block : Int) : Except Raised TestnetProvisionPlan :=
  collectTestnetProvisionPlan (.ok "11.1.0".toList) (.parsed manifest)
    (.ok (client balance owned block))

theorem collect_ready (balance : Int) (owned : List Text) (block : Int) (ready : Bool)
    (shown : (collect balance owned block).toOption.map
      (fun plan => plan.readyForAuthorizedSubnetCreation) = some ready) :
    ∃ report, collect balance owned block = .ok report ∧
      report.readyForAuthorizedSubnetCreation = ready := by
  cases collected : collect balance owned block with
  | error e =>
    rw [collected] at shown
    cases shown
  | ok report =>
    rw [collected] at shown
    exact ⟨report, rfl, Option.some.inj shown⟩

theorem client_nonnegative {balance : Int} {owned : List Text} {block : Int} (h : 0 ≤ block) :
    NonnegativeReplies (client balance owned block) := by
  constructor
  · rintro _ i ⟨⟩ ⟨⟩
    exact h
  · rintro _ i ⟨⟩ ⟨⟩
    decide

end Sample

/-- A plan at the caps is ready, and is loaded from its canonical text. -/
theorem ready_iff_accepted_capped : ∃ report,
    Sample.collect maxCreationWalletBalanceRao [] 100 = .ok report ∧
    report.readyForAuthorizedSubnetCreation = true ∧
    ((report.readyForAuthorizedSubnetCreation = true ↔
        ∃ digest, validatedProvisionPlanDigest report = .ok digest) ∧
      (report.readyForAuthorizedSubnetCreation = true ↔
        loadTestnetProvisionPlan readCanonical
          (.ok (canonicalJsonBytes (JsonModel.dump report))) = .ok report) ∧
      ∀ loaded, loadTestnetProvisionPlan readCanonical
        (.ok (canonicalJsonBytes (JsonModel.dump report))) = .ok loaded → loaded = report) := by
  obtain ⟨report, collected, ready⟩ :=
    Sample.collect_ready maxCreationWalletBalanceRao [] 100 true (by decide +kernel)
  refine ⟨report, collected, ready, ready_iff_accepted ?_ collected
    (readCanonical_canonicalJsonBytes _)⟩
  rintro client ⟨⟩
  exact Sample.client_nonnegative (by decide)

end ProvisionReadiness
