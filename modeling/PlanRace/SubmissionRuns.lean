import PlanRace.PlanConfirmation

/-!
# Runs of weight submissions

A call invokes its submitter at most once, after every check, with one entry for
each target that the chain still binds. When the chain shows the effect of a
successful submission, the same operation does not succeed again.
-/

namespace SubmissionRuns

open JsonText PythonObjects ChainReplies WeightConformity Fallible TestnetWeights
  WeightPlanning TestnetSubmission

section Calls

variable {K : Type} [Field K] [LinearOrder K] [FloorRing K] [Rounding K] {V : Type} [PythonObject V]
  [PythonFloat V K]

/-- A call of `submit_testnet_weight_plan` against the replies of one client. -/
structure Call (K V : Type) where
  source : TestnetWeightPlanReport K
  authorizePlanDigest : Text
  hotkeyAlias : Text
  walletAlias : Text
  maxPlanAgeBlocks : Int
  walletFactory : Text → Text → Except Raised SigningWallet
  sdkVersion : Text
  clientFactory : Except Raised (Client V)
  submitter : Invocation → Except Raised (ExtrinsicResult V)
  clock : Except Raised Text

/-- The plan is collected by `collect_testnet_weight_plan`. -/
def Call.submission (floats : FloatText K) (call : Call K V) : Submission K V where
  source := call.source
  authorizePlanDigest := call.authorizePlanDigest
  hotkeyAlias := call.hotkeyAlias
  walletAlias := call.walletAlias
  maxPlanAgeBlocks := call.maxPlanAgeBlocks
  planCollector netuid validatorHotkey scoreSpecs minimum :=
    collectTestnetWeightPlan floats call.sdkVersion netuid validatorHotkey scoreSpecs minimum
      call.clientFactory
  walletFactory := call.walletFactory
  submitter := call.submitter
  clock := call.clock

/-- The invocations of the submitter in a call. -/
def invocations (floats : FloatText K) (isDigit : Char → Bool) (call : Call K V) :
    List Invocation :=
  (submitTestnetWeightPlan floats isDigit (call.submission floats)).1

/-- The submitter was invoked and reported success. -/
def Succeeds (floats : FloatText K) (isDigit : Char → Bool) (call : Call K V) : Prop :=
  ∃ invocation ∈ invocations floats isDigit call, ∃ result,
    call.submitter invocation = .ok result ∧ result.success = .ok true

/-- The hotkeys of a subnet at the client's block. -/
def chainHotkeys (client : Client V) (netuid : Int) : Except Raised (List Text) := do
  let block ← PythonObject.int (← client.block)
  let snapshot ← client.atBlock block
  hotkeysOf (← snapshot.read "metagraph".toList netuid)

/-- What the chain shows of a validator at the client's block. -/
def chainReadback (client : Client V) (netuid : Int) (validatorHotkey : Text) :
    Except Raised (WeightReadback K) := do
  let block ← PythonObject.int (← client.block)
  let snapshot ← client.atBlock block
  let metagraph ← snapshot.read "metagraph".toList netuid
  let hotkeys ← hotkeysOf metagraph
  weightReadback snapshot netuid metagraph (hotkeys.idxOf? validatorHotkey)

/-- What holds when the submitter is invoked. -/
structure Authorized (floats : FloatText K) (call : Call K V) (invocation : Invocation) : Prop where
  digest : ∃ payload, completeOperation call.source = some (payload, call.authorizePlanDigest) ∧
    call.authorizePlanDigest = digestPayload floats payload
  valid : validatedPlanDigest floats call.source = .ok call.authorizePlanDigest
  signer : call.walletFactory call.walletAlias call.hotkeyAlias = .ok invocation.wallet ∧
    invocation.wallet.hotkeySs58 = .ok call.source.validatorHotkeySs58
  fresh : ∃ fresh, collectTestnetWeightPlan floats call.sdkVersion call.source.netuid
      call.source.validatorHotkeySs58 (call.source.targets.map (scoreSpec floats)) 1
        call.clientFactory = .ok fresh ∧
    Confirms call.source fresh call.maxPlanAgeBlocks ∧ call.maxPlanAgeBlocks ≤ 24
  netuid : invocation.netuid = call.source.netuid
  weights : invocation.weights =
    call.source.targets.map fun target => (target.uid, target.u16Weight)
  distinct : (Dict.keys invocation.weights).Nodup
  bound : ∃ client hotkeys, call.clientFactory = .ok client ∧
    chainHotkeys client call.source.netuid = .ok hotkeys ∧
      ∀ target ∈ call.source.targets, ∃ uid : Nat, target.uid = uid ∧
        hotkeys[uid]? = some target.hotkeySs58

omit [Field K] [LinearOrder K] [FloorRing K] [Rounding K] in
/-- The distinct UIDs of an accepted plan keep one entry for each target. -/
theorem weightsByUid_eq {targets : List (WeightTarget K)}
    (distinct : (targets.map WeightTarget.uid).Nodup) :
    weightsByUid targets = targets.map fun target => (target.uid, target.u16Weight) := by
  have keys : Dict.keys (targets.map fun target => (target.uid, target.u16Weight)) =
      targets.map WeightTarget.uid := by
    rw [Dict.keys, List.map_map]
    rfl
  refine Dict.update_eq_append ?_
  rw [List.nil_append, keys]
  exact distinct

variable {floats : FloatText K} {isDigit : Char → Bool}

omit [FloorRing K] [PythonObject V] [PythonFloat V K] in
/-- What the checks before an invocation saw. -/
theorem prepareSubmission_ok {call : Submission K V} {prepared : Prepared K}
    (h : prepareSubmission floats isDigit call = .ok prepared) :
    validatedPlanDigest floats call.source = .ok call.authorizePlanDigest ∧
      (call.walletFactory call.walletAlias call.hotkeyAlias = .ok prepared.wallet ∧
        prepared.wallet.hotkeySs58 = .ok call.source.validatorHotkeySs58) ∧
      call.planCollector call.source.netuid call.source.validatorHotkeySs58
        (call.source.targets.map (scoreSpec floats)) 1 = .ok prepared.fresh ∧
      Confirms call.source prepared.fresh call.maxPlanAgeBlocks ∧ call.maxPlanAgeBlocks ≤ 24 := by
  obtain ⟨digest, valid, h⟩ := bind_ok h
  obtain ⟨_, authorized, h⟩ := bind_ok h
  obtain ⟨_, -, h⟩ := bind_ok h
  obtain ⟨_, -, h⟩ := bind_ok h
  obtain ⟨_, age, h⟩ := bind_ok h
  obtain ⟨wallet, signer, h⟩ := bind_ok h
  obtain ⟨address, hotkey, h⟩ := bind_ok h
  obtain ⟨_, same, h⟩ := bind_ok h
  obtain ⟨fresh, collected, h⟩ := bind_ok h
  obtain ⟨_, confirmed, h⟩ := bind_ok h
  obtain ⟨⟨block, blockHash, version⟩, -, h⟩ := bind_ok h
  cases h
  rw [require_ok_iff.mp same] at hotkey
  rw [← require_ok_iff.mp authorized] at valid
  exact ⟨valid, ⟨signer, hotkey⟩, collected, requireFreshEquivalentPlan_ok_iff.mp confirmed,
    (require_ok_iff.mp age).2⟩

/-- A call makes its invocation after the checks, and no other. -/
theorem mem_invocations {call : Call K V} {invocation : Invocation}
    (h : invocation ∈ invocations floats isDigit call) :
    ∃ prepared, prepareSubmission floats isDigit (call.submission floats) = .ok prepared ∧
      invocation = ⟨call.source.netuid, weightsByUid call.source.targets, prepared.wallet⟩ := by
  unfold invocations submitTestnetWeightPlan at h
  cases prepares : prepareSubmission floats isDigit (call.submission floats) with
  | error e =>
    rw [prepares] at h
    cases h
  | ok prepared =>
    rw [prepares] at h
    exact ⟨prepared, rfl, List.mem_singleton.mp h⟩

theorem invocations_length (call : Call K V) : (invocations floats isDigit call).length ≤ 1 := by
  unfold invocations submitTestnetWeightPlan
  cases prepareSubmission floats isDigit (call.submission floats) with
  | error e => exact Nat.zero_le 1
  | ok prepared => exact le_refl 1

section Chain

variable {sdkVersion : Text} {netuid : Int} {validatorHotkey : Text} {scoreSpecs : List Text}
  {minimum : Int} {client : Client V}
  {p : Planning floats sdkVersion netuid validatorHotkey scoreSpecs minimum client}
  {metagraph : V} {hotkeys : List Text}

theorem chainHotkeys_of_shown (shown : p.Shown metagraph hotkeys) :
    chainHotkeys client netuid = .ok hotkeys := by
  obtain ⟨-, ⟨reply, hreply, hblock⟩, hsnapshot⟩ := readHeader_ok p.headerRead
  exact bind_ok_iff.mpr ⟨reply, hreply, bind_ok_iff.mpr ⟨_, hblock, bind_ok_iff.mpr
    ⟨_, hsnapshot, bind_ok_iff.mpr ⟨_, shown.replied, shown.listed⟩⟩⟩⟩

theorem chainReadback_of_shown (shown : p.Shown metagraph hotkeys) :
    chainReadback client netuid validatorHotkey = .ok p.reading.readback := by
  obtain ⟨-, ⟨reply, hreply, hblock⟩, hsnapshot⟩ := readHeader_ok p.headerRead
  exact bind_ok_iff.mpr ⟨reply, hreply, bind_ok_iff.mpr ⟨_, hblock, bind_ok_iff.mpr
    ⟨_, hsnapshot, bind_ok_iff.mpr ⟨_, shown.replied, bind_ok_iff.mpr
      ⟨_, shown.listed, shown.readback⟩⟩⟩⟩⟩

end Chain

/-- An invocation is authorized. -/
theorem authorized_of_invoked {call : Call K V} {invocation : Invocation}
    (h : invocation ∈ invocations floats isDigit call) : Authorized floats call invocation := by
  obtain ⟨prepared, prepares, rfl⟩ := mem_invocations h
  obtain ⟨valid, signer, collected, confirms, age⟩ := prepareSubmission_ok prepares
  obtain ⟨payload, weights, plan⟩ := validatedPlanDigest_ok_iff.mp valid
  obtain ⟨_, uids, -⟩ := bind_ok plan.vector
  have distinct : (call.source.targets.map WeightTarget.uid).Nodup := require_ok_iff.mp uids
  have entries := weightsByUid_eq distinct
  obtain ⟨client, factory, p, fresh⟩ := exists_planning collected confirms.ready
  obtain ⟨metagraph, hotkeys, shown⟩ := p.exists_shown
  have ready := confirms.ready
  rw [fresh] at ready
  obtain ⟨_, _, -, -, targeted⟩ := p.targeted ready shown
  have targets : call.source.targets = p.reading.targets := by
    have same := confirms.targets
    rw [fresh] at same
    exact same
  refine ⟨⟨payload, plan.complete, plan.digest⟩, valid, signer, ⟨prepared.fresh, collected,
    confirms, age⟩, rfl, entries, ?_, client, hotkeys, factory, chainHotkeys_of_shown shown, ?_⟩
  · dsimp only
    rw [entries, Dict.keys, List.map_map]
    exact distinct
  · intro target htarget
    rw [targets] at htarget
    obtain ⟨_, -, _, of⟩ := targeted.exists_entry htarget
    obtain ⟨uid, hindex, huid⟩ := of.uid
    exact ⟨uid, huid, getElem?_of_idxOf? hindex⟩

/-- A confirmed source reads back what the chain shows of its validator. -/
theorem readback_of_authorized {call : Call K V} {invocation : Invocation}
    (h : Authorized floats call invocation) :
    ∃ client, call.clientFactory = .ok client ∧
      chainReadback client call.source.netuid call.source.validatorHotkeySs58 =
        .ok call.source.currentReadback := by
  obtain ⟨fresh, collected, confirms, -⟩ := h.fresh
  obtain ⟨client, factory, p, rfl⟩ := exists_planning collected confirms.ready
  obtain ⟨metagraph, hotkeys, shown⟩ := p.exists_shown
  have same : call.source.currentReadback = p.reading.readback :=
    congrArg InvariantFields.currentReadback confirms.fields
  rw [same]
  exact ⟨client, factory, chainReadback_of_shown shown⟩

/-- After a success, every later call reads of the validator a last update after
the plan's block and after the one that the successful call read. -/
def Advances (floats : FloatText K) (isDigit : Char → Bool) (calls : List (Call K V)) : Prop :=
  calls.Pairwise fun call later => Succeeds floats isDigit call →
    ∀ client client' (before after : WeightReadback K), call.clientFactory = .ok client →
      later.clientFactory = .ok client' →
      chainReadback client call.source.netuid call.source.validatorHotkeySs58 =
        .ok before →
      chainReadback client' call.source.netuid call.source.validatorHotkeySs58 =
        .ok after →
      ∃ update, after.lastUpdate = some update ∧ (∀ block ∈ call.source.block, block < update) ∧
        ∀ earlier ∈ before.lastUpdate, earlier < update

/-- Every invocation of a run is authorized, one for each call, and no operation
succeeds twice. -/
theorem submissions_authorized_once {calls : List (Call K V)}
    (advances : Advances floats isDigit calls) :
    (∀ call ∈ calls, (invocations floats isDigit call).length ≤ 1 ∧
      ∀ invocation ∈ invocations floats isDigit call, Authorized floats call invocation) ∧
    calls.Pairwise fun call later =>
      completeOperation later.source = completeOperation call.source →
        Succeeds floats isDigit call → ¬ Succeeds floats isDigit later := by
  refine ⟨fun call _ => ⟨invocations_length call, fun _ => authorized_of_invoked⟩, ?_⟩
  refine advances.imp fun {call later} moves same succeeds again => ?_
  have update := moves succeeds
  obtain ⟨_, first, -⟩ := succeeds
  obtain ⟨_, second, -⟩ := again
  have authorized := authorized_of_invoked first
  have authorized' := authorized_of_invoked second
  obtain ⟨client, factory, before⟩ := readback_of_authorized authorized
  obtain ⟨client', factory', after⟩ := readback_of_authorized authorized'
  obtain ⟨payload, complete, -⟩ := authorized.digest
  have source := payload_of_complete complete
  obtain ⟨payload', complete', -⟩ := authorized'.digest
  have later' := payload_of_complete complete'
  rw [same, complete] at complete'
  obtain ⟨rfl, -⟩ := Prod.mk.inj (Option.some.inj complete')
  rw [← later'.1, ← later'.2.1, ← later'.2.2, source.1, source.2.1, source.2.2] at after
  obtain ⟨last, shown, -, moved⟩ := update client client' _ _ factory factory' before after
  exact absurd (moved last shown) (lt_irrefl last)

/-- A collected ready plan has coordinates: the last check before an invocation passes. -/
theorem freshCoordinates_of_ready {sdkVersion : Text} {netuid : Int} {validatorHotkey : Text}
    {scoreSpecs : List Text} {minimum : Int} {factory : Except Raised (Client V)}
    {fresh : TestnetWeightPlanReport K}
    (collected : collectTestnetWeightPlan floats sdkVersion netuid validatorHotkey scoreSpecs
      minimum factory = .ok fresh) (ready : fresh.readyForAuthorizedSubmission = true) :
    ∃ coordinates, freshCoordinates fresh = .ok coordinates := by
  obtain ⟨_, -, p, rfl⟩ := exists_planning collected ready
  have hash : p.header.blockHash ≠ [] := by
    intro none
    have valid := (Planning.passed ready).blockHash
    rw [none] at valid
    cases valid
  have shown : p.report.blockHash = some p.header.blockHash := if_neg hash
  rw [freshCoordinates, shown]
  exact ⟨_, rfl⟩

end Calls

namespace Sample

open PlanReadiness.Sample

/-- The metagraph after an update of the validator's weights. -/
def movedMetagraph : Literal ℚ :=
  .dict [named "hotkeys" (.list [.str validator, .str (hotkey 'B'), .str (hotkey 'C')]),
    named "validator_permit" (.list [.bool true, .bool false, .bool false]),
    named "owner_hotkey" (.str validator),
    named "last_update" (.list [.int 105, .int 0, .int 0])]

def moved : Client (Literal ℚ) where
  endpoint := .ok (.str testnetEndpoint)
  block := .ok (.int 110)
  specVersion _ := .ok (.int 300)
  atBlock block := .ok {
    block := .ok (.int block)
    blockInfo := (snapshot reported block).blockInfo
    networksAdded := (snapshot reported block).networksAdded
    read := fun name netuid =>
      if name = "metagraph".toList then .ok movedMetagraph
      else (snapshot reported block).read name netuid }
  close := .ok ()

def wallet : SigningWallet := ⟨.ok validator⟩

def accepted : ExtrinsicResult (Literal ℚ) :=
  ⟨.ok true, .ok none, .ok none, .ok none, .ok none, .ok none⟩

def call (source : TestnetWeightPlanReport ℚ) (digest : Text) (client : Client (Literal ℚ)) :
    Call ℚ (Literal ℚ) where
  source := source
  authorizePlanDigest := digest
  hotkeyAlias := "validator-1".toList
  walletAlias := walletAlias
  maxPlanAgeBlocks := 12
  walletFactory _ _ := .ok wallet
  sdkVersion := "11.1.0".toList
  clientFactory := .ok client
  submitter _ := .ok accepted
  clock := .ok "2026-01-01T00:00:00+00:00".toList

def again : Client (Literal ℚ) := client reported 104

theorem lastUpdate_again : (chainReadback (K := ℚ) again 7 validator).toOption.map
    WeightReadback.lastUpdate = some (some 50) := by
  decide +kernel

theorem lastUpdate_moved : (chainReadback (K := ℚ) moved 7 validator).toOption.map
    WeightReadback.lastUpdate = some (some 105) := by
  decide +kernel

theorem lastUpdate_of_ok {client : Client (Literal ℚ)} {readback : WeightReadback ℚ}
    {update : Option Int} (shown : (chainReadback (K := ℚ) client 7 validator).toOption.map
      WeightReadback.lastUpdate = some update)
    (h : chainReadback client 7 validator = .ok readback) : readback.lastUpdate = update := by
  rw [h] at shown
  exact Option.some.inj shown

/-- A plan that the fresh plan of the chain confirms is submitted. -/
theorem succeeds_of_reconfirmed {source : TestnetWeightPlanReport ℚ} {digest : Text}
    (valid : validatedPlanDigest floats source = .ok digest)
    (signer : source.validatorHotkeySs58 = validator)
    (confirmed : PlanConfirmation.reconfirm floats "11.1.0".toList source (.ok again) 12 =
      .ok ⟨⟩) : Succeeds floats Char.isDigit (call source digest again) := by
  obtain ⟨fresh, collected, confirms⟩ := bind_ok confirmed
  obtain ⟨⟨block, blockHash, version⟩, coordinates⟩ := freshCoordinates_of_ready collected
    (requireFreshEquivalentPlan_ok_iff.mp confirms).ready
  have prepares : prepareSubmission floats Char.isDigit ((call source digest again).submission
      floats) = .ok ⟨digest, wallet, fresh, block, blockHash, version⟩ := by
    simp only [prepareSubmission, bind_ok_iff, require_ok_iff]
    exact ⟨digest, valid, ⟨⟩, rfl, ⟨⟩, rfl, ⟨⟩, rfl, ⟨⟩, (by decide : (1 : Int) ≤ 12 ∧ (12 : Int) ≤ 24),
      wallet, rfl, validator, rfl, ⟨⟩, signer.symm, fresh, collected, ⟨⟩, confirms, _, coordinates, rfl⟩
  refine ⟨⟨source.netuid, weightsByUid source.targets, wallet⟩, ?_, accepted, rfl, rfl⟩
  rw [invocations, submitTestnetWeightPlan, prepares]
  exact List.mem_singleton.mpr rfl

end Sample

/-- A plan is submitted, and submitted again once the chain shows its effect. -/
theorem submissions_authorized_twice : ∃ source digest,
    PlanReadiness.Sample.collect "1.0" PlanReadiness.Sample.reported = .ok source ∧
    Succeeds PlanReadiness.Sample.floats Char.isDigit
      (Sample.call source digest Sample.again) ∧
    ((∀ call ∈ [Sample.call source digest Sample.again, Sample.call source digest Sample.moved],
        (invocations PlanReadiness.Sample.floats Char.isDigit call).length ≤ 1 ∧
          ∀ invocation ∈ invocations PlanReadiness.Sample.floats Char.isDigit call,
            Authorized PlanReadiness.Sample.floats call invocation) ∧
      [Sample.call source digest Sample.again, Sample.call source digest Sample.moved].Pairwise
        fun call later => completeOperation later.source = completeOperation call.source →
          Succeeds PlanReadiness.Sample.floats Char.isDigit call →
            ¬ Succeeds PlanReadiness.Sample.floats Char.isDigit later) := by
  obtain ⟨source, collected, shown⟩ := PlanReadiness.Sample.collect_satisfies "1.0"
    PlanReadiness.Sample.reported (fun source => source.readyForAuthorizedSubmission &&
      decide (source.block = some 100) &&
      (PlanConfirmation.Sample.vectorPasses source).toOption.isSome &&
      (PlanConfirmation.reconfirm PlanReadiness.Sample.floats "11.1.0".toList source
        (.ok Sample.again) 12).toOption.isSome) (by decide +kernel)
  simp only [Bool.and_eq_true, decide_eq_true_eq] at shown
  obtain ⟨⟨⟨ready, block⟩, passes⟩, confirmed⟩ := shown
  obtain ⟨digest, valid⟩ := PlanConfirmation.Sample.valid_of_ready collected ready passes
  have reconfirms : PlanConfirmation.reconfirm PlanReadiness.Sample.floats "11.1.0".toList source
      (.ok Sample.again) 12 = .ok ⟨⟩ := by
    cases h : PlanConfirmation.reconfirm PlanReadiness.Sample.floats "11.1.0".toList source
        (.ok Sample.again) 12 with
    | error e =>
      rw [h] at confirmed
      cases confirmed
    | ok _ => rfl
  obtain ⟨_, -, p, rfl⟩ := exists_planning collected ready
  refine ⟨p.report, digest, collected, Sample.succeeds_of_reconfirmed valid rfl reconfirms,
    submissions_authorized_once (List.pairwise_pair.mpr ?_)⟩
  rintro - client client' before after ⟨⟩ ⟨⟩ hbefore hafter
  refine ⟨105, Sample.lastUpdate_of_ok Sample.lastUpdate_moved hafter, ?_, ?_⟩
  · intro height h
    have same := Option.some.inj (block.symm.trans h)
    omega
  · intro earlier h
    have same := Option.some.inj
      ((Sample.lastUpdate_of_ok Sample.lastUpdate_again hbefore).symm.trans h)
    omega

end SubmissionRuns
