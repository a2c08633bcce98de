import PlanRace.TestnetWeights

/-!
# What a weight plan is made of

A report that is ready was planned from parsed scores and from one reading of an
existing subnet. Its targets are the scored hotkeys whose 16-bit weights are positive.
-/

namespace WeightPlanning

open JsonText LexOrder PythonObjects ChainReplies WeightConformity Fallible TestnetWeights

section Scores

variable {K : Type} [Field K] [LinearOrder K] {floats : FloatText K}

/-- Accepted scores: distinct public hotkeys, and no negative score. -/
structure PublicScores (scores : List (Text × K)) : Prop where
  distinct : (Dict.keys scores).Nodup
  isPublic : ∀ entry ∈ scores, isPublicSs58 entry.1 = true
  nonnegative : ∀ entry ∈ scores, 0 ≤ entry.2

theorem parseScore_ok {value : Text} {entry : Text × K}
    (h : parseScore floats value = .ok entry) :
    isPublicSs58 entry.1 = true ∧ 0 ≤ entry.2 := by
  obtain ⟨_, -, h⟩ := bind_ok h
  obtain ⟨_, hotkey, h⟩ := bind_ok h
  obtain ⟨score, -, h⟩ := bind_ok h
  cases score with
  | none => cases h
  | some score =>
    obtain ⟨_, nonnegative, h⟩ := bind_ok h
    cases h
    exact ⟨validatePublicSs58_ok_iff.mp hotkey, require_ok_iff.mp nonnegative⟩

theorem PublicScores.append {scores : List (Text × K)} (accepted : PublicScores scores)
    {entry : Text × K} (isPublic : isPublicSs58 entry.1 = true) (nonnegative : 0 ≤ entry.2)
    (fresh : entry.1 ∉ Dict.keys scores) : PublicScores (scores ++ [entry]) where
  distinct := by
    rw [Dict.keys_append]
    exact accepted.distinct.append (List.nodup_singleton entry.1)
      (List.disjoint_singleton.mpr fresh)
  isPublic := List.forall_mem_append.mpr
    ⟨accepted.isPublic, List.forall_mem_singleton.mpr isPublic⟩
  nonnegative := List.forall_mem_append.mpr
    ⟨accepted.nonnegative, List.forall_mem_singleton.mpr nonnegative⟩

theorem parseScores_public {values : List Text} {scores parsed : List (Text × K)}
    (accepted : PublicScores scores) (h : parseScores floats scores values = .ok parsed) :
    PublicScores parsed := by
  induction values generalizing scores with
  | nil =>
    cases h
    exact accepted
  | cons value rest ih =>
    obtain ⟨entry, parses, h⟩ := bind_ok h
    obtain ⟨_, fresh, h⟩ := bind_ok h
    obtain ⟨isPublic, nonnegative⟩ := parseScore_ok parses
    exact ih (accepted.append isPublic nonnegative (require_ok_iff.mp fresh)) h

theorem parsePublicScores_public {values : List Text} {scores : List (Text × K)}
    (h : parsePublicScores floats values = .ok scores) : PublicScores scores := by
  obtain ⟨parsed, parses, h⟩ := bind_ok h
  obtain ⟨_, -, h⟩ := bind_ok h
  cases h
  exact parseScores_public ⟨by simp [Dict.keys], by simp, by simp⟩ parses

theorem mem_positiveScores {scores : List (Text × K)} {entry : Text × K} :
    entry ∈ positiveScores scores ↔ entry ∈ scores ∧ 0 < entry.2 := by
  rw [positiveScores, mem_sortBy, List.mem_filter, decide_eq_true_eq]

theorem PublicScores.positive_distinct {scores : List (Text × K)} (accepted : PublicScores scores) :
    (Dict.keys (positiveScores scores)).Nodup := by
  have sorted := (sortBy_perm Char.toNat Prod.fst (scores.filter fun entry => 0 < entry.2)).map
    Prod.fst
  exact sorted.nodup_iff.mpr ((List.filter_sublist.map Prod.fst).nodup accepted.distinct)

/-- The plan of positive scores: each over their total. -/
def sharesOf [Rounding K] (positive : List (Text × K)) : HotkeyWeightPlan K :=
  ⟨true, none, positive.map Prod.fst,
    positive.map fun entry => rounded (entry.2 / fsum (positive.map Prod.snd))⟩

theorem planHotkeyWeights_planned [Rounding K] {scores : List (Text × K)} {minimum : Int}
    {plan : HotkeyWeightPlan K} (h : planHotkeyWeights scores minimum = .ok plan)
    (planned : plan.planned = true) : plan = sharesOf (positiveScores scores) := by
  obtain ⟨_, -, h⟩ := bind_ok h
  obtain ⟨_, -, h⟩ := bind_ok h
  obtain ⟨_, -, h⟩ := bind_ok h
  dsimp only at h
  split_ifs at h with few
  · cases h
    cases planned
  · cases h
    rfl

end Scores

section Targets

variable {K : Type} [Field K] [LinearOrder K] [Rounding K]

/-- How a target stands in a plan: for a positive score and a conformed weight. -/
structure TargetOf (scores : List (Text × K)) (hotkeys : List Text)
    (entry : ConformedWeight K) (target : WeightTarget K) (value : K) : Prop where
  position : (positiveScores scores)[entry.index]? = some (target.hotkeySs58, value)
  uid : ∃ uid : Nat, hotkeys.idxOf? target.hotkeySs58 = some uid ∧ target.uid = uid
  score : target.score = .finite value
  plannedWeight : target.plannedWeight =
    .finite (rounded (value / fsum ((positiveScores scores).map Prod.snd)))
  weight : target.weight = .finite entry.weight
  u16Weight : target.u16Weight = entry.u16Weight

theorem targetRow_targetOf {scores : List (Text × K)} (accepted : PublicScores scores)
    {minimum : Int} {plan : HotkeyWeightPlan K} (h : planHotkeyWeights scores minimum = .ok plan)
    (planned : plan.planned = true) {hotkeys : List Text} {entry : ConformedWeight K}
    {target : WeightTarget K} (row : targetRow scores plan hotkeys entry = .ok target) :
    ∃ value, TargetOf scores hotkeys entry target value := by
  have same := planHotkeyWeights_planned h planned
  have hhotkeys : plan.hotkeys = (positiveScores scores).map Prod.fst := by rw [same, sharesOf]
  have hweights : plan.weights = (positiveScores scores).map fun entry =>
      rounded (entry.2 / fsum ((positiveScores scores).map Prod.snd)) := by rw [same, sharesOf]
  unfold targetRow at row
  split at row
  next hotkey share hkey hshare =>
    split at row
    next uid score huid hscore =>
      cases row
      rw [hhotkeys, List.getElem?_map, Option.map_eq_some_iff] at hkey
      obtain ⟨⟨key, value⟩, position, rfl⟩ := hkey
      rw [hweights, List.getElem?_map, position] at hshare
      have found := (mem_positiveScores.mp (List.mem_of_getElem? position)).1
      have same : value = score := by
        rw [(Dict.get?_eq_some_iff accepted.distinct).mpr found] at hscore
        exact Option.some.inj hscore
      subst same
      exact ⟨value, position, ⟨uid, huid, rfl⟩, rfl, congrArg _ (Option.some.inj hshare).symm,
        rfl, rfl⟩
    next => cases row
  next => cases row

/-- A vector of targets by UID, one for each conformed weight. -/
structure Targeted (scores : List (Text × K)) (hotkeys : List Text)
    (entries : List (ConformedWeight K)) (targets : List (WeightTarget K)) : Prop where
  rows : ∃ rows, List.Forall₂ (fun entry target => ∃ value,
    TargetOf scores hotkeys entry target value) entries rows ∧
      targets = rows.insertionSort fun x y => x.uid ≤ y.uid

section Distinct

variable {scores : List (Text × K)} {hotkeys : List Text} {entries : List (ConformedWeight K)}
  {targets : List (WeightTarget K)}

theorem Targeted.perm_rows (targeted : Targeted scores hotkeys entries targets) :
    ∃ rows, targets.Perm rows ∧ List.Forall₂ (fun entry target => ∃ value,
      TargetOf scores hotkeys entry target value) entries rows := by
  obtain ⟨rows, related, rfl⟩ := targeted.rows
  exact ⟨rows, List.perm_insertionSort _ rows, related⟩

theorem Targeted.exists_entry (targeted : Targeted scores hotkeys entries targets)
    {target : WeightTarget K} (h : target ∈ targets) :
    ∃ entry ∈ entries, ∃ value, TargetOf scores hotkeys entry target value := by
  obtain ⟨rows, perm, related⟩ := targeted.perm_rows
  exact exists_of_forall₂ related (perm.mem_iff.mp h)

theorem Targeted.values_perm (targeted : Targeted scores hotkeys entries targets) :
    (targets.map WeightTarget.u16Weight).Perm (entries.map ConformedWeight.u16Weight) := by
  obtain ⟨rows, perm, related⟩ := targeted.perm_rows
  have same : entries.map ConformedWeight.u16Weight = rows.map WeightTarget.u16Weight :=
    map_eq_map_of_forall₂ related fun entry target ⟨_, of⟩ => of.u16Weight.symm
  rw [same]
  exact perm.map _

/-- No two targets have one hotkey. -/
theorem Targeted.hotkeys_nodup (accepted : PublicScores scores)
    (distinct : (entries.map ConformedWeight.index).Nodup)
    (targeted : Targeted scores hotkeys entries targets) :
    (targets.map WeightTarget.hotkeySs58).Nodup := by
  obtain ⟨rows, perm, related⟩ := targeted.perm_rows
  have keys := accepted.positive_distinct
  have positions : (entries.map fun entry => (Dict.keys (positiveScores scores))[entry.index]?) =
      rows.map fun target => some target.hotkeySs58 :=
    map_eq_map_of_forall₂ related fun entry target ⟨_, of⟩ => by
      rw [Dict.keys, List.getElem?_map, of.position]
      rfl
  have injective : (entries.map fun entry =>
      (Dict.keys (positiveScores scores))[entry.index]?).Nodup := by
    refine List.Nodup.map_on ?_ (List.Nodup.of_map _ distinct)
    intro x hx y hy same
    have hsome : (Dict.keys (positiveScores scores))[x.index]?.isSome := by
      have shown : (Dict.keys (positiveScores scores))[x.index]? ∈ entries.map fun entry =>
          (Dict.keys (positiveScores scores))[entry.index]? := List.mem_map_of_mem hx
      rw [positions] at shown
      obtain ⟨target, -, htarget⟩ := List.mem_map.mp shown
      rw [← htarget]
      rfl
    have bound : x.index < (Dict.keys (positiveScores scores)).length := by simpa using hsome
    exact List.inj_on_of_nodup_map distinct hx hy (((List.getElem?_inj bound keys).mp same))
  rw [positions] at injective
  have mapped : (rows.map WeightTarget.hotkeySs58).Nodup :=
    List.Nodup.of_map some (by rwa [List.map_map])
  exact (perm.map _).nodup_iff.mpr mapped

/-- No two targets have one UID. -/
theorem Targeted.uids_nodup (targeted : Targeted scores hotkeys entries targets)
    (distinct : (targets.map WeightTarget.hotkeySs58).Nodup) :
    (targets.map WeightTarget.uid).Nodup := by
  refine List.Nodup.map_on ?_ (List.Nodup.of_map _ distinct)
  intro x hx y hy same
  obtain ⟨_, -, _, ofx⟩ := targeted.exists_entry hx
  obtain ⟨_, -, _, ofy⟩ := targeted.exists_entry hy
  obtain ⟨i, hi, ui⟩ := ofx.uid
  obtain ⟨j, hj, uj⟩ := ofy.uid
  have index : i = j := by
    rw [ui, uj] at same
    exact Int.ofNat.inj same
  subst index
  have keyx := getElem?_of_idxOf? hi
  have keyy := getElem?_of_idxOf? hj
  exact List.inj_on_of_nodup_map distinct hx hy (Option.some.inj (keyx.symm.trans keyy))

end Distinct

variable [FloorRing K]

theorem proposedTargets_targeted {scores : List (Text × K)} (accepted : PublicScores scores)
    {minimum : Int} {plan : HotkeyWeightPlan K} (h : planHotkeyWeights scores minimum = .ok plan)
    {hotkeys : List Text} {limit : Option Int} {targets : List (WeightTarget K)} {clipped : Bool}
    (proposed : proposedTargets scores plan hotkeys limit = .ok (targets, clipped))
    (nonempty : targets ≠ []) :
    ∃ limit' entries, limit = some limit' ∧
      conformWeightVector (sharesOf (positiveScores scores)).weights limit' =
        .ok (entries, clipped) ∧
      Targeted scores hotkeys entries targets := by
  unfold proposedTargets at proposed
  cases limit with
  | none =>
    cases proposed
    exact absurd rfl nonempty
  | some limit =>
    dsimp only at proposed
    split_ifs at proposed with known
    · obtain ⟨⟨entries, flag⟩, conforms, proposed⟩ := bind_ok proposed
      obtain ⟨rows, hrows, proposed⟩ := bind_ok proposed
      cases proposed
      rw [planHotkeyWeights_planned h known.1] at conforms
      refine ⟨limit, entries, rfl, conforms, rows, ?_, rfl⟩
      exact (mapM_ok_iff.mp hrows).imp fun entry target row =>
        targetRow_targetOf accepted h known.1 row
    · cases proposed
      exact absurd rfl nonempty

end Targets

section Validation

variable {K : Type} [Field K] [LinearOrder K]

omit [Field K] [LinearOrder K] in
/-- A proposed operation is on the report's subnet, validator and read-back. -/
theorem payload_of_complete {report : TestnetWeightPlanReport K} {payload : DigestPayload K}
    {digest : Text} (h : completeOperation report = some (payload, digest)) :
    payload.netuid = report.netuid ∧ payload.validatorHotkey = report.validatorHotkeySs58 ∧
      payload.currentReadback = report.currentReadback := by
  simp only [completeOperation, Option.bind_eq_bind, Option.bind_eq_some_iff] at h
  obtain ⟨_, -, _, -, _, -, _, -, _, -, _, -, _, -, _, -, _, -, h⟩ := h
  split_ifs at h
  obtain ⟨rfl, -⟩ := Prod.mk.inj (Option.some.inj h)
  exact ⟨rfl, rfl, rfl⟩

/-- Everything that `_validated_plan_digest` checks of a report. -/
structure ValidPlan [Rounding K] (floats : FloatText K) (report : TestnetWeightPlanReport K)
    (payload : DigestPayload K) (digest : Text) (weights : List K) : Prop where
  complete : completeOperation report = some (payload, digest)
  validator : isPublicSs58 report.validatorHotkeySs58 = true
  location : 0 ≤ payload.netuid ∧ 0 ≤ payload.block
  blockHash : isBlockHash payload.blockHash = true
  parameters : 0 ≤ payload.minAllowedWeights ∧
    (0 < payload.maxWeightsLimit ∧ payload.maxWeightsLimit ≤ u16Max) ∧
      0 ≤ payload.weightsRateLimit ∧ 0 ≤ payload.commitRevealPeriod
  targets : report.targets.mapM (checkTarget report.validatorHotkeySs58) = .ok weights
  digest : digest = digestPayload floats payload
  passed : passedEveryGate report = true
  vector : checkVector report.targets weights payload.maxWeightsLimit = .ok ⟨⟩

theorem validatedPlanDigest_ok_iff [Rounding K] {floats : FloatText K} {report : TestnetWeightPlanReport K}
    {digest : Text} : validatedPlanDigest floats report = .ok digest ↔
      ∃ payload weights, ValidPlan floats report payload digest weights := by
  unfold validatedPlanDigest
  constructor
  · intro h
    split at h
    next => cases h
    next payload planDigest complete =>
      obtain ⟨_, validator, h⟩ := bind_ok h
      obtain ⟨_, location, h⟩ := bind_ok h
      obtain ⟨_, blockHash, h⟩ := bind_ok h
      obtain ⟨_, parameters, h⟩ := bind_ok h
      obtain ⟨weights, targets, h⟩ := bind_ok h
      obtain ⟨_, same, h⟩ := bind_ok h
      obtain ⟨_, passed, h⟩ := bind_ok h
      obtain ⟨_, vector, h⟩ := bind_ok h
      have expected := require_ok_iff.mp same
      cases h
      rw [expected] at complete
      exact ⟨payload, weights, complete, validatePublicSs58_ok_iff.mp validator,
        require_ok_iff.mp location, require_ok_iff.mp blockHash, require_ok_iff.mp parameters,
        targets, rfl, require_ok_iff.mp passed, vector⟩
  · rintro ⟨payload, weights, valid⟩
    rw [valid.complete]
    dsimp only
    simp only [bind_ok_iff, require_ok_iff]
    exact ⟨⟨⟩, validatePublicSs58_ok_iff.mpr valid.validator, ⟨⟩, valid.location, ⟨⟩,
      valid.blockHash, ⟨⟩, valid.parameters, weights, valid.targets, ⟨⟩, valid.digest, ⟨⟩,
      valid.passed, ⟨⟩, valid.vector, congrArg _ valid.digest.symm⟩

end Validation

section Planning

variable {K : Type} [Field K] [LinearOrder K] [FloorRing K] [Rounding K] {V : Type}
  [PythonObject V] [PythonFloat V K]

/-- The hyperparameters that the chain's replies show at the client's block. -/
def chainHyperparameters (client : Client V) (netuid : Int) : Except Raised Hyperparameters := do
  let block ← PythonObject.int (← client.block)
  let snapshot ← client.atBlock block
  readHyperparameters (← snapshot.read "subnet_hyperparameters".toList netuid)

/-- What a ready report was planned from. -/
structure Planning (floats : FloatText K) (sdkVersion : Text) (netuid : Int)
    (validatorHotkey : Text) (scoreSpecs : List Text) (minimum : Int) (client : Client V) where
  scores : List (Text × K)
  proposed : HotkeyWeightPlan K
  header : SnapshotHeader
  snapshot : Snapshot V
  reading : SubnetReading K
  digest : Option Text
  runtimeSpecVersion : Int
  netuidRange : 0 ≤ netuid ∧ netuid ≤ maxNetuid
  validator : isPublicSs58 validatorHotkey = true
  parsed : parsePublicScores floats scoreSpecs = .ok scores
  unscored : validatorHotkey ∉ Dict.keys scores
  planned : planHotkeyWeights scores minimum = .ok proposed
  headerRead : readHeader client = .ok (header, snapshot)
  added : testnetSubnetExists snapshot netuid = .ok true
  subnetRead : readSubnet snapshot netuid validatorHotkey scores proposed = .ok reading
  digested : plannedDigest floats client
    (proposedPayload sdkVersion netuid validatorHotkey header reading) = .ok digest
  versionRead : runtimeVersion client (if digest.isSome then 1 else 0) = .ok runtimeSpecVersion

variable {floats : FloatText K} {sdkVersion : Text} {netuid : Int} {validatorHotkey : Text}
  {scoreSpecs : List Text} {minimum : Int} {client : Client V}

def Planning.report
    (p : Planning floats sdkVersion netuid validatorHotkey scoreSpecs minimum client) :
    TestnetWeightPlanReport K :=
  reportOf sdkVersion netuid validatorHotkey p.proposed.planned p.header true p.reading p.digest
    p.runtimeSpecVersion

/-- A ready report shows a complete planning. -/
theorem exists_planning {factory : Except Raised (Client V)} {report : TestnetWeightPlanReport K}
    (collected : collectTestnetWeightPlan floats sdkVersion netuid validatorHotkey scoreSpecs
      minimum factory = .ok report)
    (ready : report.readyForAuthorizedSubmission = true) :
    ∃ client, factory = .ok client ∧
      ∃ p : Planning floats sdkVersion netuid validatorHotkey scoreSpecs minimum client,
        report = p.report := by
  obtain ⟨_, range, h⟩ := bind_ok collected
  obtain ⟨_, -, h⟩ := bind_ok h
  obtain ⟨_, validator, h⟩ := bind_ok h
  obtain ⟨scores, parsed, h⟩ := bind_ok h
  obtain ⟨_, unscored, h⟩ := bind_ok h
  obtain ⟨proposed, planned, h⟩ := bind_ok h
  cases factory with
  | error e =>
    cases h
    cases ready
  | ok client =>
    obtain ⟨_, -, h⟩ := bind_ok h
    refine ⟨client, rfl, ?_⟩
    cases plans : planReport floats sdkVersion netuid validatorHotkey scores proposed client with
    | error e =>
      rw [plans] at h
      cases h
      cases ready
    | ok shown =>
      rw [plans] at h
      cases h
      obtain ⟨⟨header, snapshot⟩, headerRead, plans⟩ := bind_ok plans
      obtain ⟨subnetExists, added, plans⟩ := bind_ok plans
      obtain ⟨reading, subnetRead, plans⟩ := bind_ok plans
      obtain ⟨digest, digested, plans⟩ := bind_ok plans
      obtain ⟨version, versionRead, plans⟩ := bind_ok plans
      cases plans
      have shown : subnetExists = true := by
        have gates : (planGates header subnetExists reading).all = true := by
          simp only [reportOf, Bool.and_eq_true] at ready
          exact ready.1.1.2
        simp only [WeightPlanGates.all, planGates, Bool.and_eq_true] at gates
        exact gates.1.1.1.1.1.1.2
      subst shown
      exact ⟨⟨scores, proposed, header, snapshot, reading, digest, version,
        require_ok_iff.mp range, validatePublicSs58_ok_iff.mp validator, parsed,
        require_ok_iff.mp unscored, planned, headerRead, added, subnetRead, digested,
        versionRead⟩, rfl⟩

/-- A client that closes gives the report of any planning from its replies. -/
theorem Planning.collected
    (p : Planning floats sdkVersion netuid validatorHotkey scoreSpecs minimum client)
    (positive : 1 ≤ minimum) (closes : client.close = .ok ()) :
    collectTestnetWeightPlan floats sdkVersion netuid validatorHotkey scoreSpecs minimum
      (.ok client) = .ok p.report := by
  have plans : planReport floats sdkVersion netuid validatorHotkey p.scores p.proposed client =
      .ok p.report :=
    bind_ok_iff.mpr ⟨_, p.headerRead, bind_ok_iff.mpr ⟨_, p.added, bind_ok_iff.mpr
      ⟨_, p.subnetRead, bind_ok_iff.mpr ⟨_, p.digested, bind_ok_iff.mpr
        ⟨_, p.versionRead, rfl⟩⟩⟩⟩⟩
  refine bind_ok_iff.mpr ⟨⟨⟩, require_ok_iff.mpr p.netuidRange, bind_ok_iff.mpr ⟨⟨⟩,
    require_ok_iff.mpr positive, bind_ok_iff.mpr ⟨⟨⟩, validatePublicSs58_ok_iff.mpr p.validator,
    bind_ok_iff.mpr ⟨_, p.parsed, bind_ok_iff.mpr ⟨⟨⟩, require_ok_iff.mpr p.unscored,
    bind_ok_iff.mpr ⟨_, p.planned, bind_ok_iff.mpr ⟨⟨⟩, closes, ?_⟩⟩⟩⟩⟩⟩⟩
  rw [plans]
  rfl

/-- A ready report passed every gate, without an error, at a block with a hash. -/
structure Planning.Passed
    (p : Planning floats sdkVersion netuid validatorHotkey scoreSpecs minimum client) : Prop where
  gates : (planGates p.header true p.reading).all = true
  errors : headerErrors p.header = []
  blockHash : isBlockHash p.header.blockHash = true
  nonempty : p.reading.targets ≠ []

theorem Planning.passed
    {p : Planning floats sdkVersion netuid validatorHotkey scoreSpecs minimum client}
    (ready : p.report.readyForAuthorizedSubmission = true) : p.Passed := by
  simp only [Planning.report, reportOf, Bool.and_eq_true, decide_eq_true_eq] at ready
  obtain ⟨⟨⟨-, gates⟩, errors⟩, blockHash⟩ := ready
  refine ⟨gates, errors, blockHash, ?_⟩
  simp only [WeightPlanGates.all, planGates, Bool.and_eq_true] at gates
  have recipients := gates.1.2
  rintro none
  rw [none, minimumRecipientsMet] at recipients
  cases recipients

/-- The snapshot is the client's at the block that the header names. -/
structure HeaderRead (client : Client V) (header : SnapshotHeader) (snapshot : Snapshot V) :
    Prop where
  endpoint : ∃ reply, client.endpoint = .ok reply ∧ PythonObject.str reply = .ok header.endpoint
  block : ∃ reply, client.block = .ok reply ∧ PythonObject.int reply = .ok header.block
  snapshot : client.atBlock header.block = .ok snapshot

omit [PythonFloat V K] in
theorem readHeader_ok {client : Client V} {header : SnapshotHeader} {snapshot : Snapshot V}
    (h : readHeader client = .ok (header, snapshot)) : HeaderRead client header snapshot := by
  obtain ⟨address, haddress, h⟩ := bind_ok h
  obtain ⟨endpoint, hendpoint, h⟩ := bind_ok h
  obtain ⟨reply, hreply, h⟩ := bind_ok h
  obtain ⟨block, hblock, h⟩ := bind_ok h
  obtain ⟨snapshot, hsnapshot, h⟩ := bind_ok h
  obtain ⟨_, -, h⟩ := bind_ok h
  obtain ⟨_, -, h⟩ := bind_ok h
  obtain ⟨_, -, h⟩ := bind_ok h
  obtain ⟨_, -, h⟩ := bind_ok h
  obtain ⟨_, -, h⟩ := bind_ok h
  obtain ⟨_, -, h⟩ := bind_ok h
  cases h
  exact ⟨⟨address, haddress, hendpoint⟩, ⟨reply, hreply, hblock⟩, hsnapshot⟩

/-- What an existing subnet showed to a planning. -/
structure Planning.Shown
    (p : Planning floats sdkVersion netuid validatorHotkey scoreSpecs minimum client)
    (metagraph : V) (hotkeys : List Text) : Prop where
  replied : p.snapshot.read "metagraph".toList netuid = .ok metagraph
  listed : hotkeysOf metagraph = .ok hotkeys
  targets : proposedTargets p.scores p.proposed hotkeys p.reading.hyperparameters.maxWeightsLimit =
    .ok (p.reading.targets, p.reading.weightsWereClipped)
  readback : weightReadback p.snapshot netuid metagraph (hotkeys.idxOf? validatorHotkey) =
    .ok p.reading.readback
  registered : p.reading.validatorRegistered = (hotkeys.idxOf? validatorHotkey).isSome
  parameters : chainHyperparameters client netuid = .ok p.reading.hyperparameters

theorem Planning.exists_shown
    (p : Planning floats sdkVersion netuid validatorHotkey scoreSpecs minimum client) :
    ∃ metagraph hotkeys, p.Shown metagraph hotkeys := by
  obtain ⟨-, ⟨reply, hreply, hblock⟩, hsnapshot⟩ := readHeader_ok p.headerRead
  obtain ⟨hyper, hhyper, subnet⟩ := bind_ok p.subnetRead
  obtain ⟨metagraph, hmetagraph, subnet⟩ := bind_ok subnet
  obtain ⟨parameters, hparameters, subnet⟩ := bind_ok subnet
  obtain ⟨hotkeys, hhotkeys, subnet⟩ := bind_ok subnet
  obtain ⟨⟨targets, clipped⟩, htargets, subnet⟩ := bind_ok subnet
  obtain ⟨readback, hreadback, subnet⟩ := bind_ok subnet
  have reading := Except.ok.inj subnet
  refine ⟨metagraph, hotkeys, hmetagraph, hhotkeys, ?_, ?_, ?_, ?_⟩
  · rw [← reading]
    exact htargets
  · rw [← reading]
    exact hreadback
  · rw [← reading]
  · rw [← reading]
    exact bind_ok_iff.mpr ⟨reply, hreply, bind_ok_iff.mpr ⟨p.header.block, hblock,
      bind_ok_iff.mpr ⟨p.snapshot, hsnapshot, bind_ok_iff.mpr ⟨hyper, hhyper, hparameters⟩⟩⟩⟩

/-- The targets of a ready report encode the positive scores that it was planned from. -/
theorem Planning.targeted
    {p : Planning floats sdkVersion netuid validatorHotkey scoreSpecs minimum client}
    (ready : p.report.readyForAuthorizedSubmission = true) {metagraph : V} {hotkeys : List Text}
    (shown : p.Shown metagraph hotkeys) :
    ∃ limit entries, p.reading.hyperparameters.maxWeightsLimit = some limit ∧
      conformWeightVector (sharesOf (positiveScores p.scores)).weights limit =
        .ok (entries, p.reading.weightsWereClipped) ∧
      Targeted p.scores hotkeys entries p.reading.targets :=
  proposedTargets_targeted (parsePublicScores_public p.parsed) p.planned shown.targets
    (Planning.passed ready).nonempty

end Planning

end WeightPlanning
