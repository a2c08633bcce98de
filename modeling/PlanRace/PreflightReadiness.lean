import PlanRace.TestnetPreflight

/-!
# What a ready preflight shows

A report is ready for a protocol run exactly when every lookup of the chain came
back in order. One of the conditions is only that no coldkey is known to differ,
so readiness is sound where the metagraph shows the coldkeys at all.
-/

namespace PreflightReadiness

open JsonText PythonObjects ChainReplies TestnetPreflight Fallible

section Names

variable {repr : Text → Text}

theorem parseRoles_nodup {values : List Text} {parsed roles : List (Text × Text)}
    (distinct : (parsed.map Prod.fst).Nodup) (h : parseRoles repr parsed values = .ok roles) :
    (roles.map Prod.fst).Nodup := by
  induction values generalizing parsed with
  | nil =>
    cases h
    exact distinct
  | cons value rest ih =>
    obtain ⟨entry, -, h⟩ := bind_ok h
    obtain ⟨_, fresh, h⟩ := bind_ok h
    obtain ⟨_, -, h⟩ := bind_ok h
    refine ih ?_ h
    rw [List.map_append]
    exact distinct.append (List.nodup_singleton entry.1)
      (List.disjoint_singleton.mpr (require_ok_iff.mp fresh))

theorem parsePublicRoles_nodup {values : List Text} {roles : List (Text × Text)}
    (h : parsePublicRoles repr values = .ok roles) : (roles.map Prod.fst).Nodup :=
  parseRoles_nodup (show (([] : List (Text × Text)).map Prod.fst).Nodup from List.nodup_nil) h

theorem requiredRoles_iff {roles : List (Text × Text)} (distinct : (roles.map Prod.fst).Nodup) :
    requiredRoles roles = true ↔
      validatorRole ∈ roles.map Prod.fst ∧ 2 ≤ (roles.map Prod.fst).countP isMinerRole := by
  rw [requiredRoles, Bool.and_eq_true, decide_eq_true_eq, decide_eq_true_eq, distinct.dedup]

end Names

section Statuses

variable {V : Type} [PythonObject V]

open PythonObject

variable [TextEquality V]

omit [PythonObject V] in
/-- The UID of an address is a place where the metagraph lists it. -/
theorem uidOf_listed {address : Text} {hotkeys : List V} {uid : Nat}
    (h : uidOf address hotkeys = .ok (some uid)) :
    ∃ hotkey, hotkeys[uid]? = some hotkey ∧ TextEquality.eqText hotkey address = .ok true := by
  induction hotkeys generalizing uid with
  | nil => cases h
  | cons hotkey rest ih =>
    unfold uidOf at h
    cases equal : TextEquality.eqText hotkey address with
    | error e =>
      rw [equal] at h
      cases h
    | ok found =>
      rw [equal] at h
      cases found with
      | true =>
        cases h
        exact ⟨hotkey, rfl, equal⟩
      | false =>
        cases later : uidOf address rest with
        | error e =>
          rw [later] at h
          cases h
        | ok other =>
          rw [later] at h
          cases other with
          | none => cases h
          | some n =>
            cases h
            exact ih later

/-- What a role needs of the metagraph for the report to be ready. -/
structure PassesAt (snapshot : PreflightSnapshot V) (metagraph : Metagraph V) (coldkey : Text)
    (position : Nat) (role : Text × Text) (uid : Nat) : Prop where
  found : uidOf role.2 metagraph.hotkeys = .ok (some uid)
  axon : ∃ served axon, axonStatus (indexed metagraph.axons uid) = .ok (served, axon) ∧
    (isMinerRole role.1 = true → served = true)
  update : ∃ lastUpdate since, optionalInt (indexed metagraph.lastUpdates uid) = .ok lastUpdate ∧
    blocksSinceUpdate snapshot position lastUpdate = .ok since
  permit : ∃ permit, permitAt metagraph.permits uid = .ok permit ∧
    (role.1 = validatorRole → permit = true ∨ metagraph.ownerHotkey ≠ [] ∧
      role.2 = metagraph.ownerHotkey)
  /-- A coldkey that is shown is the expected one. -/
  ownership : ∀ value ∈ present (indexed metagraph.coldkeys uid), str value = .ok coldkey

/-- A status that does not stand in the way of readiness. -/
structure Acceptable (status : RoleStatus) : Prop where
  registered : status.registered = true
  ownership : status.coldkeyMatches ≠ some false
  authorized : status.role = validatorRole → status.weightSettingAuthorized = true
  served : isMinerRole status.role = true → status.axonServed = true

omit [TextEquality V] in
theorem coldkeyMatches_iff {coldkey : Text} {registered : Option V} :
    (∃ ownership, coldkeyMatches (some coldkey) registered = .ok ownership ∧
      ownership ≠ some false) ↔ ∀ value ∈ registered, str value = .ok coldkey := by
  cases registered with
  | none => simp [coldkeyMatches]
  | some value =>
    constructor
    · rintro ⟨ownership, matched, known⟩ _ ⟨⟩
      obtain ⟨text, read, matched⟩ := bind_ok matched
      cases matched
      by_cases same : text = coldkey
      · rw [read, same]
      · exact absurd (congrArg some (decide_eq_false same)) known
    · intro same
      refine ⟨some true, bind_ok_iff.mpr ⟨coldkey, same value rfl, ?_⟩, by simp⟩
      rw [decide_eq_true rfl]
      rfl

variable {snapshot : PreflightSnapshot V} {metagraph : Metagraph V} {coldkey : Text}
  {position : Nat} {role : Text × Text} {uid : Nat} {status : RoleStatus}

theorem roleStatus_role {coldkey : Option Text}
    (h : roleStatus snapshot metagraph coldkey (role, position) = .ok status) :
    status.role = role.1 := by
  unfold roleStatus at h
  split at h
  next => cases h
  next =>
    cases h
    rfl
  next uid found =>
    obtain ⟨⟨served, axon⟩, -, h⟩ := bind_ok h
    obtain ⟨_, -, h⟩ := bind_ok h
    obtain ⟨_, -, h⟩ := bind_ok h
    obtain ⟨_, -, h⟩ := bind_ok h
    obtain ⟨_, -, h⟩ := bind_ok h
    cases h
    rfl

/-- The status of a role is acceptable exactly when the role passes. -/
theorem exists_acceptable_iff :
    (∃ status, roleStatus snapshot metagraph (some coldkey) (role, position) = .ok status ∧
      Acceptable status) ↔
      ∃ uid, PassesAt snapshot metagraph coldkey position role uid := by
  constructor
  · rintro ⟨status, h, acceptable⟩
    unfold roleStatus at h
    split at h
    next => cases h
    next =>
      cases h
      cases acceptable.registered
    next uid found =>
      obtain ⟨⟨served, axon⟩, hserved, h⟩ := bind_ok h
      obtain ⟨lastUpdate, hupdate, h⟩ := bind_ok h
      obtain ⟨since, hsince, h⟩ := bind_ok h
      obtain ⟨permit, hpermit, h⟩ := bind_ok h
      obtain ⟨ownership, howner, h⟩ := bind_ok h
      cases h
      refine ⟨uid, found, ⟨served, axon, hserved, acceptable.served⟩,
        ⟨lastUpdate, since, hupdate, hsince⟩, ⟨permit, hpermit, fun validator => ?_⟩,
        coldkeyMatches_iff.mp ⟨ownership, howner, acceptable.ownership⟩⟩
      have authorized := acceptable.authorized validator
      rwa [Bool.or_eq_true, decide_eq_true_eq] at authorized
  · rintro ⟨uid, passes⟩
    obtain ⟨served, axon, hserved, miner⟩ := passes.axon
    obtain ⟨lastUpdate, since, hupdate, hsince⟩ := passes.update
    obtain ⟨permit, hpermit, validator⟩ := passes.permit
    obtain ⟨ownership, howner, known⟩ := coldkeyMatches_iff.mpr passes.ownership
    let isOwner := decide (metagraph.ownerHotkey ≠ [] ∧ role.2 = metagraph.ownerHotkey)
    let status : RoleStatus := {
      role := role.1
      hotkeySs58 := role.2
      uid := some uid
      registered := true
      coldkeyMatches := ownership
      axonServed := served
      axon := axon
      validatorPermit := permit
      isSubnetOwner := isOwner
      weightSettingAuthorized := permit || isOwner
      blocksSinceLastUpdate := since }
    refine ⟨status, ?_, ?_⟩
    · unfold roleStatus
      rw [passes.found]
      exact bind_ok_iff.mpr ⟨_, hserved, bind_ok_iff.mpr ⟨_, hupdate, bind_ok_iff.mpr
        ⟨_, hsince, bind_ok_iff.mpr ⟨_, hpermit, bind_ok_iff.mpr ⟨_, howner, rfl⟩⟩⟩⟩⟩
    · refine ⟨rfl, known, fun named => ?_, miner⟩
      change (permit || isOwner) = true
      rw [Bool.or_eq_true, decide_eq_true_eq]
      exact validator named

end Statuses

section Findings

variable {findings : Findings} {request : PreflightRequest} {roles : List (Text × Text)}

theorem validatorAuthorized_iff (distinct : (findings.roles.map RoleStatus.role).Nodup)
    (named : validatorRole ∈ findings.roles.map RoleStatus.role) :
    findings.validatorAuthorized = true ↔
      ∀ item ∈ findings.roles, item.role = validatorRole → item.weightSettingAuthorized = true := by
  rw [Findings.validatorAuthorized, List.any_eq_true]
  simp only [Bool.and_eq_true, decide_eq_true_eq]
  constructor
  · rintro ⟨item, hitem, validator, authorized⟩ other hother validator'
    rwa [List.inj_on_of_nodup_map distinct hother hitem (validator'.trans validator.symm)]
  · intro all
    obtain ⟨item, hitem, validator⟩ := List.mem_map.mp named
    exact ⟨item, hitem, validator, all item hitem validator⟩

theorem minersServed_iff (enough : 2 ≤ (findings.roles.map RoleStatus.role).countP isMinerRole) :
    findings.minersServed = true ↔
      ∀ item ∈ findings.roles, isMinerRole item.role = true → item.axonServed = true := by
  have miners : 2 ≤ findings.miners.length := by
    rw [List.countP_map] at enough
    rw [Findings.miners, ← List.countP_eq_length_filter]
    exact enough
  rw [Findings.minersServed, Bool.and_eq_true, decide_eq_true_eq, List.all_eq_true, Findings.miners]
  simp only [List.mem_filter, and_imp]
  exact ⟨fun h => h.2, fun h => ⟨miners, h⟩⟩

/-- The statuses of the roles that a preflight was given. -/
structure Named (findings : Findings) (roles : List (Text × Text)) : Prop where
  names : findings.roles.map RoleStatus.role = roles.map Prod.fst
  distinct : (roles.map Prod.fst).Nodup

/-- Readiness, by what the lookups found. -/
structure FoundReady (findings : Findings) (roles : List (Text × Text)) : Prop where
  canonical : findings.endpoint = testnetEndpoint
  pinned : findings.snapshotPinned = true
  subnet : findings.subnetExists = true
  balance : findings.balancePositive = true
  required : requiredRoles roles = true
  errors : findings.errors = []
  statuses : ∀ item ∈ findings.roles, Acceptable item

theorem allRegistered_iff (nonempty : findings.roles ≠ []) :
    findings.allRegistered = true ↔ ∀ item ∈ findings.roles, item.registered = true := by
  simp [Findings.allRegistered, nonempty]

theorem ownershipMatches_iff (nonempty : findings.roles ≠ []) :
    findings.ownershipMatches = true ↔
      ∀ item ∈ findings.roles, item.coldkeyMatches ≠ some false := by
  simp [Findings.ownershipMatches, nonempty]

theorem readyForRegistration_iff :
    findings.readyForRegistration roles = true ↔ findings.endpoint = testnetEndpoint ∧
      findings.snapshotPinned = true ∧ findings.subnetExists = true ∧
      findings.balancePositive = true ∧ requiredRoles roles = true ∧ findings.errors = [] := by
  simp only [Findings.readyForRegistration, Findings.canonical, Bool.and_eq_true,
    decide_eq_true_eq, List.isEmpty_iff, and_assoc]

theorem registration_of_protocol (h : findings.readyForProtocol request roles = true) :
    findings.readyForRegistration roles = true := by
  simp only [Findings.readyForProtocol, Bool.and_eq_true] at h
  exact h.1.1.1.1.1.1

theorem readyForProtocol_iff (named : Named findings roles) :
    findings.readyForProtocol request roles = true ↔ FoundReady findings roles := by
  have names : requiredRoles roles = true →
      validatorRole ∈ findings.roles.map RoleStatus.role ∧
        2 ≤ (findings.roles.map RoleStatus.role).countP isMinerRole := by
    intro required
    rw [named.names]
    exact (requiredRoles_iff named.distinct).mp required
  have distinct : (findings.roles.map RoleStatus.role).Nodup := by
    rw [named.names]
    exact named.distinct
  have nonempty : requiredRoles roles = true → findings.roles ≠ [] := by
    intro required none
    have validator := (names required).1
    rw [none] at validator
    cases validator
  simp only [Findings.readyForProtocol, Bool.and_eq_true]
  constructor
  · rintro ⟨⟨⟨⟨⟨⟨registration, registered⟩, owned⟩, authorized⟩, served⟩, -⟩, -⟩
    obtain ⟨canonical, pinned, subnet, balance, required, errors⟩ :=
      readyForRegistration_iff.mp registration
    obtain ⟨validator, enough⟩ := names required
    refine ⟨canonical, pinned, subnet, balance, required, errors, fun item hitem => ?_⟩
    exact ⟨(allRegistered_iff (nonempty required)).mp registered item hitem,
      (ownershipMatches_iff (nonempty required)).mp owned item hitem,
      (validatorAuthorized_iff distinct validator).mp authorized item hitem,
      (minersServed_iff enough).mp served item hitem⟩
  · intro ready
    obtain ⟨validator, enough⟩ := names ready.required
    have registered := (allRegistered_iff (nonempty ready.required)).mpr fun item hitem =>
      (ready.statuses item hitem).registered
    have served := (minersServed_iff enough).mpr fun item hitem =>
      (ready.statuses item hitem).served
    refine ⟨⟨⟨⟨⟨⟨readyForRegistration_iff.mpr ⟨ready.canonical, ready.pinned, ready.subnet,
      ready.balance, ready.required, ready.errors⟩, registered⟩, ?_⟩, ?_⟩, served⟩, ?_⟩, ?_⟩
    · exact (ownershipMatches_iff (nonempty ready.required)).mpr fun item hitem =>
        (ready.statuses item hitem).ownership
    · exact (validatorAuthorized_iff distinct validator).mpr fun item hitem =>
        (ready.statuses item hitem).authorized
    · rw [Findings.registrationMet, registered, Bool.or_true]
    · rw [Findings.servedMet, served, Bool.or_true]

end Findings

section Lookups

variable {V : Type} [PythonObject V] [TextEquality V]

omit [PythonObject V] [TextEquality V] in
theorem lookUp_silent {α : Type} {label : Text} {fallback : α} {x : Except Raised α}
    (h : (lookUp label fallback x).2 = []) : x = .ok (lookUp label fallback x).1 := by
  cases x with
  | ok found => rfl
  | error e =>
    cases h

/-- What the chain must show for a report to be ready. -/
structure Passes (roles : List (Text × Text)) (header : Header V) (netuid : Int) (coldkey : Text)
    (metagraph : Metagraph V) : Prop where
  canonical : header.endpoint = testnetEndpoint
  pinned : header.pinned = true
  subnet : ∃ status, subnetStatus header.snapshot.toSnapshot netuid = .ok status ∧
    status.subnetExists = true
  balance : ∃ rao, balanceRao header.snapshot.toAccountSnapshot coldkey = .ok rao ∧ 0 < rao
  required : requiredRoles roles = true
  shown : readMetagraph header.snapshot.toSnapshot netuid = .ok metagraph
  listed : ∀ entry ∈ roles.zipIdx,
    ∃ uid, PassesAt header.snapshot metagraph coldkey entry.2 entry.1 uid

variable {request : PreflightRequest} {roles : List (Text × Text)} {header : Header V}
  {netuid : Int} {coldkey : Text} {metagraph : Metagraph V}

/-- What is found at the snapshot of a header. -/
def found (request : PreflightRequest) (roles : List (Text × Text)) (header : Header V) : Findings :=
  findingsOf request roles header.endpoint header.block header.pinned header.snapshot

theorem statuses_acceptable_iff {snapshot : PreflightSnapshot V} {statuses : List RoleStatus}
    (h : roles.zipIdx.mapM (roleStatus snapshot metagraph (some coldkey)) = .ok statuses) :
    (∀ item ∈ statuses, Acceptable item) ↔
      ∀ entry ∈ roles.zipIdx, ∃ uid, PassesAt snapshot metagraph coldkey entry.2 entry.1 uid := by
  constructor
  · intro all entry hentry
    obtain ⟨status, hstatus, hread⟩ := ok_of_mapM h entry hentry
    exact exists_acceptable_iff.mp ⟨status, hread, all status hstatus⟩
  · intro all item hitem
    obtain ⟨entry, hentry, hread⟩ := exists_of_mem_mapM h hitem
    obtain ⟨status, hread', acceptable⟩ := exists_acceptable_iff.mpr (all entry hentry)
    rw [hread] at hread'
    cases hread'
    exact acceptable

theorem named_of_statuses {snapshot : PreflightSnapshot V} {statuses : List RoleStatus}
    {coldkey : Option Text} (h : roleStatuses snapshot netuid roles coldkey = .ok statuses) :
    statuses.map RoleStatus.role = roles.map Prod.fst := by
  obtain ⟨metagraph, -, h⟩ := bind_ok h
  have names : roles.zipIdx.map (fun entry => entry.1.1) = statuses.map RoleStatus.role :=
    map_eq_map_of_forall₂ (mapM_ok_iff.mp h) fun entry status read => (roleStatus_role read).symm
  have first : roles.zipIdx.map (fun entry => entry.1.1) =
      (roles.zipIdx.map Prod.fst).map Prod.fst := List.map_map.symm
  rw [← names, first, List.zipIdx_map_fst]

theorem map_silent {α β : Type} {label : Text} {fallback : β} {x : Except Raised α} {f : α → β}
    (h : (lookUp label fallback (x.map f)).2 = []) :
    ∃ a, x = .ok a ∧ (lookUp label fallback (x.map f)).1 = f a := by
  cases x with
  | ok a => exact ⟨a, rfl, rfl⟩
  | error e => cases h

/-- The lookups of a report without errors, of a subnet that exists and a
coldkey with a balance. -/
theorem lookups_of_ready (h : (found request roles header).readyForRegistration roles = true) :
    ∃ netuid coldkey status rao statuses, request.netuid = some netuid ∧
      request.coldkeySs58 = some coldkey ∧
      (subnetStatus header.snapshot.toSnapshot netuid = .ok status ∧
        status.subnetExists = true) ∧
      (balanceRao header.snapshot.toAccountSnapshot coldkey = .ok rao ∧ 0 < rao) ∧
      roleStatuses header.snapshot netuid roles (some coldkey) = .ok statuses ∧
      (found request roles header).roles = statuses := by
  obtain ⟨-, -, subnet, balance, required, errors⟩ := readyForRegistration_iff.mp h
  obtain ⟨errors, noRoles⟩ := List.append_eq_nil_iff.mp errors
  obtain ⟨errors, noColdkey⟩ := List.append_eq_nil_iff.mp errors
  obtain ⟨-, noSubnet⟩ := List.append_eq_nil_iff.mp errors
  have nonempty : roles ≠ [] := by
    rintro rfl
    cases required
  change (lookUpSubnet header.snapshot request.netuid).1.any SubnetStatus.subnetExists = true at subnet
  change (lookUpColdkey header.snapshot request.coldkeySs58).1.any ColdkeyStatus.positiveBalance =
    true at balance
  have looked : ∀ netuid, request.netuid = some netuid →
      lookUpRoles header.snapshot request roles (lookUpSubnet header.snapshot request.netuid).1 =
        lookUp "metagraph lookup failed: ".toList []
          (roleStatuses header.snapshot netuid roles request.coldkeySs58) := by
    intro netuid hnetuid
    unfold lookUpRoles
    rw [hnetuid] at subnet ⊢
    exact if_pos ⟨nonempty, subnet⟩
  cases hnetuid : request.netuid with
  | none =>
    rw [hnetuid] at subnet
    cases subnet
  | some netuid =>
    cases hcoldkey : request.coldkeySs58 with
    | none =>
      rw [hcoldkey] at balance
      cases balance
    | some coldkey =>
      have roleErrors := noRoles
      rw [looked netuid hnetuid, hcoldkey] at roleErrors
      rw [hnetuid] at subnet noSubnet
      rw [hcoldkey] at balance noColdkey
      obtain ⟨status, hstatus, shown⟩ := map_silent noSubnet
      obtain ⟨account, haccount, shown'⟩ := map_silent noColdkey
      obtain ⟨rao, hrao, account_eq⟩ := bind_ok haccount
      cases account_eq
      have subnetFound : (lookUpSubnet header.snapshot (some netuid)).1 = some status := shown
      have coldkeyFound : (lookUpColdkey header.snapshot (some coldkey)).1 =
          some ⟨coldkey, rao, decide (0 < rao)⟩ := shown'
      rw [subnetFound, Option.any_some] at subnet
      rw [coldkeyFound, Option.any_some, decide_eq_true_eq] at balance
      refine ⟨netuid, coldkey, status, rao, _, rfl, rfl, ⟨hstatus, subnet⟩, ⟨hrao, balance⟩,
        lookUp_silent roleErrors, ?_⟩
      · change (lookUpRoles header.snapshot request roles
          (lookUpSubnet header.snapshot request.netuid).1).1 = _
        rw [looked netuid hnetuid, hcoldkey]

/-- The report of a reached chain is ready exactly when everything passes. -/
theorem readyForProtocol_iff_passes (distinct : (roles.map Prod.fst).Nodup) :
    (found request roles header).readyForProtocol request roles = true ↔
      ∃ netuid coldkey metagraph, request.netuid = some netuid ∧
        request.coldkeySs58 = some coldkey ∧ Passes roles header netuid coldkey metagraph := by
  constructor
  · intro ready
    obtain ⟨netuid, coldkey, status, rao, statuses, hnetuid, hcoldkey, subnet, balance, hstatuses,
      hroles⟩ := lookups_of_ready (registration_of_protocol ready)
    have named : Named (found request roles header) roles :=
      ⟨by rw [hroles, named_of_statuses hstatuses], distinct⟩
    have shown := (readyForProtocol_iff named).mp ready
    obtain ⟨metagraph, hmetagraph, hread⟩ := bind_ok hstatuses
    have acceptable := shown.statuses
    rw [hroles] at acceptable
    exact ⟨netuid, coldkey, metagraph, hnetuid, hcoldkey, shown.canonical, shown.pinned,
      ⟨status, subnet⟩, ⟨rao, balance⟩, shown.required, hmetagraph,
      (statuses_acceptable_iff hread).mp acceptable⟩
  · rintro ⟨netuid, coldkey, metagraph, hnetuid, hcoldkey, passes⟩
    obtain ⟨status, hstatus, subnetExists⟩ := passes.subnet
    obtain ⟨rao, hrao, positive⟩ := passes.balance
    have nonempty : roles ≠ [] := by
      rintro rfl
      cases passes.required
    obtain ⟨statuses, hread, -⟩ : ∃ statuses, roles.zipIdx.mapM
        (roleStatus header.snapshot metagraph (some coldkey)) = .ok statuses ∧
          ∀ status ∈ statuses, Acceptable status :=
      exists_mapM fun entry hentry => exists_acceptable_iff.mpr (passes.listed entry hentry)
    have hstatuses : roleStatuses header.snapshot netuid roles (some coldkey) = .ok statuses :=
      bind_ok_iff.mpr ⟨metagraph, passes.shown, hread⟩
    have subnet : lookUpSubnet header.snapshot (some netuid) = (some status, []) := by
      rw [lookUpSubnet, hstatus]
      rfl
    have coldkeys : lookUpColdkey header.snapshot (some coldkey) =
        (some ⟨coldkey, rao, decide (0 < rao)⟩, []) := by
      rw [lookUpColdkey, coldkeyStatus, hrao]
      rfl
    have looked : lookUpRoles header.snapshot request roles (some status) = (statuses, []) := by
      unfold lookUpRoles
      rw [hnetuid, hcoldkey]
      dsimp only
      rw [hstatuses]
      exact if_pos ⟨nonempty, subnetExists⟩
    have shown : found request roles header = ⟨header.endpoint, header.block, header.pinned,
        some status, some ⟨coldkey, rao, decide (0 < rao)⟩, statuses, []⟩ := by
      unfold found findingsOf
      rw [hnetuid, hcoldkey, subnet, coldkeys]
      dsimp only
      rw [looked, if_pos passes.canonical]
      rfl
    have named : Named (found request roles header) roles :=
      ⟨by rw [shown, named_of_statuses hstatuses], distinct⟩
    refine (readyForProtocol_iff named).mpr ?_
    rw [shown]
    exact ⟨passes.canonical, passes.pinned, subnetExists, decide_eq_true positive, passes.required,
      rfl, (statuses_acceptable_iff hread).mpr passes.listed⟩

end Lookups

section Soundness

variable {V : Type} [PythonObject V] [TextEquality V]

open PythonObject

/-- The chain is reached, at this header. -/
def Reached (factory : Except Raised (PinnedClient V (PreflightSnapshot V))) (header : Header V) :
    Prop :=
  ∃ client version, factory = .ok client ∧ readHeader client = .ok header ∧
    (client.specVersion >>= int) = .ok version

/-- What readiness is to say of one role. -/
structure SoundAt (specified : Text → Prop) (metagraph : Metagraph V) (coldkey : Text)
    (role : Text × Text) (uid : Nat) : Prop where
  found : uidOf role.2 metagraph.hotkeys = .ok (some uid)
  listed : ∃ hotkey, metagraph.hotkeys[uid]? = some hotkey ∧
    TextEquality.eqText hotkey role.2 = .ok true
  ownership : ∃ value, present (indexed metagraph.coldkeys uid) = some value ∧
    str value = .ok coldkey
  authorized : role.1 = validatorRole →
    permitAt metagraph.permits uid = .ok true ∨ role.2 = metagraph.ownerHotkey
  served : isMinerRole role.1 = true → ∃ value axon,
    present (indexed metagraph.axons uid) = some value ∧ axonOf value = .ok axon ∧
      axon.port ≠ 0 ∧ specified axon.ip

/-- What readiness is to say of the chain, where `specified` tells which texts
are specified addresses. -/
structure Sound (specified : Text → Prop) (roles : List (Text × Text)) (header : Header V)
    (netuid : Int) (coldkey : Text) (metagraph : Metagraph V) (report : TestnetPreflightReport) :
    Prop where
  canonical : header.endpoint = testnetEndpoint
  pinned : header.pinned = true
  subnet : testnetSubnetExists header.snapshot.toSnapshot netuid = .ok true
  balance : ∃ rao, balanceRao header.snapshot.toAccountSnapshot coldkey = .ok rao ∧ 0 < rao
  errors : report.errors = []
  validator : validatorRole ∈ roles.map Prod.fst
  miners : 2 ≤ (roles.map Prod.fst).dedup.countP isMinerRole
  shown : readMetagraph header.snapshot.toSnapshot netuid = .ok metagraph
  listed : ∀ role ∈ roles, ∃ uid, SoundAt specified metagraph coldkey role uid

/-- The soundness of a report: when it is ready, the chain is as it should be. -/
def ReadinessSound (specified : Text → Prop) (request : PreflightRequest)
    (roles : List (Text × Text))
    (factory : Except Raised (PinnedClient V (PreflightSnapshot V)))
    (report : TestnetPreflightReport) : Prop :=
  report.readyForProtocolRun = true → ∃ header netuid coldkey metagraph,
    Reached factory header ∧ request.netuid = some netuid ∧ request.coldkeySs58 = some coldkey ∧
      Sound specified roles header netuid coldkey metagraph report

/-- The metagraph shows a coldkey at the UID of every role. -/
def ColdkeysShown (roles : List (Text × Text)) (metagraph : Metagraph V) : Prop :=
  ∀ role ∈ roles, ∀ uid, uidOf role.2 metagraph.hotkeys = .ok (some uid) →
    ∃ value, present (indexed metagraph.coldkeys uid) = some value

/-- The miners' axons show texts that `ip_address` accepts. -/
def AddressesParse (roles : List (Text × Text)) (metagraph : Metagraph V) : Prop :=
  ∀ role ∈ roles, isMinerRole role.1 = true →
    ∀ uid, uidOf role.2 metagraph.hotkeys = .ok (some uid) →
      ∀ value axon, present (indexed metagraph.axons uid) = some value → axonOf value = .ok axon →
        isUnspecified axon.ip ≠ none

/-- A property of the metagraph, wherever every check of readiness passes. -/
def WherePassing (request : PreflightRequest) (roles : List (Text × Text))
    (factory : Except Raised (PinnedClient V (PreflightSnapshot V)))
    (shows : Metagraph V → Prop) : Prop :=
  ∀ header netuid coldkey metagraph, Reached factory header → request.netuid = some netuid →
    request.coldkeySs58 = some coldkey → Passes roles header netuid coldkey metagraph →
      shows metagraph

variable {specified : Text → Prop} {request : PreflightRequest} {roles : List (Text × Text)}
  {factory : Except Raised (PinnedClient V (PreflightSnapshot V))}
  {report : TestnetPreflightReport} {metagraph : Metagraph V} {coldkey : Text}

omit [TextEquality V] in
theorem axonStatus_served {item : Option V} {axon : Option PublicAxon}
    (h : axonStatus item = .ok (true, axon)) :
    ∃ value axon, present item = some value ∧ axonOf value = .ok axon ∧ axon.port ≠ 0 ∧
      unspecified axon.ip = false := by
  unfold axonStatus at h
  cases shown : present item with
  | none =>
    rw [shown] at h
    cases h
  | some value =>
    rw [shown] at h
    obtain ⟨axon, read, h⟩ := bind_ok h
    have served := congrArg Prod.fst (Except.ok.inj h)
    dsimp only at served
    rw [Bool.and_eq_true, decide_eq_true_eq, Bool.not_eq_true'] at served
    exact ⟨value, axon, rfl, read, by omega, served.2⟩

/-- A role that passes is sound when its coldkey is shown and its address specified. -/
theorem PassesAt.sound {snapshot : PreflightSnapshot V} {position uid : Nat} {role : Text × Text}
    (passes : PassesAt snapshot metagraph coldkey position role uid)
    (shown : ∃ value, present (indexed metagraph.coldkeys uid) = some value)
    (address : ∀ value axon, isMinerRole role.1 = true →
      present (indexed metagraph.axons uid) = some value → axonOf value = .ok axon →
        unspecified axon.ip = false → specified axon.ip) :
    SoundAt specified metagraph coldkey role uid where
  found := passes.found
  listed := uidOf_listed passes.found
  ownership := by
    obtain ⟨value, hvalue⟩ := shown
    exact ⟨value, hvalue, passes.ownership value hvalue⟩
  authorized := by
    intro validator
    obtain ⟨permit, read, authorized⟩ := passes.permit
    rcases authorized validator with rfl | ⟨-, owner⟩
    · exact .inl read
    · exact .inr owner
  served := by
    intro miner
    obtain ⟨served, axon, read, all⟩ := passes.axon
    rw [all miner] at read
    obtain ⟨value, axon, shown, parsed, port, ip⟩ := axonStatus_served read
    exact ⟨value, axon, shown, parsed, port, address value axon miner shown parsed ip⟩

variable {repr : Text → Text} {sdkVersion : Except Raised Text}

/-- A report tells what was found where the chain was reached, and is not ready elsewhere. -/
theorem report_cases
    (h : collectTestnetPreflight repr sdkVersion request factory = .ok report) :
    ∃ roles, parsePublicRoles repr request.roleSpecs = .ok roles ∧
      ((∃ header version sdkVersion, Reached factory header ∧
          report = (found request roles header).report request roles sdkVersion version) ∨
        report.readyForProtocolRun = false ∧ ∀ header, ¬ Reached factory header) := by
  obtain ⟨_, -, h⟩ := bind_ok h
  obtain ⟨_, -, h⟩ := bind_ok h
  obtain ⟨roles, parsed, h⟩ := bind_ok h
  refine ⟨roles, parsed, ?_⟩
  have unready : ∀ e, unreached sdkVersion e = .ok report →
      report.readyForProtocolRun = false ∧ ∃ version, sdkVersion = .ok version := by
    intro e left
    cases sdkVersion with
    | error e' => cases left
    | ok version =>
      cases left
      exact ⟨rfl, version, rfl⟩
  cases factory with
  | error e =>
    refine .inr ⟨(unready e h).1, ?_⟩
    rintro header ⟨client, version, made, -⟩
    cases made
  | ok client =>
    obtain ⟨_, -, h⟩ := bind_ok h
    cases reaches : reachedReport sdkVersion request roles client with
    | ok shown =>
      rw [reaches] at h
      cases h
      obtain ⟨header, headerRead, reaches⟩ := bind_ok reaches
      obtain ⟨sdkVersion, -, reaches⟩ := bind_ok reaches
      obtain ⟨reply, replied, reaches⟩ := bind_ok reaches
      obtain ⟨version, read, reaches⟩ := bind_ok reaches
      cases reaches
      exact .inl ⟨header, version, sdkVersion,
        ⟨client, version, rfl, headerRead, bind_ok_iff.mpr ⟨reply, replied, read⟩⟩, rfl⟩
    | error e =>
      rw [reaches] at h
      obtain ⟨unreadyReport, sdk, hsdk⟩ := unready e h
      refine .inr ⟨unreadyReport, ?_⟩
      rintro header ⟨_, version, ⟨⟩, headerRead, versionRead⟩
      obtain ⟨reply, replied, read⟩ := bind_ok versionRead
      have whole : reachedReport sdkVersion request roles client =
          .ok ((found request roles header).report request roles sdk version) :=
        bind_ok_iff.mpr ⟨header, headerRead, bind_ok_iff.mpr ⟨sdk, hsdk,
          bind_ok_iff.mpr ⟨reply, replied, bind_ok_iff.mpr ⟨version, read, rfl⟩⟩⟩⟩
      rw [reaches] at whole
      cases whole

omit [TextEquality V] in
theorem Reached.unique {header header' : Header V} (h : Reached factory header)
    (h' : Reached factory header') : header = header' := by
  obtain ⟨client, _, rfl, read, -⟩ := h
  obtain ⟨_, _, ⟨⟩, read', -⟩ := h'
  exact Except.ok.inj (read.symm.trans read')

/-- Readiness is sound exactly where passing the checks shows what soundness adds
to them, for either reading of a specified address. -/
theorem readinessSound_iff {shows : Metagraph V → Prop}
    (h : collectTestnetPreflight repr sdkVersion request factory = .ok report)
    (parsed : parsePublicRoles repr request.roleSpecs = .ok roles)
    (sound : ∀ header netuid coldkey metagraph, Passes roles header netuid coldkey metagraph →
      ((∀ role ∈ roles, ∃ uid, SoundAt specified metagraph coldkey role uid) ↔ shows metagraph)) :
    ReadinessSound specified request roles factory report ↔
      WherePassing request roles factory shows := by
  have distinct : (roles.map Prod.fst).Nodup := parsePublicRoles_nodup parsed
  obtain ⟨_, parsed', cases⟩ := report_cases h
  rw [parsed] at parsed'
  cases parsed'
  constructor
  · rintro holds header netuid coldkey metagraph reached hnetuid hcoldkey passes
    rcases cases with ⟨header', version, sdk, reached', rfl⟩ | ⟨-, none⟩
    · cases reached.unique reached'
      have ready := (@readyForProtocol_iff_passes V _ _ request roles header distinct).mpr
        ⟨netuid, coldkey, metagraph, hnetuid, hcoldkey, passes⟩
      obtain ⟨header', netuid', coldkey', metagraph', reached', hnetuid', hcoldkey', shown⟩ :=
        holds ready
      cases reached.unique reached'
      cases hnetuid.symm.trans hnetuid'
      cases hcoldkey.symm.trans hcoldkey'
      cases passes.shown.symm.trans shown.shown
      exact (sound _ _ _ _ passes).mp shown.listed
    · exact absurd reached (none header)
  · intro condition ready
    rcases cases with ⟨header, version, sdk, reached, rfl⟩ | ⟨unready, -⟩
    · obtain ⟨netuid, coldkey, metagraph, hnetuid, hcoldkey, passes⟩ :=
        (readyForProtocol_iff_passes distinct).mp ready
      have shown := condition header netuid coldkey metagraph reached hnetuid hcoldkey passes
      have added : testnetSubnetExists header.snapshot.toSnapshot netuid = .ok true := by
        obtain ⟨status, read, there⟩ := passes.subnet
        unfold subnetStatus at read
        split at read
        next => cases read
        next =>
          cases read
          cases there
        next hadded => exact hadded
      obtain ⟨-, -, -, -, -, errors⟩ :=
        readyForRegistration_iff.mp (registration_of_protocol ready)
      obtain ⟨validator, miners⟩ := (requiredRoles_iff distinct).mp passes.required
      refine ⟨header, netuid, coldkey, metagraph, reached, hnetuid, hcoldkey, passes.canonical,
        passes.pinned, added, passes.balance, errors, validator, ?_, passes.shown,
        (sound _ _ _ _ passes).mpr shown⟩
      rwa [distinct.dedup]
    · rw [unready] at ready
      cases ready

theorem passesAt_of_listed {header : Header V} {netuid : Int}
    (passes : Passes roles header netuid coldkey metagraph) {role : Text × Text}
    (hrole : role ∈ roles) : ∃ position uid,
      PassesAt header.snapshot metagraph coldkey position role uid := by
  obtain ⟨entry, hentry, rfl⟩ : ∃ entry ∈ roles.zipIdx, entry.1 = role := by
    rw [← List.zipIdx_map_fst 0 roles] at hrole
    exact List.mem_map.mp hrole
  obtain ⟨uid, at_uid⟩ := passes.listed entry hentry
  exact ⟨entry.2, uid, at_uid⟩

theorem isUnspecified_of_parses {ip : Text} (specified : unspecified ip = false)
    (parses : isUnspecified ip ≠ none) : isUnspecified ip = some false := by
  obtain ⟨answer, parsed⟩ := Option.ne_none_iff_exists'.mp parses
  rw [unspecified, parsed] at specified
  rw [parsed, ← specified]
  rfl

/-- Roles that are sound show their coldkeys. -/
theorem coldkeysShown_of_sound
    (sound : ∀ role ∈ roles, ∃ uid, SoundAt specified metagraph coldkey role uid) :
    ColdkeysShown roles metagraph := by
  intro role hrole uid found
  obtain ⟨uid', at_uid⟩ := sound role hrole
  cases found.symm.trans at_uid.found
  obtain ⟨value, shown, -⟩ := at_uid.ownership
  exact ⟨value, shown⟩

/-- Readiness is sound exactly where the metagraph shows the coldkeys. Where a
specified address is to be one that `ip_address` accepts, the miners' addresses
have to parse as well. -/
theorem protocolReadiness_sound_iff
    (h : collectTestnetPreflight repr sdkVersion request factory = .ok report) :
    ∃ roles, parsePublicRoles repr request.roleSpecs = .ok roles ∧
      (ReadinessSound (fun ip => unspecified ip = false) request roles factory report ↔
        WherePassing request roles factory (ColdkeysShown roles)) ∧
      (ReadinessSound (fun ip => isUnspecified ip = some false) request roles factory report ↔
        WherePassing request roles factory fun metagraph =>
          ColdkeysShown roles metagraph ∧ AddressesParse roles metagraph) := by
  obtain ⟨roles, parsed, -⟩ := report_cases h
  refine ⟨roles, parsed, readinessSound_iff h parsed ?_, readinessSound_iff h parsed ?_⟩
  · intro header netuid coldkey metagraph passes
    refine ⟨coldkeysShown_of_sound, fun shown role hrole => ?_⟩
    obtain ⟨position, uid, at_uid⟩ := passesAt_of_listed passes hrole
    exact ⟨uid, at_uid.sound (shown role hrole uid at_uid.found) fun _ _ _ _ _ ip => ip⟩
  · intro header netuid coldkey metagraph passes
    constructor
    · intro sound
      refine ⟨coldkeysShown_of_sound sound, ?_⟩
      intro role hrole miner uid found value axon shown read
      obtain ⟨uid', at_uid⟩ := sound role hrole
      cases found.symm.trans at_uid.found
      obtain ⟨value', axon', shown', read', -, address⟩ := at_uid.served miner
      cases shown.symm.trans shown'
      cases read.symm.trans read'
      rw [address]
      exact Option.some_ne_none false
    · rintro ⟨shown, parses⟩ role hrole
      obtain ⟨position, uid, at_uid⟩ := passesAt_of_listed passes hrole
      refine ⟨uid, at_uid.sound (shown role hrole uid at_uid.found) ?_⟩
      intro value axon miner hvalue read address
      exact isUnspecified_of_parses address
        (parses role hrole miner uid at_uid.found value axon hvalue read)

end Soundness

/-! A validator and two miners, all served; the metagraph may leave the coldkeys out. -/
namespace Sample

def address (c : Char) : Text := '5' :: List.replicate 47 c

def named (name : String) (value : Literal Int) : Literal Int × Literal Int :=
  (.str name.toList, value)

instance literalEquality : TextEquality (Literal Int) where
  eqText value text :=
    match value with
    | .str shown => .ok (decide (shown = text))
    | _ => .ok false

def axon (ip : String) : Literal Int :=
  .dict [named "ip" (.str ip.toList), named "port" (.int 8091), named "ip_type" (.int 4)]

def metagraph (coldkeys : List (Literal Int)) : Literal Int :=
  .dict [named "hotkeys" (.list [.str (address 'B'), .str (address 'C'), .str (address 'D')]),
    named "owner_hotkey" (.str (address 'E')),
    named "coldkeys" (.list coldkeys),
    named "axons" (.list [axon "203.0.113.10", axon "203.0.113.11", axon "2001:db8::12"]),
    named "validator_permit" (.list [.bool true, .bool false, .bool false]),
    named "last_update" (.list [.int 12340, .int 12341, .int 12342])]

def snapshot (coldkeys : List (Literal Int)) : PreflightSnapshot (Literal Int) where
  block := .ok (.int 12345)
  blockInfo := .ok .none
  networksAdded netuid := .ok (.bool (decide (netuid = 7)))
  read name _ :=
    if name = "subnet".toList then .ok (.dict [named "neuron_count" (.int 3), named "tempo" (.int 99)])
    else if name = "subnet_hyperparameters".toList then .ok (.dict [named "max_uids" (.int 256)])
    else .ok (metagraph coldkeys)
  readAccount _ _ := .ok (.dict [named "rao" (.int 2500000000)])
  readGlobal _ := .ok .none
  blocksSince _ lastUpdate := .ok (max 0 (12345 - lastUpdate))

def client (coldkeys : List (Literal Int)) :
    PinnedClient (Literal Int) (PreflightSnapshot (Literal Int)) where
  endpoint := .ok (.str testnetEndpoint)
  block := .ok (.int 12345)
  specVersion := .ok (.int 454)
  atBlock _ := .ok (snapshot coldkeys)
  close := .ok ()

def request : PreflightRequest where
  netuid := some 7
  coldkeySs58 := some (address 'A')
  roleSpecs := ["validator=".toList ++ address 'B', "miner-a=".toList ++ address 'C',
    "miner-b=".toList ++ address 'D']
  requireRegistered := true
  requireServedAxon := true

def collect (coldkeys : List (Literal Int)) : Except Raised TestnetPreflightReport :=
  collectTestnetPreflight id (.ok "11.1.0".toList) request (.ok (client coldkeys))

theorem collect_ready (coldkeys : List (Literal Int))
    (shown : (collect coldkeys).toOption.map TestnetPreflightReport.readyForProtocolRun =
      some true) :
    ∃ report, collect coldkeys = .ok report ∧ report.readyForProtocolRun = true := by
  cases collected : collect coldkeys with
  | error e =>
    rw [collected] at shown
    cases shown
  | ok report =>
    rw [collected] at shown
    exact ⟨report, rfl, Option.some.inj shown⟩

def owned : List (Literal Int) := List.replicate 3 (.str (address 'A'))

end Sample

/-- What the report on a complete metagraph has to show. -/
theorem protocolReadiness_sound_iff_owned : ∃ report, Sample.collect Sample.owned = .ok report ∧
    report.readyForProtocolRun = true ∧
    ∃ roles, parsePublicRoles id Sample.request.roleSpecs = .ok roles ∧
      (ReadinessSound (fun ip => unspecified ip = false) Sample.request roles
          (.ok (Sample.client Sample.owned)) report ↔
        WherePassing Sample.request roles (.ok (Sample.client Sample.owned))
          (ColdkeysShown roles)) ∧
      (ReadinessSound (fun ip => isUnspecified ip = some false) Sample.request roles
          (.ok (Sample.client Sample.owned)) report ↔
        WherePassing Sample.request roles (.ok (Sample.client Sample.owned)) fun metagraph =>
          ColdkeysShown roles metagraph ∧ AddressesParse roles metagraph) := by
  obtain ⟨report, collected, ready⟩ :=
    Sample.collect_ready Sample.owned (by decide +kernel)
  exact ⟨report, collected, ready, protocolReadiness_sound_iff collected⟩

/-- A report is ready although the metagraph shows no coldkey at all. -/
theorem ready_without_coldkeys : ∃ report roles, Sample.collect [] = .ok report ∧
    parsePublicRoles id Sample.request.roleSpecs = .ok roles ∧
    report.readyForProtocolRun = true ∧
    ¬ ReadinessSound (fun ip => unspecified ip = false) Sample.request roles
      (.ok (Sample.client [])) report := by
  obtain ⟨report, collected, ready⟩ := Sample.collect_ready [] (by decide +kernel)
  obtain ⟨roles, parsed, -⟩ := report_cases collected
  refine ⟨report, roles, collected, parsed, ready, fun sound => ?_⟩
  obtain ⟨header, netuid, coldkey, metagraph, ⟨_, _, ⟨⟩, read, -⟩, -, -, holds⟩ := sound ready
  cases read
  obtain ⟨role, hrole, -⟩ := List.mem_map.mp holds.validator
  obtain ⟨uid, at_uid⟩ := holds.listed role hrole
  obtain ⟨value, shown, -⟩ := at_uid.ownership
  have shown' := holds.shown
  cases shown'
  cases shown

end PreflightReadiness
