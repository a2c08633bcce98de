import Mathlib.Data.List.Dedup
import PlanRace.ChainReplies

/-!
# The testnet preflight

`collect_testnet_preflight`: public chain identifiers and one pinned snapshot
become a report that says whether a protocol run may start. Every lookup that
raises becomes an entry of the report's errors.
-/

namespace TestnetPreflight

open JsonText PythonObjects ChainReplies Fallible

section Addresses

/-- `IPv4Address._parse_octet`. -/
def parseOctet (octet : Text) : Option Nat :=
  if octet ≠ [] ∧ octet.all Char.isDigit = true ∧ octet.length ≤ 3 ∧
      (octet = ['0'] ∨ octet.head? ≠ some '0') then
    let value := Nat.ofDigitChars 10 octet 0
    if value ≤ 255 then some value else none
  else none

/-- `IPv4Address(text)`, as a number. -/
def ipv4Address (text : Text) : Option Nat := do
  let octets ← (text.splitOn '.').mapM parseOctet
  if octets.length = 4 then some (octets.foldl (fun value octet => 256 * value + octet) 0) else none

def hexValue (c : Char) : Option Nat :=
  if '0' ≤ c ∧ c ≤ '9' then some (c.toNat - '0'.toNat)
  else if 'a' ≤ c ∧ c ≤ 'f' then some (c.toNat - 'a'.toNat + 10)
  else if 'A' ≤ c ∧ c ≤ 'F' then some (c.toNat - 'A'.toNat + 10)
  else none

/-- `IPv6Address._parse_hextet`. -/
def parseHextet (hextet : Text) : Option Nat :=
  if hextet = [] ∨ 4 < hextet.length then none
  else (hextet.mapM hexValue).map fun digits => digits.foldl (fun value digit => 16 * value + digit) 0

/-- The parts between colons as hextets, the text of an IPv4 address at the end as two. -/
def hextetParts (text : Text) : Option (List (Option Nat)) :=
  let parts := text.splitOn ':'
  let read (part : Text) : Option (Option Nat) :=
    if part = [] then some none else (parseHextet part).map some
  match parts.getLast? with
  | none => none
  | some last =>
    if parts.length < 3 then none
    else if '.' ∈ last then do
      let value ← ipv4Address last
      let front ← parts.dropLast.mapM read
      some (front ++ [some (value / 65536), some (value % 65536)])
    else parts.mapM read

/-- The eight hextets, with the one run of zeros that `::` stands for filled in. -/
def fillHextets (parts : List (Option Nat)) : Option (List Nat) :=
  if parts.all Option.isSome = true then
    if parts.length = 8 then some (parts.filterMap id) else none
  else
    let before := parts.takeWhile Option.isSome
    let after := (parts.reverse.takeWhile Option.isSome).reverse
    let gap := (parts.drop before.length).take (parts.length - before.length - after.length)
    -- the empty part between two colons, with the empty end that a leading or trailing `::` leaves
    let expected := 1 + (if before = [] then 1 else 0) + (if after = [] then 1 else 0)
    if gap.all Option.isNone = true ∧ gap.length = expected ∧ before.length + after.length < 8 then
      some (before.filterMap id ++ List.replicate (8 - before.length - after.length) 0 ++
        after.filterMap id)
    else none

/-- The scope of an IPv6 address is not empty and holds no second `%`. -/
def withoutScope (text : Text) : Option Text :=
  let scope := text.dropWhile (· ≠ '%')
  match scope with
  | [] => some text
  | _ :: scopeId =>
    if scopeId = [] ∨ '%' ∈ scopeId then none else some (text.takeWhile (· ≠ '%'))

/-- `IPv6Address(text)`, as its eight hextets. -/
def ipv6Address (text : Text) : Option (List Nat) :=
  if '/' ∈ text then none
  else do
    let address ← withoutScope text
    let parts ← hextetParts address
    fillHextets parts

/-- `ip_address(text).is_unspecified`; nothing where `ip_address` raises. An IPv4
address inside an IPv6 address is judged as one. -/
def isUnspecified (text : Text) : Option Bool :=
  match ipv4Address text with
  | some value => some (decide (value = 0))
  | none => (ipv6Address text).map fun hextets =>
      decide (hextets = List.replicate 8 0) ||
        decide (hextets = [0, 0, 0, 0, 0, 65535, 0, 0])

end Addresses

section Roles

def isRoleStart (c : Char) : Bool := decide ('a' ≤ c ∧ c ≤ 'z')

def isRoleChar (c : Char) : Bool :=
  isRoleStart c || c.isDigit || c == '_' || c == '-'

/-- `_ROLE_RE.fullmatch(role)`. -/
def isRoleName (role : Text) : Bool :=
  match role with
  | [] => false
  | first :: rest => isRoleStart first && rest.all isRoleChar && decide (rest.length ≤ 31)

/-- One `role=public-hotkey` value, with `repr(role)` for the message. -/
def parseRole (repr : Text → Text) (value : Text) : Except Raised (Text × Text) := do
  require ('=' ∈ value) (.valueError "hotkey must use role=SS58 format".toList)
  let role := value.takeWhile (· ≠ '=')
  let address := (value.dropWhile (· ≠ '=')).tail
  require (isRoleName role = true) (.valueError ("invalid role name ".toList ++ repr role))
  validatePublicSs58 address
  return (role, address)

/-- The loop of `parse_public_roles`. -/
def parseRoles (repr : Text → Text) :
    List (Text × Text) → List Text → Except Raised (List (Text × Text))
  | parsed, [] => .ok parsed
  | parsed, value :: rest => do
    let entry ← parseRole repr value
    require (entry.1 ∉ parsed.map Prod.fst)
      (.valueError ("duplicate role ".toList ++ repr entry.1))
    require (entry.2 ∉ parsed.map Prod.snd)
      (.valueError "one public hotkey cannot be assigned to multiple roles".toList)
    parseRoles repr (parsed ++ [entry]) rest

def parsePublicRoles (repr : Text → Text) (values : List Text) :
    Except Raised (List (Text × Text)) :=
  parseRoles repr [] values

def validatorRole : Text := "validator".toList

/-- `role.startswith("miner")`. -/
def isMinerRole (role : Text) : Bool := "miner".toList.isPrefixOf role

/-- The roles name a validator and at least two miners. -/
def requiredRoles (roles : List (Text × Text)) : Bool :=
  let roleNames := (roles.map Prod.fst).dedup
  decide (validatorRole ∈ roleNames) && decide (2 ≤ roleNames.countP isMinerRole)

end Roles

section Records

structure PublicAxon where
  ip : Text
  port : Int
  ipType : Int
  protocol : Int
  version : Int
deriving DecidableEq

structure RoleStatus where
  role : Text
  hotkeySs58 : Text
  uid : Option Nat
  registered : Bool
  coldkeyMatches : Option Bool
  axonServed : Bool
  axon : Option PublicAxon
  validatorPermit : Bool
  isSubnetOwner : Bool
  weightSettingAuthorized : Bool
  blocksSinceLastUpdate : Option Int
deriving DecidableEq

structure SubnetStatus where
  netuid : Int
  subnetExists : Bool
  neuronCount : Option Int := none
  tempo : Option Int := none
  registrationAllowed : Option Bool := none
  subnetIsActive : Option Bool := none
  maxUids : Option Int := none
  minAllowedWeights : Option Int := none
  maxWeightsLimit : Option Int := none
  weightsRateLimit : Option Int := none
  commitRevealWeightsEnabled : Option Bool := none
  commitRevealPeriod : Option Int := none
deriving DecidableEq

structure ColdkeyStatus where
  ss58 : Text
  balanceRao : Int
  positiveBalance : Bool
deriving DecidableEq

structure PreflightGates where
  canonicalEndpoint : Bool
  snapshotPinned : Bool
  subnetExists : Bool
  coldkeyBalancePositive : Bool
  requiredRolesPresent : Bool
  allRolesRegistered : Bool
  validatorAuthorized : Bool
  minerAxonsServed : Bool
  registrationRequirementMet : Bool
  servedAxonRequirementMet : Bool
deriving DecidableEq

structure TestnetPreflightReport where
  schemaVersion : Text := "planrace/testnet-preflight/2".toList
  readOnly : Bool := true
  network : Text := "test".toList
  endpoint : Text := testnetEndpoint
  sdkVersion : Text
  block : Option Int
  runtimeSpecVersion : Option Int
  chainReachable : Bool
  subnet : Option SubnetStatus
  coldkey : Option ColdkeyStatus
  roles : List RoleStatus
  gates : PreflightGates
  readyForRegistration : Bool
  readyForProtocolRun : Bool
  nextAction : Text
  limitations : List Text
  errors : List Text
deriving DecidableEq

end Records

section Statuses

variable {V : Type} [PythonObject V]

open PythonObject

/-- The replies at one block. -/
structure PreflightSnapshot (V : Type) extends AccountSnapshot V where
  /-- `max(0, snapshot.block - last_update)` for the role at a position. -/
  blocksSince : Nat → Int → Except Raised Int

/-- `value == text`. -/
class TextEquality (V : Type) where
  eqText : V → Text → Except Raised Bool

/-- `_optional_int(_field(value, name, 0)) or 0`. -/
def numberOr0 (value : V) (name : Text) : Except Raised Int := do
  let number ← optionalInt (← field value name)
  return number.getD 0

/-- An address that stands for none: the unspecified one, or no text at all. -/
def unspecified (ip : Text) : Bool := (isUnspecified ip).getD ip.isEmpty

def axonOf (value : V) : Except Raised PublicAxon := do
  let ip ← fieldText value "ip".toList
  let port ← numberOr0 value "port".toList
  let ipType ← numberOr0 value "ip_type".toList
  let protocol ← numberOr0 value "protocol".toList
  let version ← numberOr0 value "version".toList
  return ⟨ip, port, ipType, protocol, version⟩

/-- An item of a list that may be short or hold `None`. -/
def present (item : Option V) : Option V := item.filter fun value => !isNone value

/-- `_axon_status`. -/
def axonStatus (item : Option V) : Except Raised (Bool × Option PublicAxon) :=
  match present item with
  | none => .ok (false, none)
  | some value => do
    let axon ← axonOf value
    return (decide (0 < axon.port) && !unspecified axon.ip, some axon)

/-- The hyperparameters and the neuron count of a subnet that exists. -/
def existingSubnet (snapshot : Snapshot V) (netuid : Int) : Except Raised SubnetStatus := do
  let subnet ← snapshot.read "subnet".toList netuid
  require (isNone subnet = false)
    (.valueError "existing testnet subnet returned no subnet data".toList)
  let hyper ← snapshot.read "subnet_hyperparameters".toList netuid
  let neuronCount ← optionalInt (← field subnet "neuron_count".toList)
  let hyperTempo ← field hyper "tempo".toList
  let subnetTempo ← field subnet "tempo".toList
  let tempo ← optionalInt (subnetTempo.or hyperTempo)
  let registrationAllowed ← field hyper "registration_allowed".toList
  let subnetIsActive ← field hyper "subnet_is_active".toList
  let maxUids ← optionalInt (← field hyper "max_uids".toList)
  let minAllowedWeights ← optionalInt (← field hyper "min_allowed_weights".toList)
  let maxWeightsLimit ← optionalInt (← field hyper "max_weights_limit".toList)
  let weightsRateLimit ← optionalInt (← field hyper "weights_rate_limit".toList)
  let commitReveal ← field hyper "commit_reveal_weights_enabled".toList
  let commitRevealPeriod ← optionalInt (← field hyper "commit_reveal_period".toList)
  return {
    netuid := netuid
    subnetExists := true
    neuronCount := neuronCount
    tempo := tempo
    registrationAllowed := optionalBool registrationAllowed
    subnetIsActive := optionalBool subnetIsActive
    maxUids := maxUids
    minAllowedWeights := minAllowedWeights
    maxWeightsLimit := maxWeightsLimit
    weightsRateLimit := weightsRateLimit
    commitRevealWeightsEnabled := optionalBool commitReveal
    commitRevealPeriod := commitRevealPeriod }

def absentSubnet (netuid : Int) : SubnetStatus := { netuid := netuid, subnetExists := false }

/-- `_subnet_status`. -/
def subnetStatus (snapshot : Snapshot V) (netuid : Int) : Except Raised SubnetStatus :=
  match testnetSubnetExists snapshot netuid with
  | .error e => .error e
  | .ok false => .ok (absentSubnet netuid)
  | .ok true => existingSubnet snapshot netuid

/-- The balance of a coldkey, not negative. -/
def balanceRao (snapshot : AccountSnapshot V) (address : Text) : Except Raised Int := do
  let balance ← snapshot.readAccount "balance".toList address
  match ← optionalInt (← field balance "rao".toList) with
  | none => throw (.valueError "testnet returned an invalid coldkey balance".toList)
  | some rao =>
    require (0 ≤ rao) (.valueError "testnet returned an invalid coldkey balance".toList)
    return rao

/-- `_coldkey_status`. -/
def coldkeyStatus (snapshot : AccountSnapshot V) (address : Text) : Except Raised ColdkeyStatus := do
  let rao ← balanceRao snapshot address
  return ⟨address, rao, decide (0 < rao)⟩

/-- The fields of a metagraph that a role is looked up in. -/
structure Metagraph (V : Type) where
  hotkeys : List V
  coldkeys : Option V
  axons : Option V
  permits : Option V
  ownerHotkey : Text
  lastUpdates : Option V

/-- What `_role_statuses` reads before it looks at the roles. No character of a
text and no byte equals an address, so those sequences count as empty. -/
def readMetagraph (snapshot : Snapshot V) (netuid : Int) : Except Raised (Metagraph V) := do
  let metagraph ← snapshot.read "metagraph".toList netuid
  let hotkeys ← field metagraph "hotkeys".toList
  let coldkeys ← field metagraph "coldkeys".toList
  let axons ← field metagraph "axons".toList
  let permits ← field metagraph "validator_permit".toList
  let ownerHotkey ← fieldText metagraph "owner_hotkey".toList
  let lastUpdates ← field metagraph "last_update".toList
  return ⟨(hotkeys.bind elements).getD [], coldkeys, axons, permits, ownerHotkey, lastUpdates⟩

/-- `hotkey_list.index(address)`, when `address in hotkey_list`. -/
def uidOf [TextEquality V] (address : Text) : List V → Except Raised (Option Nat)
  | [] => .ok none
  | hotkey :: rest =>
    match TextEquality.eqText hotkey address with
    | .error e => .error e
    | .ok true => .ok (some 0)
    | .ok false => (uidOf address rest).map (Option.map (· + 1))

/-- `bool(_indexed(permits, uid, False))`. -/
def permitAt (permits : Option V) (uid : Nat) : Except Raised Bool :=
  match indexed permits uid with
  | none => .ok false
  | some permit => truth permit

def blocksSinceUpdate (snapshot : PreflightSnapshot V) (position : Nat) :
    Option Int → Except Raised (Option Int)
  | none => .ok none
  | some lastUpdate => (snapshot.blocksSince position lastUpdate).map some

/-- Whether the registered coldkey is the expected one; nothing when one of them is missing. -/
def coldkeyMatches (coldkey : Option Text) (registered : Option V) : Except Raised (Option Bool) :=
  match coldkey, registered with
  | some coldkey, some registered => do
    let text ← str registered
    return some (decide (text = coldkey))
  | _, _ => .ok none

def unregisteredStatus (role address : Text) : RoleStatus where
  role := role
  hotkeySs58 := address
  uid := none
  registered := false
  coldkeyMatches := none
  axonServed := false
  axon := none
  validatorPermit := false
  isSubnetOwner := false
  weightSettingAuthorized := false
  blocksSinceLastUpdate := none

/-- The status of a role that the metagraph lists. -/
def registeredStatus (snapshot : PreflightSnapshot V) (metagraph : Metagraph V)
    (coldkey : Option Text) (position : Nat) (role address : Text) (uid : Nat) :
    Except Raised RoleStatus := do
  let (served, axon) ← axonStatus (indexed metagraph.axons uid)
  let lastUpdate ← optionalInt (indexed metagraph.lastUpdates uid)
  let blocksSince ← blocksSinceUpdate snapshot position lastUpdate
  let permit ← permitAt metagraph.permits uid
  let isOwner := decide (metagraph.ownerHotkey ≠ [] ∧ address = metagraph.ownerHotkey)
  let ownership ← coldkeyMatches coldkey (present (indexed metagraph.coldkeys uid))
  return {
    role := role
    hotkeySs58 := address
    uid := some uid
    registered := true
    coldkeyMatches := ownership
    axonServed := served
    axon := axon
    validatorPermit := permit
    isSubnetOwner := isOwner
    weightSettingAuthorized := permit || isOwner
    blocksSinceLastUpdate := blocksSince }

def roleStatus [TextEquality V] (snapshot : PreflightSnapshot V) (metagraph : Metagraph V)
    (coldkey : Option Text) (entry : (Text × Text) × Nat) : Except Raised RoleStatus :=
  match uidOf entry.1.2 metagraph.hotkeys with
  | .error e => .error e
  | .ok none => .ok (unregisteredStatus entry.1.1 entry.1.2)
  | .ok (some uid) => registeredStatus snapshot metagraph coldkey entry.2 entry.1.1 entry.1.2 uid

/-- `_role_statuses`, for a list of roles that is not empty. -/
def roleStatuses [TextEquality V] (snapshot : PreflightSnapshot V) (netuid : Int)
    (roles : List (Text × Text)) (coldkey : Option Text) : Except Raised (List RoleStatus) := do
  let metagraph ← readMetagraph snapshot.toSnapshot netuid
  roles.zipIdx.mapM (roleStatus snapshot metagraph coldkey)

end Statuses

section Report

/-- The arguments of a preflight. -/
structure PreflightRequest where
  netuid : Option Int
  coldkeySs58 : Option Text
  roleSpecs : List Text
  requireRegistered : Bool
  requireServedAxon : Bool

/-- What the lookups of a reachable chain left. -/
structure Findings where
  endpoint : Text
  block : Int
  snapshotPinned : Bool
  subnet : Option SubnetStatus
  coldkey : Option ColdkeyStatus
  roles : List RoleStatus
  errors : List Text

def limitations : List Text :=
  ["This is a read-only latest-block snapshot, not finalized transaction evidence.".toList,
    "A positive balance does not prove ownership or authorize spending.".toList,
    "No registration, serving, staking, signing, or weight operation is performed.".toList]

namespace Findings

variable (findings : Findings)

def subnetExists : Bool := findings.subnet.any SubnetStatus.subnetExists

def balancePositive : Bool := findings.coldkey.any ColdkeyStatus.positiveBalance

def canonical : Bool := decide (findings.endpoint = testnetEndpoint)

def allRegistered : Bool := !findings.roles.isEmpty && findings.roles.all RoleStatus.registered

def validatorAuthorized : Bool :=
  findings.roles.any fun item => decide (item.role = validatorRole) && item.weightSettingAuthorized

def miners : List RoleStatus := findings.roles.filter fun item => isMinerRole item.role

def minersServed : Bool :=
  decide (2 ≤ findings.miners.length) && findings.miners.all RoleStatus.axonServed

/-- No role has a coldkey that is known to differ. -/
def ownershipMatches : Bool :=
  !findings.roles.isEmpty && findings.roles.all fun item => item.coldkeyMatches ≠ some false

def registrationMet (request : PreflightRequest) : Bool :=
  !request.requireRegistered || findings.allRegistered

def servedMet (request : PreflightRequest) : Bool :=
  !request.requireServedAxon || findings.minersServed

def gates (request : PreflightRequest) (roles : List (Text × Text)) : PreflightGates where
  canonicalEndpoint := findings.canonical
  snapshotPinned := findings.snapshotPinned
  subnetExists := findings.subnetExists
  coldkeyBalancePositive := findings.balancePositive
  requiredRolesPresent := requiredRoles roles
  allRolesRegistered := findings.allRegistered
  validatorAuthorized := findings.validatorAuthorized
  minerAxonsServed := findings.minersServed
  registrationRequirementMet := findings.registrationMet request
  servedAxonRequirementMet := findings.servedMet request

def readyForRegistration (roles : List (Text × Text)) : Bool :=
  (findings.canonical && findings.snapshotPinned && findings.subnetExists &&
    findings.balancePositive && requiredRoles roles) && findings.errors.isEmpty

def readyForProtocol (request : PreflightRequest) (roles : List (Text × Text)) : Bool :=
  findings.readyForRegistration roles && findings.allRegistered && findings.ownershipMatches &&
    findings.validatorAuthorized && findings.minersServed && findings.registrationMet request &&
    findings.servedMet request

def nextAction (request : PreflightRequest) (roles : List (Text × Text)) : Text :=
  if ¬ findings.canonical then "Stop: inspect the SDK endpoint before any testnet action.".toList
  else if request.netuid = none ∨ request.coldkeySs58 = none ∨ ¬ requiredRoles roles then
    ("Provide public netuid, coldkey, validator hotkey, and two miner hotkeys; " ++
      "never provide private keys or mnemonics.").toList
  else if ¬ findings.subnetExists then
    "Choose an existing testnet subnet and rerun this read-only preflight.".toList
  else if ¬ findings.balancePositive then
    "Obtain test TAO for the dedicated public coldkey, then rerun.".toList
  else if ¬ findings.allRegistered then
    "Registration is pending and requires an explicit user-authorized signature.".toList
  else if ¬ findings.validatorAuthorized ∨ ¬ findings.minersServed then
    "Serve public Axons and satisfy validator authorization before protocol run.".toList
  else "Public readback gates pass; request explicit authorization before signing.".toList

def report (request : PreflightRequest) (roles : List (Text × Text)) (sdkVersion : Text)
    (runtimeSpecVersion : Int) : TestnetPreflightReport where
  endpoint := findings.endpoint
  sdkVersion := sdkVersion
  block := some findings.block
  runtimeSpecVersion := some runtimeSpecVersion
  chainReachable := true
  subnet := findings.subnet
  coldkey := findings.coldkey
  roles := findings.roles
  gates := findings.gates request roles
  readyForRegistration := findings.readyForRegistration roles
  readyForProtocolRun := findings.readyForProtocol request roles
  nextAction := findings.nextAction request roles
  limitations := limitations
  errors := findings.errors

end Findings

/-- The report when the chain was not reached. -/
def unreachableReport (sdkVersion : Text) (error : Raised) : TestnetPreflightReport where
  sdkVersion := sdkVersion
  block := none
  runtimeSpecVersion := none
  chainReachable := false
  subnet := none
  coldkey := none
  roles := []
  gates := ⟨false, false, false, false, false, false, false, false, false, false⟩
  readyForRegistration := false
  readyForProtocolRun := false
  nextAction := "Stop: restore read-only canonical testnet connectivity and rerun.".toList
  limitations := limitations
  errors := ["connection failed: ".toList ++ error.name]

end Report

section Collection

variable {V : Type} [PythonObject V] [TextEquality V]

open PythonObject

/-- A lookup whose exception becomes an entry of the errors. -/
def lookUp {α : Type} (label : Text) (fallback : α) : Except Raised α → α × List Text
  | .ok found => (found, [])
  | .error e => (fallback, [label ++ e.name])

def lookUpSubnet (snapshot : PreflightSnapshot V) : Option Int → Option SubnetStatus × List Text
  | none => (none, [])
  | some netuid => lookUp "subnet lookup failed: ".toList (some (absentSubnet netuid))
      ((subnetStatus snapshot.toSnapshot netuid).map some)

def lookUpColdkey (snapshot : PreflightSnapshot V) : Option Text → Option ColdkeyStatus × List Text
  | none => (none, [])
  | some address => lookUp "coldkey balance lookup failed: ".toList none
      ((coldkeyStatus snapshot.toAccountSnapshot address).map some)

def lookUpRoles (snapshot : PreflightSnapshot V) (request : PreflightRequest)
    (roles : List (Text × Text)) (subnet : Option SubnetStatus) : List RoleStatus × List Text :=
  match request.netuid with
  | none => ([], [])
  | some netuid =>
    if roles ≠ [] ∧ subnet.any SubnetStatus.subnetExists = true then
      lookUp "metagraph lookup failed: ".toList []
        (roleStatuses snapshot netuid roles request.coldkeySs58)
    else ([], [])

/-- The lookups of `collect_testnet_preflight`, each with its own errors. -/
def findingsOf (request : PreflightRequest) (roles : List (Text × Text)) (endpoint : Text)
    (block : Int) (snapshotPinned : Bool) (snapshot : PreflightSnapshot V) : Findings :=
  let subnet := lookUpSubnet snapshot request.netuid
  let coldkey := lookUpColdkey snapshot request.coldkeySs58
  let statuses := lookUpRoles snapshot request roles subnet.1
  { endpoint := endpoint
    block := block
    snapshotPinned := snapshotPinned
    subnet := subnet.1
    coldkey := coldkey.1
    roles := statuses.1
    errors :=
      (if endpoint = testnetEndpoint then []
        else ["SDK resolved an unexpected endpoint; further readiness is denied".toList]) ++
        subnet.2 ++ coldkey.2 ++ statuses.2 }

/-- Where the snapshot of a client was taken. -/
structure Header (V : Type) where
  endpoint : Text
  block : Int
  pinned : Bool
  snapshot : PreflightSnapshot V

def readHeader (client : PinnedClient V (PreflightSnapshot V)) : Except Raised (Header V) := do
  let endpoint ← str (← client.endpoint)
  let block ← int (← client.block)
  let snapshot ← client.atBlock block
  let snapshotBlock ← int (← snapshot.block)
  return ⟨endpoint, block, decide (snapshotBlock = block), snapshot⟩

/-- The body of the `try` in `collect_testnet_preflight`. -/
def reachedReport (sdkVersion : Except Raised Text) (request : PreflightRequest)
    (roles : List (Text × Text)) (client : PinnedClient V (PreflightSnapshot V)) :
    Except Raised TestnetPreflightReport := do
  let header ← readHeader client
  let findings :=
    findingsOf request roles header.endpoint header.block header.pinned header.snapshot
  let sdkVersion ← sdkVersion
  let runtimeSpecVersion ← int (← client.specVersion)
  return findings.report request roles sdkVersion runtimeSpecVersion

/-- The report of an exception, which reads the SDK's version again. -/
def unreached (sdkVersion : Except Raised Text) (error : Raised) :
    Except Raised TestnetPreflightReport :=
  sdkVersion.map (unreachableReport · error)

/-- `collect_testnet_preflight`. -/
def collectTestnetPreflight (repr : Text → Text) (sdkVersion : Except Raised Text)
    (request : PreflightRequest)
    (clientFactory : Except Raised (PinnedClient V (PreflightSnapshot V))) :
    Except Raised TestnetPreflightReport := do
  require (∀ netuid ∈ request.netuid, 0 ≤ netuid ∧ netuid ≤ maxNetuid)
    (.valueError "netuid must be between 0 and 65535".toList)
  let _ ← request.coldkeySs58.toList.mapM validatePublicSs58
  let roles ← parsePublicRoles repr request.roleSpecs
  match clientFactory with
  | .error e => unreached sdkVersion e
  | .ok client =>
    client.close
    match reachedReport sdkVersion request roles client with
    | .ok report => return report
    | .error e => unreached sdkVersion e

end Collection

end TestnetPreflight
