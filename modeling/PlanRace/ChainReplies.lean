import PlanRace.Library.Fallible
import PlanRace.Library.PythonObjects

/-!
# Replies of the chain client

What the read-only testnet tools make of the objects that the SDK returns. Every
access may raise, and no reply is trusted to have the expected type.
-/

namespace ChainReplies

open JsonText PythonObjects Fallible

def testnetEndpoint : Text := "wss://test.finney.opentensor.ai:443".toList

def maxNetuid : Int := 65535

section Identities

/-- A character of `[1-9A-HJ-NP-Za-km-z]`. -/
def isBase58 (c : Char) : Bool :=
  decide (('1' ≤ c ∧ c ≤ '9') ∨ ('A' ≤ c ∧ c ≤ 'H') ∨ ('J' ≤ c ∧ c ≤ 'N') ∨ ('P' ≤ c ∧ c ≤ 'Z') ∨
    ('a' ≤ c ∧ c ≤ 'k') ∨ ('m' ≤ c ∧ c ≤ 'z'))

/-- `_SS58_RE.fullmatch(address)`. -/
def isPublicSs58 (address : Text) : Bool :=
  match address with
  | '5' :: rest => rest.length == 47 && rest.all isBase58
  | _ => false

def validatePublicSs58 (address : Text) : Except Raised Unit :=
  if isPublicSs58 address then .ok ()
  else .error (.valueError "public SS58 address must be a 48-character Bittensor address".toList)

theorem validatePublicSs58_ok_iff {address : Text} :
    validatePublicSs58 address = .ok () ↔ isPublicSs58 address = true := by
  unfold validatePublicSs58
  split_ifs with h
  · exact iff_of_true rfl h
  · exact iff_of_false (by simp) h

end Identities

section Objects

variable {V : Type} [PythonObject V]

open PythonObject

/-- `_field(value, name)`; nothing stands for the default. -/
def field (value : V) (name : Text) :
    Except Raised (Option V) :=
  if isMapping value then get value (.inr name) else getattr value name

/-- `_optional_int` of a converted object. -/
def optionalInt : Option V → Except Raised (Option Int)
  | none => .ok none
  | some value =>
    if isNone value ∨ (asBool value).isSome then .ok none
    else if isText value ∨ hasInt value then
      match int value with
      | .ok i => .ok (some i)
      | .error (.typeError _) => .ok none
      | .error (.valueError _) => .ok none
      | .error e => .error e
    else .ok none

def optionalBool (value : Option V) : Option Bool :=
  value.bind (asBool)

/-- `_finite_float` of what `float(value)` gave. -/
def finiteFloat {K : Type} (isBool : Bool) (converted : Except Raised (Number K)) :
    Except Raised (Option K) :=
  if isBool then .ok none
  else
    match converted with
    | .ok output => .ok output.finite?
    | .error (.typeError _) => .ok none
    | .error (.valueError _) => .ok none
    | .error .overflowError => .ok none
    | .error e => .error e

/-- `str(_field(value, name, ""))`. -/
def fieldText (value : V) (name : Text) :
    Except Raised Text := do
  match ← field value name with
  | none => return []
  | some found => str found

/-- `_indexed(value, index)`. -/
def indexed (value : Option V) (index : Nat) : Option V :=
  (value.bind (elements)).bind fun items => items[index]?

/-- The elements of a sequence of hotkeys; a missing one has none. -/
def hotkeyItems : Option V → Except Raised (List V)
  | none => .ok []
  | some value =>
    match elements value with
    | some items => .ok items
    | none => .error (.valueError "testnet returned invalid metagraph hotkeys".toList)

/-- `_hotkeys(metagraph)`. -/
def hotkeysOf (metagraph : V) : Except Raised (List Text) := do
  let items ← hotkeyItems (← field metagraph "hotkeys".toList)
  let output ← items.mapM str
  require output.Nodup
    (.valueError "testnet returned duplicate metagraph hotkeys".toList)
  return output

theorem getElem?_of_idxOf? {hotkeys : List Text} {hotkey : Text} {uid : Nat}
    (h : hotkeys.idxOf? hotkey = some uid) : hotkeys[uid]? = some hotkey := by
  obtain ⟨bound, found, -⟩ := List.findIdx?_eq_some_iff_getElem.mp h
  rw [List.getElem?_eq_getElem bound, beq_iff_eq.mp found]

end Objects

section Client

variable (V : Type)

/-- The replies of the chain at one block. -/
structure Snapshot where
  /-- `int(snapshot.block)`. -/
  block : Except Raised V
  blockInfo : Except Raised V
  /-- `snapshot.query(NetworksAdded, [netuid])`. -/
  networksAdded : Int → Except Raised V
  /-- `snapshot.read(name, netuid=netuid)`. -/
  read : Text → Int → Except Raised V

/-- The replies of a client; its runtime version is read more than once. -/
structure Client where
  endpoint : Except Raised V
  block : Except Raised V
  specVersion : Nat → Except Raised V
  /-- `client.at(block)`. -/
  atBlock : Int → Except Raised (Snapshot V)
  close : Except Raised Unit

/-- A snapshot that is also read by the address of a key, and without one. -/
structure AccountSnapshot extends Snapshot V where
  /-- `snapshot.read(name, coldkey_ss58=address)`, or `hotkey_ss58`. -/
  readAccount : Text → Text → Except Raised V
  /-- `snapshot.read(name)`. -/
  readGlobal : Text → Except Raised V

/-- The replies of a client whose snapshots are of type `S`. -/
structure PinnedClient (S : Type) where
  endpoint : Except Raised V
  block : Except Raised V
  specVersion : Except Raised V
  /-- `client.at(block)`. -/
  atBlock : Int → Except Raised S
  close : Except Raised Unit

variable {V} [PythonObject V]

/-- `testnet_subnet_exists(snapshot, netuid)`. -/
def testnetSubnetExists (snapshot : Snapshot V)
    (netuid : Int) : Except Raised Bool := do
  let value ← snapshot.networksAdded netuid
  match PythonObject.asBool value with
  | none => throw (.valueError "testnet returned an invalid subnet existence flag".toList)
  | some added => return added

end Client

end ChainReplies
