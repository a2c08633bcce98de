import PlanRace.CanonicalJson

/-!
# Constrained strings and the JSON image of a wire model

A constrained string carries the proof that its pattern and its length bounds
hold, so a model built from such strings is valid by construction. A wire
model is dumped as a document in which no information is lost.
-/

namespace WireText

open JsonText CanonicalJson

/-- A string that passed the check of its annotated type. -/
def Constrained (accepts : Text → Bool) : Type := {t : Text // accepts t = true}

instance (accepts : Text → Bool) : DecidableEq (Constrained accepts) :=
  inferInstanceAs (DecidableEq {t : Text // accepts t = true})

def lengthBetween (lo hi : Nat) (t : Text) : Bool := decide (lo ≤ t.length) && decide (t.length ≤ hi)

/-- `[A-Za-z]`. -/
def isAsciiLetter (c : Char) : Bool := c.isUpper || c.isLower

def isSqlText (t : Text) : Bool := lengthBetween 1 65536 t

/-- `^[A-Za-z_][A-Za-z0-9_]*$`, at most 63 characters. -/
def isSafeIdentifier (t : Text) : Bool :=
  lengthBetween 1 63 t &&
    match t with
    | [] => false
    | c :: rest => (isAsciiLetter c || c == '_') &&
        rest.all fun d => isAsciiLetter d || d.isDigit || d == '_'

/-- `^[a-z0-9][a-z0-9-]*$`, at most 63 characters. -/
def isBenchmarkFamilyId (t : Text) : Bool :=
  lengthBetween 1 63 t &&
    match t with
    | [] => false
    | c :: rest => (c.isLower || c.isDigit) && rest.all fun d => d.isLower || d.isDigit || d == '-'

/-- `^[1-9A-HJ-NP-Za-km-z]+$`, 32 to 64 characters. -/
def isHotkey (t : Text) : Bool :=
  lengthBetween 32 64 t &&
    t.all fun c => (isAsciiLetter c || c.isDigit) && !(c == '0' || c == 'O' || c == 'I' || c == 'l')

abbrev Sha256Digest := Constrained isSha256Digest
abbrev OpaqueId := Constrained (hexOfLength 32)
abbrev Hotkey := Constrained isHotkey
abbrev SqlTextV2 := Constrained isSqlText
abbrev SafeIdentifier := Constrained isSafeIdentifier
abbrev BenchmarkFamilyId := Constrained isBenchmarkFamilyId
abbrev Hex32Bytes := Constrained (hexOfLength 64)
abbrev SignatureHex := Constrained (hexOfLength 128)

/-- The digest of a payload, as a value of the digest type. -/
def payloadDigest (domain : Domain) (payload : Json) : Sha256Digest :=
  ⟨domainSeparatedDigest domain payload, isSha256Digest_digestText _⟩

/-- A value whose JSON image (`model_dump(mode="json")`) identifies it. -/
class WireModel (α : Type) where
  modelDump : α → Json
  modelDump_inj : ∀ x y, (modelDump x).Same (modelDump y) → x = y

export WireModel (modelDump modelDump_inj)

theorem modelDump_same_iff {α : Type} [WireModel α] (x y : α) :
    (modelDump x).Same (modelDump y) ↔ x = y := by
  constructor
  · exact modelDump_inj x y
  · rintro rfl
    rfl

/-- The same fact at the normal form that comparing records leaves behind. -/
@[simp] theorem normalize_modelDump_eq_iff {α : Type} [WireModel α] (x y : α) :
    (modelDump x).normalize = (modelDump y).normalize ↔ x = y :=
  modelDump_same_iff x y

instance : WireModel Text where
  modelDump := .str
  modelDump_inj := by
    intro x y h
    exact Json.str.inj h

instance : WireModel Int where
  modelDump := .int
  modelDump_inj := by
    intro x y h
    exact Json.int.inj h

instance : WireModel Nat where
  modelDump n := .int n
  modelDump_inj := by
    intro x y h
    exact Int.ofNat.inj (Json.int.inj h)

instance : WireModel Bool where
  modelDump := .bool
  modelDump_inj := by
    intro x y h
    exact Json.bool.inj h

instance (accepts : Text → Bool) : WireModel (Constrained accepts) where
  modelDump x := .str x.val
  modelDump_inj := by
    intro x y h
    exact Subtype.ext (Json.str.inj h)

/-- A literal type, dumped as one of its texts. -/
abbrev WireModel.ofText {α : Type} (text : α → Text) (injective : Function.Injective text) :
    WireModel α where
  modelDump x := .str (text x)
  modelDump_inj := by
    intro x y h
    exact injective (Json.str.inj h)

instance {α : Type} [WireModel α] : WireModel (List α) where
  modelDump items := .arr (items.map modelDump)
  modelDump_inj := by
    intro xs ys h
    have hitems : xs.map (fun x => (modelDump x).normalize) =
        ys.map (fun y => (modelDump y).normalize) := by
      simpa [Json.Same, List.map_map, Function.comp_def] using h
    have hinj : Function.Injective fun x : α => (modelDump x).normalize := fun x y he =>
      modelDump_inj x y he
    exact List.map_injective_iff.mpr hinj hitems

/-- Absent values are dumped as `null`, which no dumped value is. -/
def dumpOption {α : Type} [WireModel α] : Option α → Json
  | none => .null
  | some x => modelDump x

theorem dumpOption_inj {α : Type} [WireModel α] (present : ∀ x : α, (modelDump x).tag ≠ 0)
    (x y : Option α) (h : (dumpOption x).Same (dumpOption y)) : x = y := by
  have notNull : ∀ x : α, (modelDump x).normalize ≠ Json.null := by
    intro x he
    cases hx : modelDump x with
    | null => exact present x (by rw [hx]; rfl)
    | _ => rw [hx] at he; cases he
  cases x with
  | none =>
    cases y with
    | none => rfl
    | some y => exact absurd h.symm (notNull y)
  | some x =>
    cases y with
    | none => exact absurd h (notNull x)
    | some y => rw [modelDump_inj x y h]

end WireText
