import PlanRace.Library.JsonText

/-!
# Records with a JSON image

A record is dumped as an object and read back by strict validation: every value
has its type, no unknown name occurs, and a name that occurs again overrides.
Validation does not see the order of an object's members, so a value is known
from its image up to that order.
-/

namespace JsonSchema

open JsonText LexOrder

/-- A type whose values are dumped and validated. -/
class JsonModel (α : Type) where
  dump : α → Json
  validate : Json → Option α
  validate_dump : ∀ x, validate (dump x) = some x
  validate_normalize : ∀ j : Json, validate j.normalize = validate j

export JsonModel (dump validate validate_dump validate_normalize)

section Models

variable {α : Type} [JsonModel α]

theorem validate_of_same {j : Json} {x : α} (h : j.Same (dump x)) : validate j = some x := by
  rw [← validate_normalize j, h, validate_normalize, validate_dump]

instance textModel : JsonModel Text where
  dump := .str
  validate
    | .str s => some s
    | _ => none
  validate_dump _ := rfl
  validate_normalize j := by cases j <;> rfl

instance intModel : JsonModel Int where
  dump := .int
  validate
    | .int i => some i
    | _ => none
  validate_dump _ := rfl
  validate_normalize j := by cases j <;> rfl

instance boolModel : JsonModel Bool where
  dump := .bool
  validate
    | .bool b => some b
    | _ => none
  validate_dump _ := rfl
  validate_normalize j := by cases j <;> rfl

/-- A literal type of one text. -/
abbrev Exactly (t : Text) : Type := {s : Text // s = t}

def exactly (t : Text) : Exactly t := ⟨t, rfl⟩

instance exactlyModel (t : Text) : JsonModel (Exactly t) where
  dump x := .str x.val
  validate
    | .str s => if h : s = t then some ⟨s, h⟩ else none
    | _ => none
  validate_dump x := dif_pos x.property
  validate_normalize j := by cases j <;> rfl

theorem mapM_congr_map {β γ : Type} {f : β → Option γ} {g : β → β} (h : ∀ x, f (g x) = f x)
    (xs : List β) : (xs.map g).mapM f = xs.mapM f := by
  induction xs with
  | nil => rfl
  | cons x xs ih => rw [List.map_cons, List.mapM_cons, List.mapM_cons, h, ih]

theorem mapM_validate_dump (xs : List α) : (xs.map dump).mapM validate = some xs := by
  induction xs with
  | nil => rfl
  | cons x xs ih =>
    rw [List.map_cons, List.mapM_cons, validate_dump, ih]
    rfl

instance listModel : JsonModel (List α) where
  dump items := .arr (items.map dump)
  validate
    | .arr items => items.mapM validate
    | _ => none
  validate_dump items := mapM_validate_dump items
  validate_normalize j := by
    cases j with
    | arr items =>
      rw [normalize_arr]
      exact mapM_congr_map validate_normalize items
    | _ => rfl

/-- A type none of whose values is dumped as `null`. -/
class Nonnull (α : Type) [JsonModel α] : Prop where
  validate_null : validate (α := α) .null = none

instance textNonnull : Nonnull Text := ⟨rfl⟩

instance intNonnull : Nonnull Int := ⟨rfl⟩

instance boolNonnull : Nonnull Bool := ⟨rfl⟩

def dumpOption : Option α → Json
  | none => .null
  | some x => dump x

def validateOption : Json → Option (Option α)
  | .null => some none
  | j => (validate j).map some

instance optionModel [Nonnull α] : JsonModel (Option α) where
  dump := dumpOption
  validate := validateOption
  validate_dump x := by
    cases x with
    | none => rfl
    | some x =>
      have read : validate (dump x) = some x := validate_dump x
      rw [dumpOption]
      cases h : dump x with
      | null =>
        rw [h, Nonnull.validate_null] at read
        cases read
      | _ =>
        rw [h] at read
        exact congrArg (Option.map some) read
  validate_normalize j := by
    cases j with
    | null => rfl
    | arr items =>
      rw [normalize_arr]
      exact congrArg (Option.map some) ((normalize_arr items).symm ▸ validate_normalize (.arr items))
    | obj members =>
      rw [normalize_obj]
      exact congrArg (Option.map some)
        ((normalize_obj members).symm ▸ validate_normalize (.obj members))
    | _ => rfl

end Models

section Records

/-- The value of a member; a name that occurs again overrides. -/
def member (members : List (Text × Json)) (key : Text) : Option Json :=
  ((members.filter fun m => m.1 = key).getLast?).map Prod.snd

/-- The members of a normalized object. -/
def normalMembers (members : List (Text × Json)) : List (Text × Json) :=
  (sortBy Char.toNat Prod.fst members).map fun m => (m.1, m.2.normalize)

theorem member_normalMembers (members : List (Text × Json)) (key : Text) :
    member (normalMembers members) key = (member members key).map Json.normalize := by
  rw [member, normalMembers, List.filter_map]
  have same : ((fun m : Text × Json => decide (m.1 = key)) ∘
      fun m : Text × Json => (m.1, m.2.normalize)) = fun m => decide (m.1 = key) := rfl
  rw [same, filter_sortBy, List.getLast?_map, Option.map_map, member, Option.map_map]
  rfl

theorem member_of_mem {members : List (Text × Json)} (distinct : (members.map Prod.fst).Nodup)
    {key : Text} {value : Json} (h : (key, value) ∈ members) :
    member members key = some value := by
  have all : ∀ m ∈ members.filter fun m => m.1 = key, m = (key, value) := by
    intro m hm
    obtain ⟨hm, hkey⟩ := List.mem_filter.mp hm
    exact List.inj_on_of_nodup_map distinct hm h (of_decide_eq_true hkey)
  have nonempty : (members.filter fun m => m.1 = key) ≠ [] :=
    List.ne_nil_of_mem (List.mem_filter.mpr ⟨h, decide_eq_true rfl⟩)
  rw [member, List.getLast?_eq_some_getLast nonempty, all _ (List.getLast_mem nonempty)]
  rfl

variable {α : Type} [JsonModel α]

/-- A field without a default. -/
def required (members : List (Text × Json)) (key : Text) : Option α :=
  (member members key).bind validate

/-- A field with a default. -/
def defaulted (default : α) (members : List (Text × Json)) (key : Text) : Option α :=
  match member members key with
  | none => some default
  | some j => validate j

@[simp] theorem required_normalMembers (members : List (Text × Json)) (key : Text) :
    required (α := α) (normalMembers members) key = required members key := by
  rw [required, required, member_normalMembers, Option.bind_map]
  congr 1
  exact funext validate_normalize

@[simp] theorem defaulted_normalMembers (default : α) (members : List (Text × Json)) (key : Text) :
    defaulted default (normalMembers members) key = defaulted default members key := by
  rw [defaulted, defaulted, member_normalMembers]
  cases member members key with
  | none => rfl
  | some j => exact validate_normalize j

/-- How records are dumped as members and read from the members of an object. -/
structure RecordSchema (ρ : Type) where
  keys : List Text
  members : ρ → List (Text × Json)
  names : ∀ r, (members r).map Prod.fst = keys
  read : List (Text × Json) → Option ρ
  /-- A record is read from every object that holds its members. -/
  read_of_mem : ∀ r ms, (ms.map Prod.fst).Nodup → (∀ m ∈ members r, m ∈ ms) → read ms = some r
  read_normal : ∀ ms, read (normalMembers ms) = read ms

namespace RecordSchema

/-- A record of one field. -/
def field (key : Text) : RecordSchema α where
  keys := [key]
  members x := [(key, dump x)]
  names _ := rfl
  read ms := required ms key
  read_of_mem x ms distinct h := by
    rw [required, member_of_mem distinct (h _ List.mem_cons_self)]
    exact validate_dump x
  read_normal ms := required_normalMembers ms key

def fieldOr (key : Text) (default : α) : RecordSchema α where
  keys := [key]
  members x := [(key, dump x)]
  names _ := rfl
  read ms := defaulted default ms key
  read_of_mem x ms distinct h := by
    rw [defaulted, member_of_mem distinct (h _ List.mem_cons_self)]
    exact validate_dump x
  read_normal ms := defaulted_normalMembers default ms key

variable {ρ σ : Type}

def pair (first : RecordSchema ρ) (second : RecordSchema σ) : RecordSchema (ρ × σ) where
  keys := first.keys ++ second.keys
  members r := first.members r.1 ++ second.members r.2
  names r := by rw [List.map_append, first.names, second.names]
  read ms := (first.read ms).bind fun x => (second.read ms).map fun y => (x, y)
  read_of_mem r ms distinct h := by
    rw [first.read_of_mem r.1 ms distinct fun m hm => h m (List.mem_append_left _ hm),
      second.read_of_mem r.2 ms distinct fun m hm => h m (List.mem_append_right _ hm)]
    rfl
  read_normal ms := by rw [first.read_normal, second.read_normal]

/-- The schema of a type whose values are told apart by their fields. -/
def map (schema : RecordSchema ρ) (fields : σ → ρ) (build : ρ → σ)
    (build_fields : ∀ r, build (fields r) = r) : RecordSchema σ where
  keys := schema.keys
  members r := schema.members (fields r)
  names r := schema.names (fields r)
  read ms := (schema.read ms).map build
  read_of_mem r ms distinct h := by
    rw [schema.read_of_mem (fields r) ms distinct h, Option.map_some, build_fields]
  read_normal ms := by rw [schema.read_normal]

/-- The validation of an object: no name is unknown. -/
def validate (schema : RecordSchema ρ) : Json → Option ρ
  | .obj members =>
    if members.all (fun m => decide (m.1 ∈ schema.keys)) = true then schema.read members else none
  | _ => none

/-- The model of a record whose names are distinct. -/
abbrev model (schema : RecordSchema ρ) (distinct : schema.keys.Nodup) : JsonModel ρ where
  dump r := .obj (schema.members r)
  validate := schema.validate
  validate_dump r := by
    have known : ((schema.members r).all fun m => decide (m.1 ∈ schema.keys)) = true := by
      refine List.all_eq_true.mpr fun m hm => decide_eq_true ?_
      rw [← schema.names r]
      exact List.mem_map_of_mem hm
    have names : ((schema.members r).map Prod.fst).Nodup := by rwa [schema.names]
    exact (if_pos known).trans (schema.read_of_mem r _ names fun m hm => hm)
  validate_normalize j := by
    cases j with
    | obj members =>
      have known : ((normalMembers members).all fun m => decide (m.1 ∈ schema.keys)) =
          members.all fun m => decide (m.1 ∈ schema.keys) := by
        rw [normalMembers, List.all_map]
        exact ((sortBy_perm Char.toNat Prod.fst members).all_eq)
      rw [normalize_obj]
      change (if (normalMembers members).all _ = true then schema.read (normalMembers members)
        else none) = _
      rw [known, schema.read_normal]
      rfl
    | arr items => rfl
    | _ => rfl

end RecordSchema

end Records

end JsonSchema
