import PlanRace.Library.Fallible
import PlanRace.Library.JsonText

/-!
# Values with floats, on their way to a document

Values nest as lists, tuples and dictionaries. A walk gives every value the result
of its parts, so each pass over a value is one walk. Passes that differ in what
they do with tuples meet in the same document.
-/

namespace PythonValues

open JsonText Fallible

inductive SequenceKind where
  | list
  | tuple
deriving DecidableEq

inductive PyValue (K : Type) where
  | null
  | bool (b : Bool)
  | int (i : Int)
  | float (x : K)
  | str (s : Text)
  | seq (kind : SequenceKind) (items : List (PyValue K))
  | dict (members : List (Text × PyValue K))

section Walks

variable {K α : Type}

/-- Induction over values, with the hypothesis for every item and member. -/
@[elab_as_elim, induction_eliminator]
theorem PyValue.induct {P : PyValue K → Prop} (null : P .null) (bool : ∀ b, P (.bool b))
    (int : ∀ i, P (.int i)) (float : ∀ x, P (.float x)) (str : ∀ s, P (.str s))
    (seq : ∀ kind items, (∀ x ∈ items, P x) → P (.seq kind items))
    (dict : ∀ members, (∀ m ∈ members, P m.2) → P (.dict members)) : ∀ v, P v
  | .null => null
  | .bool b => bool b
  | .int i => int i
  | .float x => float x
  | .str s => str s
  | .seq kind items =>
    seq kind items fun x _ => PyValue.induct null bool int float str seq dict x
  | .dict members =>
    dict members fun m _ => PyValue.induct null bool int float str seq dict m.2
termination_by v => sizeOf v
decreasing_by
  · have := List.sizeOf_lt_of_mem ‹x ∈ items›
    simp
    omega
  · have := List.sizeOf_lt_of_mem ‹m ∈ members›
    obtain ⟨k, v⟩ := m
    simp at this ⊢
    omega

/-- What a pass makes of a value, given what it made of the parts. -/
structure Walk (K α : Type) where
  null : α
  bool : Bool → α
  int : Int → α
  float : K → α
  str : Text → α
  seq : SequenceKind → List (PyValue K) → List α → α
  dict : List (Text × α) → α

namespace Walk

mutual

def run (w : Walk K α) : PyValue K → α
  | .null => w.null
  | .bool b => w.bool b
  | .int i => w.int i
  | .float x => w.float x
  | .str s => w.str s
  | .seq kind items => w.seq kind items (w.runItems items)
  | .dict members => w.dict (w.runMembers members)

def runItems (w : Walk K α) : List (PyValue K) → List α
  | [] => []
  | x :: items => w.run x :: w.runItems items

def runMembers (w : Walk K α) : List (Text × PyValue K) → List (Text × α)
  | [] => []
  | (k, v) :: members => (k, w.run v) :: w.runMembers members

end

theorem runItems_eq_map (w : Walk K α) (items : List (PyValue K)) :
    w.runItems items = items.map w.run := by
  induction items with
  | nil => rfl
  | cons x items ih => rw [runItems, ih, List.map_cons]

theorem runMembers_eq_map (w : Walk K α) (members : List (Text × PyValue K)) :
    w.runMembers members = members.map fun m => (m.1, w.run m.2) := by
  induction members with
  | nil => rfl
  | cons m members ih => rw [runMembers, ih, List.map_cons]

theorem run_seq (w : Walk K α) (kind : SequenceKind) (items : List (PyValue K)) :
    w.run (.seq kind items) = w.seq kind items (items.map w.run) := by
  rw [run, runItems_eq_map]

theorem run_dict (w : Walk K α) (members : List (Text × PyValue K)) :
    w.run (.dict members) = w.dict (members.map fun m => (m.1, w.run m.2)) := by
  rw [run, runMembers_eq_map]

end Walk

end Walks

section Passes

variable {K ε : Type}

theorem mapM_pairs {β γ : Type} (f : β → Except ε γ) (members : List (Text × β)) :
    (members.map fun m => (m.1, f m.2)).mapM (fun m => do return (m.1, ← m.2)) =
      members.mapM fun m => do return (m.1, ← f m.2) :=
  List.mapM_map

/-- Every float as a text. Sequences become lists, and those of a kind that is not
reached stay as they are. -/
def stringifyFloats (reaches : SequenceKind → Bool) (numberString : K → Except ε Text) :
    PyValue K → Except ε (PyValue K) :=
  Walk.run {
    null := .ok .null
    bool := fun b => .ok (.bool b)
    int := fun i => .ok (.int i)
    float := fun x => do return .str (← numberString x)
    str := fun s => .ok (.str s)
    seq := fun kind items done =>
      if reaches kind then do return .seq .list (← done.mapM id) else .ok (.seq kind items)
    dict := fun done => do
      return .dict (← done.mapM fun m => do return (m.1, ← m.2)) }

theorem stringifyFloats_seq (reaches : SequenceKind → Bool) (numberString : K → Except ε Text)
    (kind : SequenceKind) (items : List (PyValue K)) :
    stringifyFloats reaches numberString (.seq kind items) =
      if reaches kind then do
        return .seq .list (← items.mapM (stringifyFloats reaches numberString))
      else .ok (.seq kind items) := by
  have parts : (items.map (stringifyFloats reaches numberString)).mapM id =
      items.mapM (stringifyFloats reaches numberString) := List.mapM_map
  rw [← parts]
  exact Walk.run_seq _ _ _

theorem stringifyFloats_dict (reaches : SequenceKind → Bool) (numberString : K → Except ε Text)
    (members : List (Text × PyValue K)) :
    stringifyFloats reaches numberString (.dict members) = do
      return .dict (← members.mapM fun m => do
        return (m.1, ← stringifyFloats reaches numberString m.2)) := by
  rw [← mapM_pairs]
  exact Walk.run_dict _ _

/-- The document of a value without floats. -/
def canonicalValue (floats : ε) : PyValue K → Except ε Json :=
  Walk.run {
    null := .ok .null
    bool := fun b => .ok (.bool b)
    int := fun i => .ok (.int i)
    float := fun _ => .error floats
    str := fun s => .ok (.str s)
    seq := fun _ _ done => do return .arr (← done.mapM id)
    dict := fun done => do
      return .obj (← done.mapM fun m => do return (m.1, ← m.2)) }

theorem canonicalValue_seq (floats : ε) (kind : SequenceKind) (items : List (PyValue K)) :
    canonicalValue floats (.seq kind items) = do
      return .arr (← items.mapM (canonicalValue floats)) := by
  have parts : (items.map (canonicalValue floats)).mapM id = items.mapM (canonicalValue floats) :=
    List.mapM_map
  rw [← parts]
  exact Walk.run_seq _ _ _

theorem canonicalValue_dict (floats : ε) (members : List (Text × PyValue K)) :
    canonicalValue floats (.dict members) = do
      return .obj (← members.mapM fun m => do return (m.1, ← canonicalValue floats m.2)) := by
  rw [← mapM_pairs]
  exact Walk.run_dict _ _

/-- What is read back from the text written for a scalar. -/
structure Reading (K : Type) where
  bool : Bool → Bool
  int : Int → Int
  float : K → K
  str : Text → Text

/-- `json.loads(json.dumps(value))`. -/
def loadsDumps (reading : Reading K) : PyValue K → PyValue K :=
  Walk.run {
    null := .null
    bool := fun b => .bool (reading.bool b)
    int := fun i => .int (reading.int i)
    float := fun x => .float (reading.float x)
    str := fun s => .str (reading.str s)
    seq := fun _ _ done => .seq .list done
    dict := fun done => .dict (done.map fun m => (reading.str m.1, m.2)) }

/-- The text of a scalar is read back as the scalar. -/
structure Reading.RoundTrips (finite : K → Bool) (reading : Reading K) : Prop where
  bool : ∀ b, reading.bool b = b
  int : ∀ i, reading.int i = i
  float : ∀ x, finite x = true → reading.float x = x
  str : ∀ s, reading.str s = s

end Passes

section Meeting

variable {K ε : Type} {finite : K → Bool} {number : K → Text} {reaches : SequenceKind → Bool}

/-- Every float is finite and every sequence of a kind that is reached. -/
def Admits (finite : K → Bool) (reaches : SequenceKind → Bool) : PyValue K → Prop :=
  Walk.run {
    null := True
    bool := fun _ => True
    int := fun _ => True
    float := fun x => finite x = true
    str := fun _ => True
    seq := fun kind _ done => reaches kind = true ∧ ∀ p ∈ done, p
    dict := fun done => ∀ m ∈ done, m.2 }

@[simp] theorem admits_bool (b : Bool) : Admits finite reaches (.bool b) := trivial

@[simp] theorem admits_int (i : Int) : Admits finite reaches (.int i) := trivial

@[simp] theorem admits_str (s : Text) : Admits finite reaches (.str s) := trivial

@[simp] theorem admits_float_iff {x : K} :
    Admits finite reaches (.float x) ↔ finite x = true :=
  Iff.rfl

@[simp] theorem admits_seq_iff {kind : SequenceKind} {items : List (PyValue K)} :
    Admits finite reaches (.seq kind items) ↔
      reaches kind = true ∧ ∀ x ∈ items, Admits finite reaches x := by
  rw [Admits, Walk.run_seq]
  exact and_congr_right fun _ => List.forall_mem_map

@[simp] theorem admits_dict_iff {members : List (Text × PyValue K)} :
    Admits finite reaches (.dict members) ↔ ∀ m ∈ members, Admits finite reaches m.2 := by
  rw [Admits, Walk.run_dict]
  exact List.forall_mem_map

/-- The value with its floats as texts and its sequences as lists. -/
def rendered (number : K → Text) : PyValue K → PyValue K :=
  Walk.run {
    null := .null
    bool := .bool
    int := .int
    float := fun x => .str (number x)
    str := .str
    seq := fun _ _ done => .seq .list done
    dict := .dict }

@[simp] theorem rendered_seq (kind : SequenceKind) (items : List (PyValue K)) :
    rendered number (.seq kind items) = .seq .list (items.map (rendered number)) :=
  Walk.run_seq _ _ _

@[simp] theorem rendered_dict (members : List (Text × PyValue K)) :
    rendered number (.dict members) =
      .dict (members.map fun m => (m.1, rendered number m.2)) :=
  Walk.run_dict _ _

/-- The document of the value. -/
def document (number : K → Text) : PyValue K → Json :=
  Walk.run {
    null := .null
    bool := .bool
    int := .int
    float := fun x => .str (number x)
    str := .str
    seq := fun _ _ done => .arr done
    dict := .obj }

@[simp] theorem document_seq (kind : SequenceKind) (items : List (PyValue K)) :
    document number (.seq kind items) = .arr (items.map (document number)) :=
  Walk.run_seq _ _ _

@[simp] theorem document_dict (members : List (Text × PyValue K)) :
    document number (.dict members) =
      .obj (members.map fun m => (m.1, document number m.2)) :=
  Walk.run_dict _ _

/-- The value with its tuples as lists. -/
def listed : PyValue K → PyValue K :=
  Walk.run {
    null := .null
    bool := .bool
    int := .int
    float := .float
    str := .str
    seq := fun _ _ done => .seq .list done
    dict := .dict }

@[simp] theorem listed_seq (kind : SequenceKind) (items : List (PyValue K)) :
    listed (.seq kind items) = .seq .list (items.map listed) :=
  Walk.run_seq _ _ _

@[simp] theorem listed_dict (members : List (Text × PyValue K)) :
    listed (.dict members) = .dict (members.map fun m => (m.1, listed m.2)) :=
  Walk.run_dict _ _

theorem mapM_members {β γ : Type} {f : β → Except ε γ} {g : β → γ} {members : List (Text × β)}
    (h : ∀ m ∈ members, f m.2 = .ok (g m.2)) :
    (members.mapM fun m => do return (m.1, ← f m.2)) =
      .ok (members.map fun m => (m.1, g m.2)) := by
  refine mapM_eq_map fun m hm => ?_
  rw [h m hm]
  rfl

/-- A pass that reaches every sequence meets no float it cannot write. -/
theorem stringifyFloats_eq {numberString : K → Except ε Text}
    (writes : ∀ x, finite x = true → numberString x = .ok (number x)) {v : PyValue K}
    (admitted : Admits finite reaches v) :
    stringifyFloats reaches numberString v = .ok (rendered number v) := by
  induction v with
  | null => rfl
  | bool b => rfl
  | int i => rfl
  | float x =>
    have written := writes x admitted
    change (numberString x >>= fun text => pure (PyValue.str text)) = _
    rw [written]
    rfl
  | str s => rfl
  | seq kind items ih =>
    obtain ⟨reached, parts⟩ := admits_seq_iff.mp admitted
    rw [stringifyFloats_seq, if_pos reached, mapM_eq_map fun x hx => ih x hx (parts x hx),
      rendered_seq]
    rfl
  | dict members ih =>
    have parts := admits_dict_iff.mp admitted
    rw [stringifyFloats_dict, mapM_members fun m hm => ih m hm (parts m hm), rendered_dict]
    rfl

theorem canonicalValue_rendered (floats : ε) (v : PyValue K) :
    canonicalValue floats (rendered number v) = .ok (document number v) := by
  induction v with
  | null => rfl
  | bool b => rfl
  | int i => rfl
  | float x => rfl
  | str s => rfl
  | seq kind items ih =>
    have parts : (items.map (rendered number)).mapM (canonicalValue floats) =
        .ok (items.map (document number)) := by
      rw [List.mapM_map]
      exact mapM_eq_map ih
    rw [rendered_seq, canonicalValue_seq, parts, document_seq]
    rfl
  | dict members ih =>
    have parts : (members.map fun m => (m.1, rendered number m.2)).mapM
        (fun m => do return (m.1, ← canonicalValue floats m.2)) =
          .ok (members.map fun m => (m.1, document number m.2)) := by
      rw [List.mapM_map]
      exact mapM_members (f := canonicalValue floats ∘ rendered number) ih
    rw [rendered_dict, canonicalValue_dict, parts, document_dict]
    rfl

/-- Writing and reading back turns tuples into lists and changes nothing else. -/
theorem loadsDumps_eq_listed {reading : Reading K} (faithful : reading.RoundTrips finite)
    {v : PyValue K} (admitted : Admits finite reaches v) : loadsDumps reading v = listed v := by
  induction v with
  | null => rfl
  | bool b => exact congrArg PyValue.bool (faithful.bool b)
  | int i => exact congrArg PyValue.int (faithful.int i)
  | float x => exact congrArg PyValue.float (faithful.float x admitted)
  | str s => exact congrArg PyValue.str (faithful.str s)
  | seq kind items ih =>
    obtain ⟨_, parts⟩ := admits_seq_iff.mp admitted
    rw [loadsDumps, Walk.run_seq, ← loadsDumps, listed_seq]
    exact congrArg (PyValue.seq .list) (List.map_congr_left fun x hx => ih x hx (parts x hx))
  | dict members ih =>
    have parts := admits_dict_iff.mp admitted
    rw [loadsDumps, Walk.run_dict, ← loadsDumps, listed_dict]
    refine congrArg PyValue.dict ?_
    rw [List.map_map]
    exact List.map_congr_left fun m hm => Prod.ext (faithful.str m.1) (ih m hm (parts m hm))

theorem rendered_listed (v : PyValue K) : rendered number (listed v) = rendered number v := by
  induction v with
  | null => rfl
  | bool b => rfl
  | int i => rfl
  | float x => rfl
  | str s => rfl
  | seq kind items ih =>
    rw [listed_seq, rendered_seq, rendered_seq, List.map_map]
    exact congrArg (PyValue.seq .list) (List.map_congr_left ih)
  | dict members ih =>
    rw [listed_dict, rendered_dict, rendered_dict, List.map_map]
    exact congrArg PyValue.dict (List.map_congr_left fun m hm => Prod.ext rfl (ih m hm))

theorem Admits.listed {v : PyValue K} (admitted : Admits finite reaches v) :
    Admits finite (· = .list) (listed v) := by
  induction v with
  | null => exact trivial
  | bool b => exact trivial
  | int i => exact trivial
  | float x => exact admitted
  | str s => exact trivial
  | seq kind items ih =>
    obtain ⟨_, parts⟩ := admits_seq_iff.mp admitted
    rw [listed_seq, admits_seq_iff]
    exact ⟨rfl, List.forall_mem_map.mpr fun x hx => ih x hx (parts x hx)⟩
  | dict members ih =>
    have parts := admits_dict_iff.mp admitted
    rw [listed_dict, admits_dict_iff]
    exact List.forall_mem_map.mpr fun m hm => ih m hm (parts m hm)

/-- A pass over lists, after the text, renders what a pass over tuples too does before it. -/
theorem stringifyFloats_listed {numberString : K → Except ε Text}
    (writes : ∀ x, finite x = true → numberString x = .ok (number x)) {v : PyValue K}
    (admitted : Admits finite reaches v) :
    stringifyFloats (· = .list) numberString (PythonValues.listed v) = .ok (rendered number v) := by
  rw [stringifyFloats_eq writes admitted.listed, rendered_listed]

end Meeting

end PythonValues
