import PlanRace.Library.JsonText
import Mathlib.Data.List.Pairwise

/-!
# The order of the properties of an object

An engine enumerates array indices as numbers first and the other names as they
were created. Names that were sorted by UTF-16 units before they were created are
so enumerated in one total order, which is not the order of code points.
-/

namespace PropertyOrder

open UniqueReadability LexOrder JsonText

section Units

/-- The UTF-16 units of a character. -/
def charUnits (c : Char) : List Nat :=
  if c.toNat < 65536 then [c.toNat]
  else [55296 + (c.toNat - 65536) / 1024, 56320 + (c.toNat - 65536) % 1024]

def utf16 (s : Text) : List Nat := s.flatMap charUnits

/-- No character is a surrogate. -/
theorem toNat_not_surrogate (c : Char) : c.toNat < 55296 ∨ 57343 < c.toNat ∧ c.toNat < 1114112 :=
  c.valid

theorem charUnits_prefixFree : PrefixFree charUnits := by
  intro a b s t he
  have ha := toNat_not_surrogate a
  have hb := toNat_not_surrogate b
  have same : a.toNat = b.toNat → a = b := fun h => Char.toNat_inj.mp h
  unfold charUnits at he
  split_ifs at he with first second second
  · obtain ⟨unit, rest⟩ := List.cons.inj he
    exact ⟨same unit, rest⟩
  · obtain ⟨unit, _⟩ := List.cons.inj he
    omega
  · obtain ⟨unit, _⟩ := List.cons.inj he
    omega
  · obtain ⟨high, rest⟩ := List.cons.inj he
    obtain ⟨low, rest⟩ := List.cons.inj rest
    exact ⟨same (by omega), rest⟩

theorem charUnits_ne_nil (c : Char) : charUnits c ≠ [] := by
  unfold charUnits
  split_ifs
  · exact List.cons_ne_nil _ _
  · exact List.cons_ne_nil _ _

theorem utf16_injective : Function.Injective utf16 := by
  intro s t he
  have fresh : ∀ (c : Char) (r : List Nat), ¬ charUnits c ++ r = [] := by
    intro c r h
    exact charUnits_ne_nil c (List.append_eq_nil_iff.mp h).1
  exact (charUnits_prefixFree.flatMap_append (fun w => w = []) fresh s t [] []
    rfl rfl (by simpa [utf16] using he)).1

end Units

section Names

/-- The number of a name that is the text of an array index. -/
def arrayIndex (name : Text) : Option Nat :=
  let n : Nat := name.foldl (fun n c => 10 * n + (c.toNat - 48)) 0
  if intText n = name ∧ n < 2 ^ 32 - 1 then some n else none

theorem eq_of_arrayIndex {name : Text} {n : Nat} (h : arrayIndex name = some n) :
    name = intText n := by
  simp only [arrayIndex] at h
  split_ifs at h with canonical
  obtain rfl := Option.some.inj h
  exact canonical.1.symm

/-- One name comes no later than the other. -/
def nameLe (k l : Text) : Bool :=
  match arrayIndex k, arrayIndex l with
  | some a, some b => decide (a ≤ b)
  | some _, none => true
  | none, some _ => false
  | none, none => lexLe id (utf16 k) (utf16 l)

theorem nameLe_antisymm {k l : Text} (hkl : nameLe k l = true) (hlk : nameLe l k = true) :
    k = l := by
  unfold nameLe at hkl hlk
  cases hk : arrayIndex k with
  | some a =>
    cases hl : arrayIndex l with
    | some b =>
      simp only [hk, hl, decide_eq_true_eq] at hkl hlk
      rw [eq_of_arrayIndex hk, eq_of_arrayIndex hl, le_antisymm hkl hlk]
    | none => simp [hk, hl] at hlk
  | none =>
    cases hl : arrayIndex l with
    | some b => simp [hk, hl] at hkl
    | none =>
      simp only [hk, hl] at hkl hlk
      exact utf16_injective (lexLe_antisymm Function.injective_id hkl hlk)

end Names

section Objects

variable {β γ : Type}

/-- `Object.keys(value).sort()`, with the values. -/
def sortUnits (entries : List (Text × β)) : List (Text × β) :=
  sortBy id (fun m => utf16 m.1) entries

/-- The properties of an object whose entries were created in this order. -/
def properties (entries : List (Text × β)) : List (Text × β) :=
  sortBy id (fun m => (arrayIndex m.1).toList)
      (entries.filter fun m => (arrayIndex m.1).isSome) ++
    entries.filter fun m => !(arrayIndex m.1).isSome

theorem map_properties (f : β → γ) (entries : List (Text × β)) :
    properties (entries.map fun m => (m.1, f m.2)) =
      (properties entries).map fun m => (m.1, f m.2) := by
  simp only [properties, List.map_append, List.filter_map, Function.comp_def]
  rw [map_sortBy id (fun m : Text × β => (arrayIndex m.1).toList)
    (fun m : Text × γ => (arrayIndex m.1).toList) (fun m => (m.1, f m.2)) _ fun _ _ => rfl]

theorem map_sortUnits (f : β → γ) (entries : List (Text × β)) :
    sortUnits (entries.map fun m => (m.1, f m.2)) =
      (sortUnits entries).map fun m => (m.1, f m.2) :=
  (map_sortBy id (fun m : Text × β => utf16 m.1) (fun m : Text × γ => utf16 m.1)
    (fun m => (m.1, f m.2)) entries fun _ _ => rfl).symm

theorem properties_perm (entries : List (Text × β)) : (properties entries).Perm entries :=
  ((sortBy_perm _ _ _).append_right _).trans (List.filter_append_perm _ _)

theorem sortedProperties_perm (entries : List (Text × β)) :
    (properties (sortUnits entries)).Perm entries :=
  (properties_perm _).trans (sortBy_perm _ _ _)

/-- Sorted entries are enumerated in the order of names. -/
theorem sortedProperties_pairwise (entries : List (Text × β)) :
    (properties (sortUnits entries)).Pairwise fun m n => nameLe m.1 n.1 = true := by
  refine List.pairwise_append.mpr ⟨?_, ?_, ?_⟩
  · refine (sortBy_pairwise _ _ _).imp_of_mem fun {m n} hm hn ordered => ?_
    obtain ⟨a, ha⟩ := Option.isSome_iff_exists.mp (List.mem_filter.mp (mem_sortBy.mp hm)).2
    obtain ⟨b, hb⟩ := Option.isSome_iff_exists.mp (List.mem_filter.mp (mem_sortBy.mp hn)).2
    rw [keyLe, ha, hb] at ordered
    simp only [Option.toList, lexLe_cons, id] at ordered
    simp only [nameLe, ha, hb, decide_eq_true_eq]
    omega
  · refine ((sortBy_pairwise id _ entries).sublist List.filter_sublist).imp_of_mem
      fun {m n} hm hn ordered => ?_
    have hm := (List.mem_filter.mp hm).2
    have hn := (List.mem_filter.mp hn).2
    simp only [Bool.not_eq_true', Option.isSome_eq_false_iff, Option.isNone_iff_eq_none] at hm hn
    simp only [nameLe, hm, hn]
    exact ordered
  · intro m hm n hn
    obtain ⟨a, ha⟩ := Option.isSome_iff_exists.mp (List.mem_filter.mp (mem_sortBy.mp hm)).2
    have hn := (List.mem_filter.mp hn).2
    simp only [Bool.not_eq_true', Option.isSome_eq_false_iff, Option.isNone_iff_eq_none] at hn
    simp only [nameLe, ha, hn]

/-- No two of the names are in one order by code points and in another for the engine. -/
def SameOrder (names : List Text) : Prop :=
  ∀ k ∈ names, ∀ l ∈ names, lexLe Char.toNat k l = nameLe k l

instance (names : List Text) : Decidable (SameOrder names) :=
  inferInstanceAs (Decidable (∀ k ∈ names, ∀ l ∈ names, lexLe Char.toNat k l = nameLe k l))

theorem nameLe_refl (k : Text) : nameLe k k = true := by
  unfold nameLe
  cases arrayIndex k with
  | some a => exact decide_eq_true (Nat.le_refl a)
  | none => exact lexLe_refl id (utf16 k)

/-- Both orders of the entries agree exactly when they agree on every pair of names. -/
theorem sortedProperties_eq_iff {entries : List (Text × β)}
    (distinct : (entries.map Prod.fst).Nodup) :
    properties (sortUnits entries) = sortBy Char.toNat Prod.fst entries ↔
      SameOrder (entries.map Prod.fst) := by
  have entry : ∀ m ∈ entries, ∀ n ∈ entries, m.1 = n.1 → m = n := fun m hm n hn h =>
    List.inj_on_of_nodup_map distinct hm hn h
  have codePoints : ∀ {k l : Text}, lexLe Char.toNat k l = true → lexLe Char.toNat l k = true →
      k = l := lexLe_antisymm fun _ _ h => Char.toNat_inj.mp h
  constructor
  · intro same k hk l hl
    obtain ⟨m, hm, rfl⟩ := List.mem_map.mp hk
    obtain ⟨n, hn, rfl⟩ := List.mem_map.mp hl
    by_cases equal : m.1 = n.1
    · rw [← equal, lexLe_refl, nameLe_refl]
    -- one of the two stands first in the common list
    have units := sortedProperties_pairwise entries
    rw [same] at units
    have both := (sortBy_pairwise Char.toNat Prod.fst entries).and units
    let settled : Text × β → Text × β → Prop := fun m n =>
      (lexLe Char.toNat m.1 n.1 = true ∧ nameLe m.1 n.1 = true) ∨
        lexLe Char.toNat n.1 m.1 = true ∧ nameLe n.1 m.1 = true
    have symmetric : Std.Symm settled := ⟨fun _ _ => Or.symm⟩
    have ordered : settled m n := (both.imp fun h => .inl h : List.Pairwise settled _).forall
      (mem_sortBy.mpr hm) (mem_sortBy.mpr hn) fun h => equal (congrArg Prod.fst h)
    rcases ordered with ⟨points, names⟩ | ⟨points, names⟩
    · rw [points, names]
    · have notPoints : lexLe Char.toNat m.1 n.1 ≠ true := fun h => equal (codePoints h points)
      have notNames : nameLe m.1 n.1 ≠ true := fun h => equal (nameLe_antisymm h names)
      rw [Bool.eq_false_of_not_eq_true notPoints, Bool.eq_false_of_not_eq_true notNames]
  · intro agree
    have perm := (sortedProperties_perm entries).trans (sortBy_perm Char.toNat Prod.fst entries).symm
    have points : (properties (sortUnits entries)).Pairwise (keyLe Char.toNat Prod.fst) := by
      refine (sortedProperties_pairwise entries).imp_of_mem fun {m n} hm hn names => ?_
      have hm := List.mem_map_of_mem (f := Prod.fst) ((sortedProperties_perm entries).mem_iff.mp hm)
      have hn := List.mem_map_of_mem (f := Prod.fst) ((sortedProperties_perm entries).mem_iff.mp hn)
      exact (agree _ hm _ hn).trans names
    refine perm.eq_of_pairwise ?_ points (sortBy_pairwise _ _ _)
    intro m n hm hn hmn hnm
    exact entry m ((sortedProperties_perm entries).mem_iff.mp hm) n (mem_sortBy.mp hn)
      (codePoints hmn hnm)

end Objects

section Plain

theorem utf16_plain {s : Text} (plain : ∀ c ∈ s, c.toNat < 65536) : utf16 s = s.map Char.toNat := by
  induction s with
  | nil => rfl
  | cons c s ih =>
    have rest := ih fun d hd => plain d (List.mem_cons_of_mem _ hd)
    have unit : charUnits c = [c.toNat] := if_pos (plain c List.mem_cons_self)
    rw [utf16, List.flatMap_cons, unit, ← utf16, rest]
    rfl

theorem lexLe_map_toNat (s t : Text) :
    lexLe id (s.map Char.toNat) (t.map Char.toNat) = lexLe Char.toNat s t := by
  induction s generalizing t with
  | nil => rfl
  | cons c s ih =>
    cases t with
    | nil => rfl
    | cons d t => simp only [List.map_cons, lexLe, id, ih t]

theorem arrayIndex_eq_none {name : Text} {c : Char} (hc : c ∈ name) (other : c.isDigit = false) :
    arrayIndex name = none := by
  cases index : arrayIndex name with
  | none => rfl
  | some n =>
    rw [eq_of_arrayIndex index] at hc
    have digit := Nat.isDigit_of_mem_toDigits (b := 10) (n := n) (by decide) (by decide) hc
    rw [other] at digit
    cases digit

/-- A name with a character that is no digit, and without surrogate pairs. -/
def isPlain (name : Text) : Bool :=
  name.any (fun c => !c.isDigit) && name.all fun c => decide (c.toNat < 65536)

theorem sameOrder_of_plain {names : List Text} (plain : names.all isPlain = true) :
    SameOrder names := by
  have known : ∀ k ∈ names, arrayIndex k = none ∧ ∀ c ∈ k, c.toNat < 65536 := by
    intro k hk
    obtain ⟨letter, units⟩ := Bool.and_eq_true_iff.mp (List.all_eq_true.mp plain k hk)
    obtain ⟨c, hc, other⟩ := List.any_eq_true.mp letter
    exact ⟨arrayIndex_eq_none hc (by simpa using other),
      fun c hc => of_decide_eq_true (List.all_eq_true.mp units c hc)⟩
  intro k hk l hl
  obtain ⟨indexK, unitsK⟩ := known k hk
  obtain ⟨indexL, unitsL⟩ := known l hl
  simp only [nameLe, indexK, indexL, utf16_plain unitsK, utf16_plain unitsL, lexLe_map_toNat]

end Plain

end PropertyOrder
