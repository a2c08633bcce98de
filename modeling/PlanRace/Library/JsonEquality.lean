import Mathlib.Data.List.Perm.Subperm
import PlanRace.Library.JsonText

/-!
# Equality of JSON values

Arrays are equal item by item; objects are equal when they have as many
members and every member of the one has an equal member of the same name in
the other. On values whose objects have distinct names, this is equality of
normal forms, hence of the canonical texts.
-/

namespace JsonEquality

open JsonText LexOrder

mutual

def equal : Json → Json → Prop
  | .null, other => other = .null
  | .bool b, other => other = .bool b
  | .int i, other => other = .int i
  | .str s, other => other = .str s
  | .arr items, other => ∃ items', other = .arr items' ∧ equalItems items items'
  | .obj members, other => ∃ members', other = .obj members' ∧
      members.length = members'.length ∧ equalMembers members members'

def equalItems : List Json → List Json → Prop
  | [], others => others = []
  | x :: items, others => ∃ y items', others = y :: items' ∧ equal x y ∧ equalItems items items'

def equalMembers : List (Text × Json) → List (Text × Json) → Prop
  | [], _ => True
  | (k, v) :: members, others =>
    (∃ w, (k, w) ∈ others ∧ equal v w) ∧ equalMembers members others

end

mutual

/-- Every object in the value has distinct member names, as a mapping does. -/
def distinct : Json → Bool
  | .null => true
  | .bool _ => true
  | .int _ => true
  | .str _ => true
  | .arr items => distinctItems items
  | .obj members => decide (members.map Prod.fst).Nodup && distinctMembers members

def distinctItems : List Json → Bool
  | [] => true
  | x :: items => distinct x && distinctItems items

def distinctMembers : List (Text × Json) → Bool
  | [] => true
  | (_, v) :: members => distinct v && distinctMembers members

end

theorem distinctItems_iff (items : List Json) :
    distinctItems items = true ↔ ∀ x ∈ items, distinct x = true := by
  induction items with
  | nil => simp [distinctItems]
  | cons x items ih => simp [distinctItems, ih]

theorem distinctMembers_iff (members : List (Text × Json)) :
    distinctMembers members = true ↔ ∀ m ∈ members, distinct m.2 = true := by
  induction members with
  | nil => simp [distinctMembers]
  | cons m members ih =>
    obtain ⟨k, v⟩ := m
    simp [distinctMembers, ih]

theorem equalItems_iff (items items' : List Json) :
    equalItems items items' ↔ List.Forall₂ equal items items' := by
  induction items generalizing items' with
  | nil => simp [equalItems]
  | cons x items ih =>
    constructor
    · rintro ⟨y, rest, rfl, hxy, hrest⟩
      exact .cons hxy ((ih rest).mp hrest)
    · intro h
      cases h with
      | cons hxy hrest => exact ⟨_, _, rfl, hxy, (ih _).mpr hrest⟩

theorem equalMembers_iff (members others : List (Text × Json)) :
    equalMembers members others ↔ ∀ m ∈ members, ∃ w, (m.1, w) ∈ others ∧ equal m.2 w := by
  induction members with
  | nil => simp [equalMembers]
  | cons m members ih =>
    obtain ⟨k, v⟩ := m
    simp [equalMembers, ih]

/-- A member of an object in normal form. -/
def normalMember (m : Text × Json) : Text × Json := (m.1, m.2.normalize)

/-- Objects with distinct names have one normal form when they have as many
members and each name has the same value. -/
theorem same_obj_iff_members {ms ns : List (Text × Json)} (hms : (ms.map Prod.fst).Nodup) :
    (Json.obj ms).Same (Json.obj ns) ↔
      ms.length = ns.length ∧ ∀ m ∈ ms, ∃ w, (m.1, w) ∈ ns ∧ m.2.Same w := by
  have hkeys : ((ms.map normalMember).map Prod.fst).Nodup := by
    simpa [List.map_map, Function.comp_def, normalMember] using hms
  have hsame : (Json.obj ms).Same (Json.obj ns) ↔
      (ms.map normalMember).Perm (ns.map normalMember) := by
    have hnormal : ∀ members : List (Text × Json), (Json.obj members).normalize =
        .obj (sortBy Char.toNat Prod.fst (members.map normalMember)) := by
      intro members
      rw [Json.normalize, normalizeMembers_eq_map]
      rfl
    rw [Json.Same, hnormal, hnormal, Json.obj.injEq]
    constructor
    · exact perm_of_sortBy_eq
    · refine fun hperm => sortBy_eq_of_perm (fun _ _ h => Char.toNat_inj.mp h) ?_ hperm
      intro x hx y hy he
      exact List.inj_on_of_nodup_map hkeys hx hy he
  rw [hsame]
  constructor
  · intro hperm
    refine ⟨by simpa using hperm.length_eq, fun m hm => ?_⟩
    obtain ⟨n, hn, he⟩ := List.mem_map.mp (hperm.subset (List.mem_map.mpr ⟨m, hm, rfl⟩))
    obtain ⟨hname, hvalue⟩ := Prod.mk.inj he
    exact ⟨n.2, hname ▸ hn, hvalue.symm⟩
  · rintro ⟨hlength, hmembers⟩
    have hsubset : ms.map normalMember ⊆ ns.map normalMember := by
      intro x hx
      obtain ⟨m, hm, rfl⟩ := List.mem_map.mp hx
      obtain ⟨w, hw, he⟩ := hmembers m hm
      exact List.mem_map.mpr ⟨(m.1, w), hw, Prod.ext rfl he.symm⟩
    refine (List.subperm_of_subset hkeys.of_map hsubset).perm_of_length_le ?_
    simp [hlength]

theorem forall₂_iff_of_mem {α β : Type} {R S : α → β → Prop} {xs : List α} {ys : List β}
    (h : ∀ x ∈ xs, ∀ y ∈ ys, R x y ↔ S x y) : List.Forall₂ R xs ys ↔ List.Forall₂ S xs ys := by
  induction xs generalizing ys with
  | nil => simp
  | cons x xs ih =>
    cases ys with
    | nil => simp
    | cons y ys =>
      rw [List.forall₂_cons, List.forall₂_cons, h x List.mem_cons_self y List.mem_cons_self,
        ih fun z hz w hw => h z (List.mem_cons_of_mem x hz) w (List.mem_cons_of_mem y hw)]

/-- On values with distinct names, equality is equality of normal forms. -/
theorem equal_iff_same (a b : Json) (ha : distinct a = true) (hb : distinct b = true) :
    equal a b ↔ a.Same b := by
  induction a generalizing b with
  | null => cases b <;> simp [equal, Json.Same, Json.normalize]
  | bool v => cases b <;> simp [equal, Json.Same, Json.normalize, eq_comm]
  | int i => cases b <;> simp [equal, Json.Same, Json.normalize, eq_comm]
  | str s => cases b <;> simp [equal, Json.Same, Json.normalize, eq_comm]
  | arr items ih =>
    cases b with
    | arr items' =>
      rw [distinct, distinctItems_iff] at ha hb
      have hitems : List.Forall₂ equal items items' ↔
          items.map Json.normalize = items'.map Json.normalize := by
        rw [← List.forall₂_eq_eq_eq, List.forall₂_map_left_iff, List.forall₂_map_right_iff]
        exact forall₂_iff_of_mem fun x hx y hy => ih x hx y (ha x hx) (hb y hy)
      rw [Json.Same, normalize_arr, normalize_arr, Json.arr.injEq, ← hitems]
      simp [equal, equalItems_iff]
    | _ => simp [equal, Json.Same, Json.normalize]
  | obj members ih =>
    cases b with
    | obj members' =>
      rw [distinct, Bool.and_eq_true, decide_eq_true_eq, distinctMembers_iff] at ha hb
      rw [same_obj_iff_members ha.1]
      have hmembers : equalMembers members members' ↔
          ∀ m ∈ members, ∃ w, (m.1, w) ∈ members' ∧ m.2.Same w := by
        rw [equalMembers_iff]
        refine forall₂_congr fun m hm => exists_congr fun w => and_congr_right fun hw => ?_
        exact ih m hm w (ha.2 m hm) (hb.2 _ hw)
      simp [equal, hmembers]
    | _ => simp [equal, Json.Same, Json.normalize]

end JsonEquality
