import Mathlib.Algebra.BigOperators.Group.List.Basic
import Mathlib.Data.List.Dedup
import Mathlib.Data.List.Nodup
import Mathlib.Data.List.Perm.Lattice

/-!
# Grouping a list by a key

The items of a list collected under their keys, as a dictionary of lists does
it: keys in the order of their first occurrence, and under each key its items
in the order of the list.
-/

namespace Grouping

universe u v
variable {κ : Type u} {β : Type v} [DecidableEq κ]

/-- The distinct keys in the order of their first occurrence. -/
def distinct (keys : List κ) : List κ := keys.reverse.dedup.reverse

@[simp] theorem mem_distinct {k : κ} {keys : List κ} : k ∈ distinct keys ↔ k ∈ keys := by
  simp [distinct]

theorem nodup_distinct (keys : List κ) : (distinct keys).Nodup := by
  simp [distinct, List.nodup_dedup]

theorem distinct_concat_of_mem {keys : List κ} {k : κ} (h : k ∈ keys) :
    distinct (keys ++ [k]) = distinct keys := by
  rw [distinct, List.reverse_concat, List.dedup_cons_of_mem (List.mem_reverse.mpr h), distinct]

theorem distinct_concat_of_new {keys : List κ} {k : κ} (h : k ∉ keys) :
    distinct (keys ++ [k]) = distinct keys ++ [k] := by
  rw [distinct, List.reverse_concat, List.dedup_cons_of_notMem (fun m => h (List.mem_reverse.mp m)),
    List.reverse_cons, distinct]

/-- The items under one key. -/
def under (key : β → κ) (items : List β) (k : κ) : List β := items.filter fun x => key x = k

@[simp] theorem mem_under {key : β → κ} {items : List β} {k : κ} {x : β} :
    x ∈ under key items k ↔ x ∈ items ∧ key x = k := by
  simp [under]

theorem under_perm (key : β → κ) {xs ys : List β} (h : xs.Perm ys) (k : κ) :
    (under key xs k).Perm (under key ys k) :=
  h.filter _

def groupBy (key : β → κ) (items : List β) : List (κ × List β) :=
  (distinct (items.map key)).map fun k => (k, under key items k)

@[simp] theorem map_fst_groupBy (key : β → κ) (items : List β) :
    (groupBy key items).map Prod.fst = distinct (items.map key) := by
  simp [groupBy, Function.comp_def]

theorem mem_groupBy {key : β → κ} {items : List β} {g : κ × List β} :
    g ∈ groupBy key items ↔ g.1 ∈ items.map key ∧ g.2 = under key items g.1 := by
  obtain ⟨k, members⟩ := g
  simp only [groupBy, List.mem_map, mem_distinct, Prod.mk.injEq]
  constructor
  · rintro ⟨k', hk, rfl, rfl⟩
    exact ⟨hk, rfl⟩
  · rintro ⟨hk, rfl⟩
    exact ⟨k, hk, rfl, rfl⟩

theorem members_ne_nil {key : β → κ} {items : List β} {g : κ × List β}
    (h : g ∈ groupBy key items) : g.2 ≠ [] := by
  obtain ⟨hkey, hmembers⟩ := mem_groupBy.mp h
  obtain ⟨x, hx, hk⟩ := List.mem_map.mp hkey
  exact List.ne_nil_of_mem (hmembers ▸ mem_under.mpr ⟨hx, hk⟩)

theorem distinct_of_nodup {keys : List κ} (h : keys.Nodup) : distinct keys = keys := by
  rw [distinct, (List.nodup_reverse.mpr h).dedup, List.reverse_reverse]

/-- With distinct keys every item is alone under its key. -/
theorem under_of_nodup {key : β → κ} {items : List β} (h : (items.map key).Nodup) {x : β}
    (hx : x ∈ items) : under key items (key x) = [x] := by
  induction items with
  | nil => cases hx
  | cons y items ih =>
    rw [List.map_cons, List.nodup_cons] at h
    have absent : ∀ {k}, k ∉ items.map key → under key items k = [] := by
      intro k hk
      rw [under, List.filter_eq_nil_iff]
      exact fun z hz => by simpa using fun he => hk (List.mem_map.mpr ⟨z, hz, he⟩)
    rcases List.mem_cons.mp hx with rfl | hx
    · have hrest := absent h.1
      rw [under] at hrest
      rw [under, List.filter_cons_of_pos (by simp), hrest]
    · have hne : key y ≠ key x := fun he => h.1 (he ▸ List.mem_map_of_mem hx)
      rw [under, List.filter_cons_of_neg (by simpa using hne)]
      exact ih h.2 hx

theorem groupBy_of_nodup {key : β → κ} {items : List β} (h : (items.map key).Nodup) :
    groupBy key items = items.map fun x => (key x, [x]) := by
  rw [groupBy, distinct_of_nodup h, List.map_map]
  refine List.map_congr_left fun x hx => ?_
  rw [Function.comp_apply, under_of_nodup h hx]

theorem flatMap_under_perm (key : β → κ) (items : List β) {keys : List κ} (h : keys.Nodup) :
    (keys.flatMap (under key items)).Perm (items.filter fun x => key x ∈ keys) := by
  induction keys with
  | nil => simp
  | cons k keys ih =>
    obtain ⟨hk, hkeys⟩ := List.nodup_cons.mp h
    have split := List.filter_append_perm (fun x => decide (key x = k))
      (items.filter fun x => key x ∈ k :: keys)
    have first : (items.filter fun x => key x ∈ k :: keys).filter (fun x => decide (key x = k)) =
        under key items k := by
      rw [List.filter_filter, under]
      refine List.filter_congr fun x _ => ?_
      by_cases hx : key x = k <;> simp [hx]
    have second : (items.filter fun x => key x ∈ k :: keys).filter
        (fun x => !decide (key x = k)) = items.filter fun x => key x ∈ keys := by
      rw [List.filter_filter]
      refine List.filter_congr fun x _ => ?_
      by_cases hx : key x = k
      · simp [hx, hk]
      · simp [hx]
    rw [first, second] at split
    exact ((ih hkeys).append_left _).trans split

/-- Grouping loses no item and repeats none. -/
theorem flatMap_groupBy_perm (key : β → κ) (items : List β) :
    ((groupBy key items).flatMap Prod.snd).Perm items := by
  have h := flatMap_under_perm key items (nodup_distinct (items.map key))
  have all : (items.filter fun x => key x ∈ distinct (items.map key)) = items := by
    rw [List.filter_eq_self]
    intro x hx
    simp only [mem_distinct, decide_eq_true_eq]
    exact List.mem_map_of_mem hx
  rw [all] at h
  simpa [groupBy, List.flatMap_map] using h

end Grouping
