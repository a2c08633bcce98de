import Mathlib.Data.List.Nodup
import Mathlib.Data.List.Perm.Basic

/-!
# Dictionaries in insertion order

A dictionary as the list of its entries. Assigning to a present key keeps the
entry's place, and a new key is added at the end.
-/

namespace Dict

universe u v
variable {κ : Type u} {β : Type v} [DecidableEq κ]

def keys (d : List (κ × β)) : List κ := d.map Prod.fst

def get? (d : List (κ × β)) (k : κ) : Option β := (d.find? fun e => e.1 = k).map Prod.snd

/-- `d[k] = v`. -/
def set (d : List (κ × β)) (k : κ) (v : β) : List (κ × β) :=
  if k ∈ keys d then d.map fun e => if e.1 = k then (k, v) else e else d ++ [(k, v)]

/-- `d.update(entries)`. -/
def update (d entries : List (κ × β)) : List (κ × β) :=
  entries.foldl (fun d e => set d e.1 e.2) d

omit [DecidableEq κ] in
@[simp] theorem keys_append (d e : List (κ × β)) : keys (d ++ e) = keys d ++ keys e :=
  List.map_append

/-- New keys are added in their order. -/
theorem update_eq_append {d entries : List (κ × β)} (fresh : (keys (d ++ entries)).Nodup) :
    update d entries = d ++ entries := by
  induction entries generalizing d with
  | nil => exact (List.append_nil d).symm
  | cons e entries ih =>
    have hd : e.1 ∉ keys d := by
      rw [keys_append] at fresh
      exact fun h => (List.disjoint_of_nodup_append fresh) h (by simp [keys])
    have hset : set d e.1 e.2 = d ++ [e] := if_neg hd
    rw [List.append_cons] at fresh ⊢
    rw [update, List.foldl_cons, hset]
    exact ih fresh

theorem set_of_new {d : List (κ × β)} {k : κ} (new : k ∉ keys d) (v : β) :
    set d k v = d ++ [(k, v)] := if_neg new

theorem mem_keys_iff {d : List (κ × β)} {k : κ} : k ∈ keys d ↔ ∃ v, get? d k = some v := by
  constructor
  · intro h
    obtain ⟨e, he, hk⟩ := List.mem_map.mp h
    have hsome : (d.find? fun e => e.1 = k).isSome := List.find?_isSome.mpr ⟨e, he, by simpa using hk⟩
    obtain ⟨x, hx⟩ := Option.isSome_iff_exists.mp hsome
    exact ⟨x.2, by rw [get?, hx]; rfl⟩
  · rintro ⟨v, h⟩
    obtain ⟨e, hfind, -⟩ := Option.map_eq_some_iff.mp h
    have hk := List.find?_some hfind
    simp only [decide_eq_true_eq] at hk
    exact hk ▸ List.mem_map_of_mem (List.mem_of_find?_eq_some hfind)

theorem get?_eq_none_iff {d : List (κ × β)} {k : κ} : get? d k = none ↔ k ∉ keys d := by
  rw [mem_keys_iff, Option.eq_none_iff_forall_ne_some, not_exists]

/-- A new entry is found, and hides no other. -/
theorem get?_concat {d : List (κ × β)} {k : κ} (new : k ∉ keys d) (v : β) (k' : κ) :
    get? (d ++ [(k, v)]) k' = if k' = k then some v else get? d k' := by
  rw [get?, List.find?_append]
  by_cases same : k' = k
  · subst same
    have absent : (d.find? fun e => e.1 = k') = none :=
      Option.map_eq_none_iff.mp (get?_eq_none_iff.mpr new)
    simp [absent]
  · rw [if_neg same, get?]
    have other : ([(k, v)].find? fun e => decide (e.1 = k')) = none := by
      simpa using fun h => same h.symm
    rw [other, Option.or_none]

/-- With distinct keys an entry is what its key looks up. -/
theorem get?_eq_some_iff {d : List (κ × β)} (distinct : (keys d).Nodup) {k : κ} {v : β} :
    get? d k = some v ↔ (k, v) ∈ d := by
  constructor
  · intro h
    obtain ⟨⟨k', v'⟩, hfind, rfl⟩ := Option.map_eq_some_iff.mp h
    have hk := List.find?_some hfind
    simp only [decide_eq_true_eq] at hk
    exact hk ▸ List.mem_of_find?_eq_some hfind
  · intro h
    obtain ⟨w, hw⟩ := mem_keys_iff.mp (List.mem_map_of_mem h : k ∈ keys d)
    obtain ⟨e, he, rfl⟩ := Option.map_eq_some_iff.mp hw
    have hk := List.find?_some he
    simp only [decide_eq_true_eq] at hk
    rw [hw, List.inj_on_of_nodup_map distinct (List.mem_of_find?_eq_some he) h hk]

theorem map_get?_keys {d : List (κ × β)} (distinct : (keys d).Nodup) (default : β) :
    (keys d).map (fun k => (get? d k).getD default) = d.map Prod.snd := by
  rw [keys, List.map_map]
  refine List.map_congr_left fun e he => ?_
  rw [Function.comp_apply, (get?_eq_some_iff distinct).mpr he]
  rfl

theorem get?_eq_of_perm {d e : List (κ × β)} (h : d.Perm e) (distinct : (keys d).Nodup) (k : κ) :
    get? d k = get? e k := by
  have distinct' : (keys e).Nodup := (h.map Prod.fst).nodup_iff.mp distinct
  refine Option.ext fun v => ?_
  rw [get?_eq_some_iff distinct, get?_eq_some_iff distinct', h.mem_iff]

end Dict
