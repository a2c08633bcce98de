import PlanRace.AllocationOrder

/-!
# The level of the cap loop

When the cap has room for the whole mass, the rounds of `_capped_normalize` end
at one level, and every weight is its raw mass filled to that level or the cap.
-/

namespace WaterLevel

open JsonText WaterFilling Allocation AllocationOrder

variable {K : Type} [Field K] [LinearOrder K] [IsStrictOrderedRing K] {cap : K}
  {raw out : List (Text × K)}

/-- With room for the whole mass the loop exhausts it at a level. -/
theorem level_of_normalized (h : Normalized cap raw out) (room : 1 ≤ raw.length * cap) :
    ∃ s, 0 < s ∧ out.Perm (raw.map fun e => (e.1, fill cap (1 / 10 ^ 15) s e.2)) := by
  cases h with
  | level s positive exhausted parts => exact ⟨s, positive, parts⟩
  | topped first key least left small parts =>
    have slack : (0 : K) < 1 / 10 ^ 15 := by positivity
    exact absurd room (by linarith)

omit [IsStrictOrderedRing K] in
/-- The weight of a raw mass at a level. -/
theorem weight_of_level {s : K} (distinct : (Dict.keys raw).Nodup)
    (parts : out.Perm (raw.map fun e => (e.1, fill cap (1 / 10 ^ 15) s e.2))) {k : Text} {w x : K}
    (hw : (k, w) ∈ out) (hx : (k, x) ∈ raw) : w = fill cap (1 / 10 ^ 15) s x := by
  obtain ⟨e, he, same⟩ := List.mem_map.mp (parts.mem_iff.mp hw)
  obtain ⟨rfl, rfl⟩ := Prod.mk.inj same
  have found : e = (e.1, x) := List.inj_on_of_nodup_map distinct he hx rfl
  rw [found]

/-- Weights filled to one level: the smaller of the cap and the level's part of
each raw mass. -/
structure FilledTo (cap tolerance t : K) (raw out : List (Text × K)) : Prop where
  keys : (Dict.keys out).Perm (Dict.keys raw)
  level : ∀ k w x, (k, w) ∈ out → (k, x) ∈ raw → |w - min cap (t * x)| ≤ tolerance
  total : |total out - 1| ≤ tolerance
  ordered : ∀ j v x k w y, (j, v) ∈ out → (j, x) ∈ raw → (k, w) ∈ out → (k, y) ∈ raw →
    x ≤ y → v ≤ w + tolerance

theorem filledTo_of_normalized (h : Normalized cap raw out) (distinct : (Dict.keys raw).Nodup)
    (room : 1 ≤ raw.length * cap) : ∃ t, 0 < t ∧ FilledTo cap (1 / 10 ^ 12) t raw out := by
  obtain ⟨t, positive, parts⟩ := level_of_normalized h room
  have slack : (0 : K) ≤ 1 / 10 ^ 15 := by positivity
  have small : (1 : K) / 10 ^ 15 ≤ 1 / 10 ^ 12 := by norm_num
  refine ⟨t, positive, h.keys_perm, ?_, ?_, ?_⟩
  · intro k w x hw hx
    rw [weight_of_level distinct parts hw hx]
    exact (fill_near_min cap slack t x).trans small
  · rw [h.total_eq_one distinct, sub_self, abs_zero]
    exact slack.trans small
  · intro j v x k w y hv hx hw hy hxy
    rw [weight_of_level distinct parts hv hx, weight_of_level distinct parts hw hy]
    have higher : fill cap (1 / 10 ^ 15) t x ≤ fill cap (1 / 10 ^ 15) t y + 1 / 10 ^ 15 :=
      fill_le_add slack (mul_le_mul_of_nonneg_left hxy positive.le)
    linarith

/-- For positive raw masses and a cap that leaves room, the loop ends with the
weights of one level, in whatever order the map lists its entries. -/
theorem cappedNormalize_waterFilling (distinct : (Dict.keys raw).Nodup)
    (positive : ∀ e ∈ raw, 0 < e.2) (room : 1 ≤ raw.length * cap) :
    ∃ out, cappedNormalize raw cap = .ok out ∧ (∃ t, 0 < t ∧ FilledTo cap (1 / 10 ^ 12) t raw out) ∧
      ∀ raw', raw.Perm raw' → ∃ out', cappedNormalize raw' cap = .ok out' ∧ out.Perm out' := by
  have tolerance : (0 : K) < 1 / 10 ^ 12 := by positivity
  have enough : ¬ (raw.length * cap < 1 - 1 / 10 ^ 12) := by linarith
  obtain ⟨out, computed, normalized⟩ := cappedNormalize_normalized positive distinct enough
  refine ⟨out, computed, filledTo_of_normalized normalized distinct room, fun raw' same => ?_⟩
  exact cappedNormalize_perm same distinct computed

/-- Three masses of which the largest is cut in the first round. -/
theorem cappedNormalize_waterFilling_three :
    ∃ out, cappedNormalize [(['a'], (8 : ℚ)), (['b'], 1), (['c'], 1)] (1 / 2) = .ok out ∧
      (∃ t, 0 < t ∧
        FilledTo (1 / 2) (1 / 10 ^ 12) t [(['a'], (8 : ℚ)), (['b'], 1), (['c'], 1)] out) ∧
      ∀ raw', [(['a'], (8 : ℚ)), (['b'], 1), (['c'], 1)].Perm raw' →
        ∃ out', cappedNormalize raw' (1 / 2) = .ok out' ∧ out.Perm out' :=
  cappedNormalize_waterFilling (by decide) (by decide) (by norm_num)

end WaterLevel
