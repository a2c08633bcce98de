import PlanRace.ClippedWeights
import PlanRace.TestnetWeights
import Mathlib.Data.Rat.Floor

/-!
# The maximum weight after quantization

Encoding takes at most half a unit from each share and nothing from the largest
one. The gate that follows compares the encoded values exactly, so it decides
whether the limit survives the rounding.
-/

namespace WeightConformity

open JsonText PythonObjects Statistics Fallible CutLevels TestnetWeights

section Nearness

variable {K : Type} [Field K] [LinearOrder K] [IsStrictOrderedRing K] [FloorRing K]

theorem roundHalfEven_near (x : K) : x - 1 / 2 ≤ roundHalfEven x := by
  have lower := Int.floor_le x
  unfold roundHalfEven
  split_ifs with down up even
  · linarith
  · push_cast
    linarith [Int.lt_floor_add_one x]
  · linarith
  · push_cast
    linarith

theorem roundHalfEven_intCast (n : Int) : roundHalfEven (n : K) = n := by
  have fraction : (n : K) - ⌊(n : K)⌋ < 1 / 2 := by
    rw [Int.floor_intCast, sub_self]
    norm_num
  rw [roundHalfEven, if_pos fraction, Int.floor_intCast]

omit [FloorRing K] in
/-- A list that stays within half a unit of another one, and meets it at one value. -/
theorem sum_within_halves {scale top : K} {shares : List K} {values : List Int}
    (near : List.Forall₂
      (fun (x : K) (n : Int) => scale * x - 1 / 2 ≤ (n : K) ∧ (x = top → scale * x = n)) shares values) :
    scale * shares.sum - shares.length / 2 ≤ ((values.sum : Int) : K) ∧
      (top ∈ shares →
        scale * shares.sum - (shares.length - 1) / 2 ≤ ((values.sum : Int) : K)) := by
  induction near with
  | nil => simp
  | @cons x n shares values first rest ih =>
    obtain ⟨all, exact⟩ := ih
    simp only [List.sum_cons, List.length_cons, Int.cast_add, Nat.cast_add, Nat.cast_one]
    refine ⟨by linarith [first.1], fun hmem => ?_⟩
    rcases List.mem_cons.mp hmem with rfl | later
    · linarith [first.2 rfl]
    · linarith [exact later, first.1]

/-- What one share is encoded to. -/
theorem quantize_near {clipped : List K} (sum : clipped.sum = 1) {share : K} {value : Int}
    (h : quantize (maximum clipped) share = .ok value) :
    (u16Max : K) / maximum clipped * share - 1 / 2 ≤ (value : K) ∧
      (share = maximum clipped → (u16Max : K) / maximum clipped * share = value) := by
  have positive := maximum_pos sum
  obtain ⟨part, hpart, h⟩ := bind_ok h
  obtain ⟨-, rfl⟩ := divide_ok_iff.mp hpart
  cases h
  have commute : share / maximum clipped * u16Max = u16Max / maximum clipped * share := by ring
  rw [rounded_exact, commute]
  refine ⟨roundHalfEven_near _, fun largest => ?_⟩
  rw [largest, div_mul_cancel₀ _ positive.ne', roundHalfEven_intCast]

end Nearness

section Limit

variable {K : Type} [Field K] [LinearOrder K] [IsStrictOrderedRing K] [FloorRing K]

def u16Values (entries : List (ConformedWeight K)) : List Int :=
  entries.map ConformedWeight.u16Weight

variable {weights : List K} {rawLimit : Int} {entries : List (ConformedWeight K)} {flag : Bool}

/-- A vector of which nothing is dropped is the vector of all encoded shares. -/
theorem u16Values_of_kept (h : conformWeightVector weights rawLimit = .ok (entries, flag))
    (kept : entries.length = weights.length) :
    ∃ clipped, clipToMaxWeight weights rawLimit = .ok (clipped, flag) ∧
      clipped.mapM (quantize (maximum clipped)) = .ok (u16Values entries) := by
  obtain ⟨⟨clipped, flag'⟩, hclip, h⟩ := bind_ok h
  obtain ⟨quantized, hquantized, h⟩ := bind_ok h
  obtain ⟨_, -, h⟩ := bind_ok h
  cases h
  have count : quantized.length = weights.length :=
    (mapM_ok_iff.mp hquantized).length_eq.symm.trans (clipToMaxWeight_clipped hclip).2.length
  have positions : quantized.zipIdx.length = quantized.length := List.length_zipIdx
  rw [List.length_map, ← count, ← positions, List.length_filter_eq_length_iff,
    ← List.filter_eq_self] at kept
  refine ⟨clipped, hclip, ?_⟩
  rw [hquantized, u16Values, List.map_map, kept]
  exact congrArg Except.ok (List.zipIdx_map_fst 0 quantized).symm

theorem maximum_u16Values {clipped : List K} (sum : clipped.sum = 1) {values : List Int}
    (h : clipped.mapM (quantize (maximum clipped)) = .ok values) : maximum values = u16Max := by
  have nonempty : clipped ≠ [] := by
    rintro rfl
    exact zero_ne_one sum
  have positive := maximum_pos sum
  obtain ⟨top, hmem, quantizes⟩ := ok_of_mapM h _ (maximum_isGreatest nonempty).1
  have exact := (quantize_near sum quantizes).2 rfl
  rw [div_mul_cancel₀ _ positive.ne'] at exact
  have largest : top = u16Max := by exact_mod_cast exact.symm
  refine le_antisymm (maximum_le (List.ne_nil_of_mem hmem) fun value hvalue => ?_) ?_
  · obtain ⟨share, hshare, hq⟩ := exists_of_mem_mapM h hvalue
    exact quantize_le sum hshare hq
  · rw [← largest]
    exact (maximum_isGreatest (List.ne_nil_of_mem hmem)).2 hmem

/-- The units that rounding can take from all shares but the largest. -/
theorem u16Max_le_of_quantized {clipped : List K} (sum : clipped.sum = 1) {values : List Int}
    (h : clipped.mapM (quantize (maximum clipped)) = .ok values) :
    (u16Max : K) ≤
      maximum clipped * (((values.sum : Int) : K) + ((clipped.length : K) - 1) / 2) := by
  have nonempty : clipped ≠ [] := by
    rintro rfl
    exact zero_ne_one sum
  have positive := maximum_pos sum
  have near := (mapM_ok_iff.mp h).imp fun share value hq => quantize_near sum hq
  have bound := (sum_within_halves near).2 (maximum_isGreatest nonempty).1
  rw [sum, mul_one, sub_le_iff_le_add, div_le_iff₀ positive] at bound
  rwa [mul_comm]

theorem maximum_perm {α : Type} [Zero α] [LinearOrder α] {xs ys : List α} (same : xs.Perm ys) :
    maximum xs = maximum ys := by
  by_cases nonempty : xs = []
  · rw [nonempty] at same
    rw [nonempty, same.nil_eq]
  · have nonempty' : ys ≠ [] := fun he => nonempty (he ▸ same).eq_nil
    refine le_antisymm ?_ ?_
    · exact maximum_le nonempty fun x hx => (maximum_isGreatest nonempty').2 (same.mem_iff.mp hx)
    · exact maximum_le nonempty' fun x hx => (maximum_isGreatest nonempty).2 (same.mem_iff.mpr hx)

section Units

omit [FloorRing K]

variable {top total half : K}

/-- Shares under the limit exceed it after encoding by the rounded units at most. -/
theorem limit_of_units (positive : 0 < top) (units : (u16Max : K) ≤ top * (total + half))
    (below : top ≤ shareLimit rawLimit) : (u16Max : K) * u16Max ≤ rawLimit * (total + half) := by
  have sum : 0 < total + half := pos_of_mul_pos_right (u16Max_cast_pos.trans_le units) positive.le
  have limited := units.trans (mul_le_mul_of_nonneg_right below sum.le)
  rwa [shareLimit, div_mul_eq_mul_div, le_div_iff₀ u16Max_cast_pos] at limited

/-- Enough room below the limit pays for the rounded units. -/
theorem limit_of_slack (positive : 0 < top) (raw : 0 < rawLimit)
    (units : (u16Max : K) ≤ top * (total + half))
    (slack : 1 / shareLimit rawLimit + half / u16Max ≤ 1 / top) :
    (u16Max : K) * u16Max ≤ rawLimit * total := by
  have u16 : (0 : K) < (u16Max : Int) := u16Max_cast_pos
  have raw' : (0 : K) < rawLimit := by exact_mod_cast raw
  have rest : (u16Max : K) / top ≤ total + half := by
    rw [div_le_iff₀ positive, mul_comm]
    exact units
  have scaled := mul_le_mul_of_nonneg_left slack u16.le
  rw [shareLimit, one_div_div, mul_add, mul_div_cancel₀ half u16.ne', mul_one_div,
    ← mul_div_assoc] at scaled
  have enough : (u16Max : K) * u16Max / rawLimit ≤ total := by linarith
  rw [div_le_iff₀ raw'] at enough
  rwa [mul_comm (rawLimit : K)]

end Units

omit [Field K] [LinearOrder K] [IsStrictOrderedRing K] [FloorRing K] in
/-- The gate on the targets of a plan compares the encoded values. -/
theorem maximumWeightLimitMet_iff {targets : List (WeightTarget K)} (nonempty : entries ≠ [])
    (same : (targets.map WeightTarget.u16Weight).Perm (u16Values entries)) :
    maximumWeightLimitMet targets (some rawLimit) = true ↔
      maximum (u16Values entries) * u16Max ≤ rawLimit * (u16Values entries).sum := by
  have filled : targets.isEmpty = false := by
    rw [List.isEmpty_eq_false_iff]
    rintro rfl
    exact nonempty (List.map_eq_nil_iff.mp same.nil_eq.symm)
  rw [maximumWeightLimitMet, filled, Bool.not_false, Bool.true_and, Option.any_some,
    decide_eq_true_eq, maximum_perm same, same.sum_eq]

/-- What encoding leaves of the limit, and when the gate is sure to pass. -/
theorem conformed_within_half_units (positive : ∀ w ∈ weights, 0 < w)
    (room : u16Max < weights.length * rawLimit)
    (h : conformWeightVector weights rawLimit = .ok (entries, flag))
    (kept : entries.length = weights.length) :
    ∃ clipped, clipToMaxWeight weights rawLimit = .ok (clipped, flag) ∧
      (maximum clipped ≤ shareLimit rawLimit ∨
        CutsOff weights rawLimit ∧ 0 < clipScale weights rawLimit ∧
          maximum clipped ≤
            shareLimit rawLimit * (1 + epsilon / leftTotal weights rawLimit)) ∧
      maximum (u16Values entries) = u16Max ∧
      (u16Max : K) ≤ maximum clipped *
        (((u16Values entries).sum : Int) + ((entries.length : K) - 1) / 2) ∧
      (maximum clipped ≤ shareLimit rawLimit →
        (u16Max : K) * u16Max ≤
          rawLimit * (((u16Values entries).sum : Int) + ((entries.length : K) - 1) / 2)) ∧
      (1 / shareLimit rawLimit + ((entries.length : K) - 1) / 2 / u16Max ≤ 1 / maximum clipped →
        u16Max * u16Max ≤ rawLimit * (u16Values entries).sum) ∧
      ∀ targets : List (WeightTarget K),
        (targets.map WeightTarget.u16Weight).Perm (u16Values entries) →
        (maximumWeightLimitMet targets (some rawLimit) = true ↔
          u16Max * u16Max ≤ rawLimit * (u16Values entries).sum) := by
  obtain ⟨clipped, hclip, hvalues⟩ := u16Values_of_kept h kept
  obtain ⟨limits, shape⟩ := clipToMaxWeight_clipped hclip
  have top := maximum_pos shape.sum
  have largest := maximum_u16Values shape.sum hvalues
  have units := u16Max_le_of_quantized shape.sum hvalues
  rw [shape.length.trans kept.symm] at units
  refine ⟨clipped, hclip, ?_, largest, units, limit_of_units top units, fun slack => ?_, ?_⟩
  · have outcome := clipToMaxWeight_outcome shape.nonempty positive limits
    rw [hclip] at outcome
    cases outcome with
    | clipped shares flag nonzero safe bounded => exact bounded room
  · exact_mod_cast limit_of_slack top limits.1 units slack
  · intro targets same
    rw [maximumWeightLimitMet_iff (conformWeightVector_conformed h).nonempty same, largest]

end Limit

section Sample

deriving instance DecidableEq for ConformedWeight

/-- Two weights on the edge of a limit that leaves room for both. -/
def edgeEntries : List (ConformedWeight ℚ) :=
  [⟨0, 65535 / 131068, 65535⟩, ⟨1, 65533 / 131068, 65533⟩]

theorem edge_conforms :
    conformWeightVector ([32768, 32767] : List ℚ) 32768 = .ok (edgeEntries, false) := by
  decide +kernel

/-- The vector meets the limit before it is encoded, and one unit is lost. -/
theorem quantization_passes_limit :
    u16Max < 2 * 32768 ∧
      conformWeightVector ([32768, 32767] : List ℚ) 32768 = .ok (edgeEntries, false) ∧
      edgeEntries.length = 2 ∧
      32768 * (u16Values edgeEntries).sum < maximum (u16Values edgeEntries) * u16Max :=
  ⟨by decide, edge_conforms, rfl, by decide⟩

theorem conformed_within_half_units_edge :
    ∃ clipped, clipToMaxWeight ([32768, 32767] : List ℚ) 32768 = .ok (clipped, false) ∧
      (maximum clipped ≤ shareLimit 32768 ∨
        CutsOff ([32768, 32767] : List ℚ) 32768 ∧ 0 < clipScale ([32768, 32767] : List ℚ) 32768 ∧
          maximum clipped ≤
            shareLimit 32768 * (1 + epsilon / leftTotal ([32768, 32767] : List ℚ) 32768)) ∧
      maximum (u16Values edgeEntries) = u16Max ∧
      (u16Max : ℚ) ≤ maximum clipped *
        (((u16Values edgeEntries).sum : Int) + ((edgeEntries.length : ℚ) - 1) / 2) ∧
      (maximum clipped ≤ shareLimit 32768 →
        (u16Max : ℚ) * u16Max ≤ (32768 : Int) *
          (((u16Values edgeEntries).sum : Int) + ((edgeEntries.length : ℚ) - 1) / 2)) ∧
      (1 / shareLimit 32768 + ((edgeEntries.length : ℚ) - 1) / 2 / u16Max ≤ 1 / maximum clipped →
        u16Max * u16Max ≤ 32768 * (u16Values edgeEntries).sum) ∧
      ∀ targets : List (WeightTarget ℚ),
        (targets.map WeightTarget.u16Weight).Perm (u16Values edgeEntries) →
        (maximumWeightLimitMet targets (some 32768) = true ↔
          u16Max * u16Max ≤ 32768 * (u16Values edgeEntries).sum) :=
  conformed_within_half_units (by decide) (by decide) edge_conforms rfl

end Sample

end WeightConformity
