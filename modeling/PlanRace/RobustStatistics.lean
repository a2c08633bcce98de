import PlanRace.ScoringV2
import PlanRace.Library.OrderStatistics

/-!
# The winsorized mean and the robust error

The winsorized mean is monotone in its values, moves with a common shift, and
hides as many values at either end as it clips. The MAD-based error is not
negative and is unmoved by a shift.
-/

namespace RobustStatistics

open Statistics ScoringV2

section Clip

variable {K : Type} [Field K] [LinearOrder K]

theorem winsorWidth_le [FloorSemiring K] (count : Nat) (fraction : K) (minimumWidth : Nat) :
    winsorWidth count fraction minimumWidth ≤ (count - 1) / 2 :=
  min_le_right _ _

theorem clippedMean_eq_of_perm {xs ys : List K} (h : xs.Perm ys) (width : Nat) :
    clippedMean xs width = clippedMean ys width := by
  rw [clippedMean, clippedMean, sorted_eq_of_perm h]

variable [IsStrictOrderedRing K]

theorem clippedMean_mono {xs ys : List K} (h : List.Forall₂ (· ≤ ·) xs ys) (width : Nat) :
    clippedMean xs width ≤ clippedMean ys width := by
  have ordered := sorted_mono h
  simp only [clippedMean]
  split_ifs with none
  · exact fmean_mono ordered
  · have lower := getD_mono ordered width 0
    have upper := getD_mono ordered ((sorted xs).length - width - 1) 0
    rw [ordered.length_eq] at upper ⊢
    refine fmean_mono ?_
    rw [List.forall₂_map_left_iff, List.forall₂_map_right_iff]
    exact ordered.imp fun x y hxy => min_le_min upper (max_le_max lower hxy)

theorem clippedMean_le {values : List K} (nonempty : values ≠ []) {c : K}
    (h : ∀ x ∈ values, x ≤ c) (width : Nat) : clippedMean values width ≤ c := by
  have hlength : 0 < values.length := List.length_pos_iff.mpr nonempty
  have ordered : ∀ x ∈ sorted values, x ≤ c := fun x hx =>
    h x ((sorted_perm values).mem_iff.mp hx)
  have some : sorted values ≠ [] := by
    intro he
    rw [← length_sorted, he] at hlength
    cases hlength
  simp only [clippedMean]
  split_ifs with none
  · exact fmean_le some ordered
  · refine fmean_le (fun he => some (List.map_eq_nil_iff.mp he)) ?_
    intro x hx
    obtain ⟨y, -, rfl⟩ := List.mem_map.mp hx
    have inside : (sorted values).length - width - 1 < (sorted values).length := by
      rw [length_sorted]
      omega
    refine (min_le_left _ _).trans ?_
    rw [List.getD_eq_getElem _ _ inside]
    exact ordered _ (List.getElem_mem inside)

theorem le_clippedMean {values : List K} (nonempty : values ≠ []) {c : K}
    (h : ∀ x ∈ values, c ≤ x) (width : Nat) : c ≤ clippedMean values width := by
  have hlength : 0 < values.length := List.length_pos_iff.mpr nonempty
  have ordered : ∀ x ∈ sorted values, c ≤ x := fun x hx =>
    h x ((sorted_perm values).mem_iff.mp hx)
  have some : sorted values ≠ [] := by
    intro he
    rw [← length_sorted, he] at hlength
    cases hlength
  simp only [clippedMean]
  split_ifs with none
  · exact le_fmean some ordered
  · refine le_fmean (fun he => some (List.map_eq_nil_iff.mp he)) ?_
    intro x hx
    obtain ⟨y, hy, rfl⟩ := List.mem_map.mp hx
    have inside : (sorted values).length - width - 1 < (sorted values).length := by
      rw [length_sorted]
      omega
    refine le_min ?_ (le_max_of_le_right (ordered y hy))
    rw [List.getD_eq_getElem _ _ inside]
    exact ordered _ (List.getElem_mem inside)

/-- The clipped mean hides `width` values above any bound. -/
theorem clippedMean_of_constant {values : List K} (nonempty : values ≠ []) {c : K}
    (h : ∀ x ∈ values, x = c) (width : Nat) : clippedMean values width = c :=
  le_antisymm (clippedMean_le nonempty (fun x hx => (h x hx).le) width)
    (le_clippedMean nonempty (fun x hx => (h x hx).ge) width)

theorem clippedMean_le_of_few {values : List K} (nonempty : values ≠ []) {c : K} {width : Nat}
    (centered : width ≤ (values.length - 1) / 2)
    (few : (values.countP fun x => decide (c < x)) ≤ width) : clippedMean values width ≤ c := by
  have hlength : 0 < values.length := List.length_pos_iff.mpr nonempty
  by_cases none : width = 0
  · refine clippedMean_le nonempty ?_ width
    intro x hx
    have absent := List.countP_eq_zero.mp (Nat.le_zero.mp (none ▸ few)) x hx
    simpa using absent
  · have upper : (sorted values).getD ((sorted values).length - width - 1) 0 ≤ c := by
      by_contra above
      have tail : ∀ x ∈ (sorted values).drop ((sorted values).length - width - 1),
          decide (c < x) = true := fun x hx =>
        decide_eq_true ((not_le.mp above).trans_le (le_of_mem_drop_sorted hx))
      have count := List.countP_eq_length.mpr tail
      have bound := (List.drop_sublist ((sorted values).length - width - 1) (sorted values)).countP_le
        (p := fun x => decide (c < x))
      rw [count, (sorted_perm values).countP_eq, List.length_drop, length_sorted] at bound
      omega
    have some : sorted values ≠ [] := by
      intro he
      rw [← length_sorted, he] at hlength
      cases hlength
    simp only [clippedMean, if_neg none]
    refine fmean_le (fun he => some (List.map_eq_nil_iff.mp he)) ?_
    intro x hx
    obtain ⟨y, -, rfl⟩ := List.mem_map.mp hx
    exact (min_le_left _ _).trans upper

theorem clippedMean_map_add {values : List K} (nonempty : values ≠ []) (c : K) {width : Nat}
    (centered : width ≤ (values.length - 1) / 2) :
    clippedMean (values.map (· + c)) width = clippedMean values width + c := by
  have hlength : 0 < values.length := List.length_pos_iff.mpr nonempty
  have some : sorted values ≠ [] := by
    intro he
    rw [← length_sorted, he] at hlength
    cases hlength
  have lower : width < (sorted values).length := by
    rw [length_sorted]
    omega
  have upper : (sorted values).length - width - 1 < (sorted values).length := by
    rw [length_sorted]
    omega
  simp only [clippedMean, sorted_map_add, List.length_map]
  split_ifs with none
  · exact fmean_map_add some c
  · rw [getD_map_add lower, getD_map_add upper, List.map_map,
      ← fmean_map_add (fun he => some (List.map_eq_nil_iff.mp he)) c, List.map_map]
    congr 1
    refine List.map_congr_left fun x _ => ?_
    simp only [Function.comp_apply]
    rw [max_add_add_right, min_add_add_right]

end Clip

section Rate

variable {K : Type} [Field K] [LinearOrder K] [IsStrictOrderedRing K]

theorem rate_bounds (observations : List (EpochObservation K)) (holds : EpochObservation K → Bool) :
    0 ≤ rate observations holds ∧ rate observations holds ≤ 1 := by
  unfold rate
  split_ifs with none
  · exact ⟨le_refl 0, zero_le_one⟩
  · have some : (observations.map fun o => if holds o = true then (1 : K) else 0) ≠ [] := fun he =>
      none (List.map_eq_nil_iff.mp he)
    constructor
    · apply le_fmean some
      intro x hx
      obtain ⟨o, -, rfl⟩ := List.mem_map.mp hx
      split_ifs <;> norm_num
    · apply fmean_le some
      intro x hx
      obtain ⟨o, -, rfl⟩ := List.mem_map.mp hx
      split_ifs <;> norm_num

end Rate

section Error

variable {K : Type} [Field K] [LinearOrder K] [RealFunctions K]

theorem robustStandardError_eq_of_perm {xs ys : List K} (h : xs.Perm ys) :
    robustStandardError xs = robustStandardError ys := by
  simp only [robustStandardError, h.length_eq, median_eq_of_perm h]
  rw [median_eq_of_perm (h.map _)]

variable [IsStrictOrderedRing K]

theorem robustStandardError_map_add (values : List K) (c : K) :
    robustStandardError (values.map (· + c)) = robustStandardError values := by
  simp only [robustStandardError, List.length_map]
  split_ifs with short
  · rfl
  · have nonempty : values ≠ [] := by
      intro he
      rw [he] at short
      exact short (by simp)
    rw [median_map_add nonempty, List.map_map]
    have same : ((fun value => |value - (median values + c)|) ∘ fun x => x + c) =
        fun value => |value - median values| := by
      funext x
      simp only [Function.comp_apply, add_sub_add_right_eq_sub]
    rw [same]

theorem robustStandardError_of_constant {values : List K} {c : K} (h : ∀ x ∈ values, x = c) :
    robustStandardError values = 0 := by
  simp only [robustStandardError]
  split_ifs with short
  · rfl
  · have nonempty : values ≠ [] := by
      intro he
      rw [he] at short
      exact short (by simp)
    have center := median_of_constant nonempty h
    have deviations : ∀ x ∈ values.map fun value => |value - median values|, x = 0 := by
      intro x hx
      obtain ⟨value, hvalue, rfl⟩ := List.mem_map.mp hx
      rw [center, h value hvalue, sub_self, abs_zero]
    have none : values.map (fun value => |value - median values|) ≠ [] := fun he =>
      nonempty (List.map_eq_nil_iff.mp he)
    rw [median_of_constant none deviations, mul_zero, zero_div]

theorem robustStandardError_nonneg (values : List ℝ) : 0 ≤ robustStandardError values := by
  simp only [robustStandardError]
  split_ifs
  · exact le_refl 0
  · refine div_nonneg (mul_nonneg (by norm_num) (median_nonneg ?_)) (Real.sqrt_nonneg _)
    intro x hx
    obtain ⟨y, -, rfl⟩ := List.mem_map.mp hx
    exact abs_nonneg _

end Error

end RobustStatistics
