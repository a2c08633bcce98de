import PlanRace.RobustStatistics

/-!
# The winsorized mean is a robust monotone mean

It lies between the two order statistics it clips to, follows its values, and
withstands as many replaced values as it clips at either end.
-/

namespace WinsorizedMean

open Statistics ScoringV2 RobustStatistics

section Clip

variable {K : Type} [Field K] [LinearOrder K]

theorem getD_sorted_mono {values : List K} {i j : Nat} (h : i ≤ j) (bound : j < values.length) :
    (sorted values).getD i 0 ≤ (sorted values).getD j 0 := by
  have inside : j < (sorted values).length := by rwa [length_sorted]
  apply le_of_mem_drop_sorted
  rw [List.getD_eq_getElem _ _ inside]
  exact List.mem_drop_iff_getElem.mpr ⟨j - i, by omega, by simp [Nat.add_sub_cancel' h]⟩

omit [Field K] in
theorem sorted_ne_nil {values : List K} (nonempty : values ≠ []) : sorted values ≠ [] := by
  intro none
  exact nonempty (List.length_eq_zero_iff.mp (by rw [← length_sorted, none, List.length_nil]))

/-- Every value is at a position of the sorted list. -/
theorem exists_position {values : List K} {x : K} (h : x ∈ values) :
    ∃ i < values.length, (sorted values).getD i 0 = x := by
  obtain ⟨i, inside, rfl⟩ := List.mem_iff_getElem.mp ((sorted_perm values).mem_iff.mpr h)
  exact ⟨i, by rwa [length_sorted] at inside, List.getD_eq_getElem _ _ inside⟩

variable [IsStrictOrderedRing K]

/-- The clipped mean lies between the two values that it clips to. -/
theorem clippedMean_bounds {values : List K} (nonempty : values ≠ []) {width : Nat}
    (centered : width ≤ (values.length - 1) / 2) :
    (sorted values).getD width 0 ≤ clippedMean values width ∧
      clippedMean values width ≤ (sorted values).getD (values.length - 1 - width) 0 := by
  have positive : 0 < values.length := List.length_pos_iff.mpr nonempty
  have ordered : (sorted values).getD width 0 ≤
      (sorted values).getD (values.length - 1 - width) 0 :=
    getD_sorted_mono (by omega) (by omega)
  have index : (sorted values).length - width - 1 = values.length - 1 - width := by
    rw [length_sorted]
    omega
  by_cases none : width = 0
  · constructor
    · refine le_clippedMean nonempty (fun x hx => ?_) width
      obtain ⟨i, bound, rfl⟩ := exists_position hx
      exact getD_sorted_mono (by omega) bound
    · refine clippedMean_le nonempty (fun x hx => ?_) width
      obtain ⟨i, bound, rfl⟩ := exists_position hx
      exact getD_sorted_mono (by omega) (by omega)
  · simp only [clippedMean, if_neg none, index]
    have some : (sorted values).map (fun value => min
        ((sorted values).getD (values.length - 1 - width) 0)
          (max ((sorted values).getD width 0) value)) ≠ [] :=
      fun he => sorted_ne_nil nonempty (List.map_eq_nil_iff.mp he)
    constructor
    · refine le_fmean some (fun x hx => ?_)
      obtain ⟨y, -, rfl⟩ := List.mem_map.mp hx
      exact le_min ordered (le_max_left _ _)
    · refine fmean_le some (fun x hx => ?_)
      obtain ⟨y, -, rfl⟩ := List.mem_map.mp hx
      exact min_le_left _ _

theorem clippedMean_map_mul {values : List K} (nonempty : values ≠ []) {c : K} (hc : 0 ≤ c)
    (width : Nat) : clippedMean (values.map (c * ·)) width = c * clippedMean values width := by
  rcases hc.eq_or_lt with rfl | positive
  · have zeros : ∀ x ∈ values.map ((0 : K) * ·), x = 0 := by
      intro x hx
      obtain ⟨y, -, rfl⟩ := List.mem_map.mp hx
      exact zero_mul y
    rw [clippedMean_of_constant (fun he => nonempty (List.map_eq_nil_iff.mp he)) zeros, zero_mul]
  · simp only [clippedMean, sorted_map_mul positive, List.length_map, getD_map_mul]
    split_ifs with none
    · exact fmean_map_mul c _
    · rw [← fmean_map_mul, List.map_map, List.map_map]
      congr 1
      refine List.map_congr_left fun x _ => ?_
      simp only [Function.comp_apply]
      rw [mul_min_of_nonneg _ _ hc, mul_max_of_nonneg _ _ hc]

/-- The clipped mean hides `width` values below any bound. -/
theorem le_clippedMean_of_few {values : List K} (nonempty : values ≠ []) {c : K} {width : Nat}
    (centered : width ≤ (values.length - 1) / 2)
    (few : (values.countP fun x => decide (x < c)) ≤ width) : c ≤ clippedMean values width := by
  have positive : 0 < values.length := List.length_pos_iff.mpr nonempty
  refine le_trans ?_ (clippedMean_bounds nonempty centered).1
  by_contra below
  have head : ∀ x ∈ (sorted values).take (width + 1), decide (x < c) = true := by
    intro x hx
    obtain ⟨i, bound, rfl⟩ := List.mem_take_iff_getElem.mp hx
    have inside : i < (sorted values).length := by omega
    rw [← List.getD_eq_getElem _ 0 inside]
    exact decide_eq_true (lt_of_le_of_lt (getD_sorted_mono (by omega) (by omega))
      (not_le.mp below))
  have count := List.countP_eq_length.mpr head
  have bound := (List.take_sublist (width + 1) (sorted values)).countP_le
    (p := fun x => decide (x < c))
  rw [count, (sorted_perm values).countP_eq, List.length_take, length_sorted] at bound
  omega

/-- Replaced values, no more than are clipped, leave the mean among the kept ones. -/
theorem clippedMean_of_replaced {values kept others : List K} {width : Nat}
    (centered : width ≤ (values.length - 1) / 2) (nonempty : values ≠ [])
    (mixed : values.Perm (kept ++ others)) (few : others.length ≤ width) {low high : K}
    (bounds : ∀ x ∈ kept, low ≤ x ∧ x ≤ high) :
    low ≤ clippedMean values width ∧ clippedMean values width ≤ high := by
  have count : ∀ p : K → Bool, (∀ x ∈ kept, p x = false) → values.countP p ≤ width := by
    intro p none
    have absent : kept.countP p = 0 := List.countP_eq_zero.mpr fun x hx => by simp [none x hx]
    rw [mixed.countP_eq, List.countP_append, absent, Nat.zero_add]
    exact (List.countP_le_length).trans few
  constructor
  · exact le_clippedMean_of_few nonempty centered
      (count _ fun x hx => decide_eq_false (not_lt.mpr (bounds x hx).1))
  · exact clippedMean_le_of_few nonempty centered
      (count _ fun x hx => decide_eq_false (not_lt.mpr (bounds x hx).2))

end Clip

section Mean

variable {K : Type} [Field K] [LinearOrder K] [IsStrictOrderedRing K] [FloorSemiring K]

/-- What is promised of the winsorized mean of values. -/
structure RobustMean (values : List K) (fraction : K) (minimumWidth : Int) (mean : K) : Prop where
  between : ∃ lower upper,
    (sorted values)[winsorWidth values.length fraction minimumWidth.toNat]? = some lower ∧
    (sorted values)[values.length - 1 - winsorWidth values.length fraction minimumWidth.toNat]? =
      some upper ∧ lower ≤ upper ∧ lower ≤ mean ∧ mean ≤ upper
  permuted : ∀ others, others.Perm values → winsorizedMean others fraction minimumWidth = .ok mean
  monotone : ∀ others, List.Forall₂ (· ≤ ·) values others →
    ∃ mean', winsorizedMean others fraction minimumWidth = .ok mean' ∧ mean ≤ mean'
  scaled : ∀ c, 0 ≤ c → winsorizedMean (values.map (c * ·)) fraction minimumWidth = .ok (c * mean)
  shifted : ∀ c, winsorizedMean (values.map (· + c)) fraction minimumWidth = .ok (mean + c)
  /-- As many values are replaced as are clipped at one end. -/
  withstands : ∀ kept old new, values.Perm (kept ++ old) → new.length = old.length →
    new.length ≤ winsorWidth values.length fraction minimumWidth.toNat →
    ∃ mean', winsorizedMean (kept ++ new) fraction minimumWidth = .ok mean' ∧
      (∃ least ∈ kept, (∀ x ∈ kept, least ≤ x) ∧ least ≤ mean') ∧
      ∃ greatest ∈ kept, (∀ x ∈ kept, x ≤ greatest) ∧ mean' ≤ greatest

omit [IsStrictOrderedRing K] in
theorem winsorizedMean_ok {values : List K} {fraction : K} {minimumWidth : Int}
    (nonempty : values ≠ []) (bounds : 0 ≤ fraction ∧ fraction < 1 / 2)
    (nonnegative : 0 ≤ minimumWidth) :
    winsorizedMean values fraction minimumWidth =
      .ok (clippedMean values (winsorWidth values.length fraction minimumWidth.toNat)) := by
  rw [← winsorizedMean_eq nonempty bounds, Int.toNat_of_nonneg nonnegative]

theorem exists_least {K : Type} [LinearOrder K] {kept : List K} (nonempty : kept ≠ []) :
    ∃ least ∈ kept, ∀ x ∈ kept, least ≤ x := by
  cases kept with
  | nil => exact absurd rfl nonempty
  | cons first rest => exact ⟨_, foldl_min_isLeast first rest⟩

theorem exists_greatest {K : Type} [LinearOrder K] {kept : List K} (nonempty : kept ≠ []) :
    ∃ greatest ∈ kept, ∀ x ∈ kept, x ≤ greatest := exists_least (K := Kᵒᵈ) nonempty

/-- The winsorized mean of a non-empty list is a robust monotone mean. -/
theorem winsorizedMean_robust {values : List K} {fraction : K} {minimumWidth : Int}
    (nonempty : values ≠ []) (bounds : 0 ≤ fraction ∧ fraction < 1 / 2)
    (nonnegative : 0 ≤ minimumWidth) :
    ∃ mean, winsorizedMean values fraction minimumWidth = .ok mean ∧
      RobustMean values fraction minimumWidth mean := by
  have positive : 0 < values.length := List.length_pos_iff.mpr nonempty
  let width := winsorWidth values.length fraction minimumWidth.toNat
  have centered : width ≤ (values.length - 1) / 2 := winsorWidth_le _ _ _
  refine ⟨clippedMean values width, winsorizedMean_ok nonempty bounds nonnegative, ?_⟩
  have same : ∀ {others : List K}, others.length = values.length →
      winsorizedMean others fraction minimumWidth = .ok (clippedMean others width) := by
    intro others length
    have some : others ≠ [] := List.ne_nil_of_length_pos (by omega)
    rw [winsorizedMean_ok some bounds nonnegative, length]
  constructor
  · obtain ⟨low, high⟩ := clippedMean_bounds nonempty centered
    have lower : width < (sorted values).length := by
      rw [length_sorted]
      omega
    have upper : values.length - 1 - width < (sorted values).length := by
      rw [length_sorted]
      omega
    refine ⟨(sorted values).getD width 0, (sorted values).getD (values.length - 1 - width) 0, ?_, ?_,
      getD_sorted_mono (by omega) (by omega), low, high⟩
    · rw [List.getD_eq_getElem _ _ lower]
      exact List.getElem?_eq_getElem lower
    · rw [List.getD_eq_getElem _ _ upper]
      exact List.getElem?_eq_getElem upper
  · intro others permuted
    rw [same permuted.length_eq, clippedMean_eq_of_perm permuted]
  · intro others raised
    exact ⟨_, same raised.length_eq.symm, clippedMean_mono raised width⟩
  · intro c hc
    rw [same (List.length_map _), clippedMean_map_mul nonempty hc]
  · intro c
    rw [same (List.length_map _), clippedMean_map_add nonempty c centered]
  · intro kept old new mixed length few
    have total : values.length = kept.length + old.length := by
      rw [mixed.length_eq, List.length_append]
    have replaced : (kept ++ new).length = values.length := by
      rw [List.length_append]
      omega
    have some : kept ≠ [] := List.ne_nil_of_length_pos (by omega)
    have whole : kept ++ new ≠ [] := List.append_ne_nil_of_left_ne_nil some new
    obtain ⟨least, hleast, below⟩ := exists_least some
    obtain ⟨greatest, hgreatest, above⟩ := exists_greatest some
    have between := clippedMean_of_replaced (by rwa [replaced]) whole (List.Perm.refl _) few
      fun x hx => ⟨below x hx, above x hx⟩
    exact ⟨_, same replaced, ⟨least, hleast, below, between.1⟩, greatest, hgreatest, above,
      between.2⟩

end Mean

/-- One of five values is clipped at either end. -/
theorem winsorizedMean_robust_five :
    winsorWidth (K := ℚ) 5 (1 / 10) 1 = 1 ∧
    ∃ mean, winsorizedMean [5, 1, 4, 2, 100] (1 / 10 : ℚ) 1 = .ok mean ∧
      RobustMean [5, 1, 4, 2, 100] (1 / 10 : ℚ) 1 mean :=
  ⟨by decide +kernel, winsorizedMean_robust (by simp) (by norm_num) (by decide)⟩

end WinsorizedMean
