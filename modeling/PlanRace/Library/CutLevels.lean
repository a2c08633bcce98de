import PlanRace.Library.OrderStatistics
import Mathlib.Tactic.Linarith

/-!
# Cutting values at a level

The total that is left when every value is cut at a level. Lowering the level
lowers the total at most in proportion, so the levels whose part of the total
stays under a bound form a lower set, and in a sorted list a prefix.
-/

namespace CutLevels

universe u

section Sorted

variable {α : Type u} [LinearOrder α]

/-- In a sorted list the values of a lower set come first. -/
theorem take_countP_of_sorted {values : List α} (ordered : values.Pairwise (· ≤ ·))
    {low : α → Bool} (lower : ∀ x ∈ values, ∀ y ∈ values, x ≤ y → low y = true → low x = true) :
    values.take (values.countP low) = values.filter low := by
  induction values with
  | nil => rfl
  | cons x rest ih =>
    obtain ⟨first, ordered'⟩ := List.pairwise_cons.mp ordered
    have tail := ih ordered' fun y hy z hz =>
      lower y (List.mem_cons_of_mem x hy) z (List.mem_cons_of_mem x hz)
    by_cases hx : low x = true
    · rw [List.countP_cons_of_pos hx, List.take_succ_cons, List.filter_cons_of_pos hx, tail]
    · have none : ∀ y ∈ rest, ¬ low y = true := by
        intro y hy h
        exact hx (lower x List.mem_cons_self y (List.mem_cons_of_mem x hy) (first y hy) h)
      rw [List.countP_cons_of_neg hx, List.filter_cons_of_neg hx, List.countP_eq_zero.mpr none,
        List.take_zero, List.filter_eq_nil_iff.mpr none]

end Sorted

variable {K : Type u} [Field K] [LinearOrder K]

/-- The total of the values, each cut at the level. -/
def cutTotal (level : K) (values : List K) : K := (values.map (min · level)).sum

theorem cutTotal_cons (level value : K) (values : List K) :
    cutTotal level (value :: values) = min value level + cutTotal level values := by
  rw [cutTotal, List.map_cons, List.sum_cons, cutTotal]

theorem cutTotal_append (level : K) (xs ys : List K) :
    cutTotal level (xs ++ ys) = cutTotal level xs + cutTotal level ys := by
  rw [cutTotal, List.map_append, List.sum_append, cutTotal, cutTotal]

theorem cutTotal_perm (level : K) {xs ys : List K} (h : xs.Perm ys) :
    cutTotal level xs = cutTotal level ys :=
  (h.map _).sum_eq

/-- A level above all values cuts nothing. -/
theorem cutTotal_of_le {level : K} {values : List K} (h : ∀ x ∈ values, x ≤ level) :
    cutTotal level values = values.sum := by
  rw [cutTotal, List.map_congr_left (fun x hx => min_eq_left (h x hx)), List.map_id']

/-- A level below all values replaces them. -/
theorem cutTotal_of_ge {level : K} {values : List K} (h : ∀ x ∈ values, level ≤ x) :
    cutTotal level values = values.length * level := by
  rw [cutTotal, List.map_congr_left (fun x hx => min_eq_right (h x hx)), List.map_const',
    List.sum_replicate, nsmul_eq_mul]

/-- The cut total at a value of a sorted list. -/
theorem cutTotal_of_sorted {before rest : List K} {value : K}
    (ordered : (before ++ value :: rest).Pairwise (· ≤ ·)) :
    cutTotal value (before ++ value :: rest) = rest.length * value + (before.sum + value) := by
  obtain ⟨-, after, across⟩ := List.pairwise_append.mp ordered
  have below : ∀ x ∈ before, x ≤ value := fun x hx => across x hx value List.mem_cons_self
  have above : ∀ x ∈ rest, value ≤ x := (List.pairwise_cons.mp after).1
  rw [cutTotal_append, cutTotal_cons, cutTotal_of_le below, cutTotal_of_ge above, min_self]
  ring

variable [IsStrictOrderedRing K]

theorem cutTotal_pos {level : K} (positive : 0 < level) {values : List K} (nonempty : values ≠ [])
    (h : ∀ x ∈ values, 0 < x) : 0 < cutTotal level values := by
  refine List.sum_pos _ (fun x hx => ?_) (fun he => nonempty (List.map_eq_nil_iff.mp he))
  obtain ⟨value, hvalue, rfl⟩ := List.mem_map.mp hx
  exact lt_min (h value hvalue) positive

/-- Lowering a level lowers the cut total at most in proportion. -/
theorem mul_cutTotal_le {x y : K} (hx : 0 ≤ x) (hxy : x ≤ y) {values : List K}
    (h : ∀ v ∈ values, 0 ≤ v) : x * cutTotal y values ≤ y * cutTotal x values := by
  induction values with
  | nil => simp [cutTotal]
  | cons v rest ih =>
    have tail := ih fun w hw => h w (List.mem_cons_of_mem v hw)
    have first : x * min v y ≤ y * min v x := by
      have hv := h v List.mem_cons_self
      have hy := hx.trans hxy
      rcases le_total v x with low | high
      · rw [min_eq_left low]
        exact mul_le_mul hxy (min_le_left v y) (le_min hv hy) hy
      · rw [min_eq_right high, mul_comm y x]
        exact mul_le_mul_of_nonneg_left (min_le_right v y) hx
    rw [cutTotal_cons, cutTotal_cons, mul_add, mul_add]
    exact add_le_add first tail

/-- The level is under a part of its own cut total, up to a slack. -/
def Under (part slack : K) (values : List K) (level : K) : Prop :=
  level < part * (cutTotal level values + slack)

theorem under_of_le {part slack : K} (hpart : 0 ≤ part) (hslack : 0 ≤ slack) {values : List K}
    (h : ∀ v ∈ values, 0 ≤ v) {x y : K} (hx : 0 < x) (hxy : x ≤ y)
    (under : Under part slack values y) : Under part slack values x := by
  have hy : 0 < y := hx.trans_le hxy
  have proportional := mul_le_mul_of_nonneg_left (mul_cutTotal_le hx.le hxy h) hpart
  have scaled : x * y < x * (part * (cutTotal y values + slack)) := mul_lt_mul_of_pos_left under hx
  have slacks : part * slack * x ≤ part * slack * y :=
    mul_le_mul_of_nonneg_left hxy (mul_nonneg hpart hslack)
  have both : y * x < y * (part * (cutTotal x values + slack)) := by linarith
  exact lt_of_mul_lt_mul_left both hy.le

end CutLevels
