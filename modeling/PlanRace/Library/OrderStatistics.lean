import PlanRace.Library.Statistics
import Mathlib.Algebra.Order.BigOperators.Group.List
import Mathlib.Data.List.GetD
import Mathlib.Tactic.Ring

/-!
# Order statistics

Sorting is monotone, position by position, and commutes with a common shift,
as do means and medians.
-/

namespace Statistics

universe u

section Mean

variable {K : Type u} [Field K] [LinearOrder K] [IsStrictOrderedRing K]

theorem fmean_mono {xs ys : List K} (h : List.Forall₂ (· ≤ ·) xs ys) : fmean xs ≤ fmean ys := by
  have hsum : xs.sum ≤ ys.sum := h.sum_le_sum
  rw [fmean, fmean, h.length_eq]
  exact div_le_div_of_nonneg_right hsum (Nat.cast_nonneg _)

theorem length_cast_pos {xs : List K} (nonempty : xs ≠ []) : (0 : K) < xs.length := by
  exact_mod_cast List.length_pos_iff.mpr nonempty

theorem fmean_le {xs : List K} (nonempty : xs ≠ []) {c : K} (h : ∀ x ∈ xs, x ≤ c) :
    fmean xs ≤ c := by
  have hsum : xs.sum ≤ xs.length • c := List.sum_le_card_nsmul xs c h
  rw [fmean, div_le_iff₀ (length_cast_pos nonempty)]
  rwa [nsmul_eq_mul, mul_comm] at hsum

theorem le_fmean {xs : List K} (nonempty : xs ≠ []) {c : K} (h : ∀ x ∈ xs, c ≤ x) :
    c ≤ fmean xs := by
  have hsum : xs.length • c ≤ xs.sum := List.card_nsmul_le_sum xs c h
  rw [fmean, le_div_iff₀ (length_cast_pos nonempty)]
  rwa [nsmul_eq_mul, mul_comm] at hsum

theorem fmean_map_add {xs : List K} (nonempty : xs ≠ []) (c : K) :
    fmean (xs.map (· + c)) = fmean xs + c := by
  have hlength := (length_cast_pos nonempty).ne'
  rw [fmean, fmean, List.sum_map_add, List.map_id', List.map_const', List.sum_replicate,
    List.length_map, nsmul_eq_mul, add_div, mul_div_cancel_left₀ c hlength]

end Mean

section Sorted

variable {K : Type u} [LinearOrder K]

/-- Inserting a greater value into a greater list gives a greater list. -/
theorem orderedInsert_mono {xs ys : List K} (h : List.Forall₂ (· ≤ ·) xs ys)
    (hxs : xs.Pairwise (· ≤ ·)) (hys : ys.Pairwise (· ≤ ·)) {a b : K} (hab : a ≤ b) :
    List.Forall₂ (· ≤ ·) (xs.orderedInsert (· ≤ ·) a) (ys.orderedInsert (· ≤ ·) b) := by
  induction h generalizing a b with
  | nil => exact .cons hab .nil
  | @cons x y xs ys hxy h ih =>
    obtain ⟨hx, hxs'⟩ := List.pairwise_cons.mp hxs
    obtain ⟨hy, hys'⟩ := List.pairwise_cons.mp hys
    -- a value below a sorted list is inserted at its front
    have front : ∀ {c : K} {zs : List K}, (∀ z ∈ zs, c ≤ z) →
        zs.orderedInsert (· ≤ ·) c = c :: zs := by
      intro c zs hc
      cases zs with
      | nil => rfl
      | cons z zs => exact List.orderedInsert_cons_of_le _ zs (hc z List.mem_cons_self)
    by_cases ax : a ≤ x
    · rw [List.orderedInsert_cons_of_le _ xs ax]
      by_cases hb : b ≤ y
      · rw [List.orderedInsert_cons_of_le _ ys hb]
        exact .cons hab (.cons hxy h)
      · rw [List.orderedInsert_of_not_le _ ys hb]
        have rest := ih hxs' hys' (hxy.trans (not_le.mp hb).le)
        rw [front hx] at rest
        exact .cons (ax.trans hxy) rest
    · rw [List.orderedInsert_of_not_le _ xs ax]
      by_cases hb : b ≤ y
      · rw [List.orderedInsert_cons_of_le _ ys hb]
        have rest := ih hxs' hys' (hab.trans hb)
        rw [front hy] at rest
        exact .cons ((not_le.mp ax).le.trans hab) rest
      · rw [List.orderedInsert_of_not_le _ ys hb]
        exact .cons hxy (ih hxs' hys' hab)

theorem sorted_mono {xs ys : List K} (h : List.Forall₂ (· ≤ ·) xs ys) :
    List.Forall₂ (· ≤ ·) (sorted xs) (sorted ys) := by
  induction h with
  | nil => exact .nil
  | @cons x y xs ys hxy h ih =>
    exact orderedInsert_mono ih (List.pairwise_insertionSort _ xs)
      (List.pairwise_insertionSort _ ys) hxy

theorem getD_mono {xs ys : List K} (h : List.Forall₂ (· ≤ ·) xs ys) (n : Nat) (d : K) :
    xs.getD n d ≤ ys.getD n d := by
  induction h generalizing n with
  | nil => exact le_refl d
  | cons hxy h ih =>
    cases n with
    | zero => exact hxy
    | succ n => exact ih n

/-- The values from the position `n` on are at least the one at `n`. -/
theorem le_of_mem_drop_sorted {values : List K} {n : Nat} {d x : K}
    (h : x ∈ (sorted values).drop n) : (sorted values).getD n d ≤ x := by
  have ordered : (sorted values).Pairwise (· ≤ ·) := List.pairwise_insertionSort _ values
  have tail : ((sorted values).drop n).Pairwise (· ≤ ·) := ordered.sublist (List.drop_sublist n _)
  have first : (sorted values).getD n d = ((sorted values).drop n).headD d := by
    rw [List.getD_eq_getElem?_getD, ← List.head?_drop, List.headD_eq_head?_getD]
  rw [first]
  cases htail : (sorted values).drop n with
  | nil =>
    rw [htail] at h
    cases h
  | cons y rest =>
    rw [htail] at h tail
    rcases List.mem_cons.mp h with rfl | h
    · exact le_refl x
    · exact (List.pairwise_cons.mp tail).1 x h

end Sorted

section Shift

variable {K : Type u} [Field K] [LinearOrder K] [IsStrictOrderedRing K]

theorem sorted_map_add (values : List K) (c : K) :
    sorted (values.map (· + c)) = (sorted values).map (· + c) :=
  (List.map_insertionSort (· ≤ ·) (· ≤ ·) (· + c) values
    fun _ _ _ _ => (add_le_add_iff_right c).symm).symm

omit [LinearOrder K] [IsStrictOrderedRing K] in
theorem getD_map_add {values : List K} {n : Nat} (h : n < values.length) (c : K) :
    (values.map (· + c)).getD n 0 = values.getD n 0 + c := by
  have hmap : n < (values.map (· + c)).length := by rwa [List.length_map]
  rw [List.getD_eq_getElem _ _ hmap, List.getD_eq_getElem _ _ h, List.getElem_map]

theorem median_map_add {values : List K} (nonempty : values ≠ []) (c : K) :
    median (values.map (· + c)) = median values + c := by
  have hlength : 0 < values.length := List.length_pos_iff.mpr nonempty
  have middle : values.length / 2 < (sorted values).length := by
    rw [length_sorted]
    omega
  simp only [median, sorted_map_add, List.length_map]
  rw [getD_map_add middle, getD_map_add (by omega)]
  split_ifs
  · rfl
  · ring

theorem median_of_constant {values : List K} (nonempty : values ≠ []) {c : K}
    (h : ∀ x ∈ values, x = c) : median values = c := by
  have hlength : 0 < values.length := List.length_pos_iff.mpr nonempty
  have position : ∀ n < values.length, (sorted values).getD n 0 = c := by
    intro n hn
    have hsorted : n < (sorted values).length := by rwa [length_sorted]
    rw [List.getD_eq_getElem _ _ hsorted]
    exact h _ ((sorted_perm values).mem_iff.mp (List.getElem_mem hsorted))
  simp only [median]
  rw [position (values.length / 2) (by omega), position (values.length / 2 - 1) (by omega),
    add_self_div_two, ite_self]

theorem median_nonneg {values : List K} (h : ∀ x ∈ values, 0 ≤ x) : 0 ≤ median values := by
  have position : ∀ n, 0 ≤ (sorted values).getD n 0 := by
    intro n
    by_cases hn : n < (sorted values).length
    · rw [List.getD_eq_getElem _ _ hn]
      exact h _ ((sorted_perm values).mem_iff.mp (List.getElem_mem hn))
    · rw [List.getD_eq_default _ _ (not_lt.mp hn)]
  simp only [median]
  split_ifs
  · exact position _
  · exact div_nonneg (add_nonneg (position _) (position _)) two_pos.le

end Shift

end Statistics
