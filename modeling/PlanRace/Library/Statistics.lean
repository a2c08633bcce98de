import Mathlib.Algebra.BigOperators.Group.List.Basic
import Mathlib.Algebra.BigOperators.Ring.List
import Mathlib.Algebra.Order.Field.Basic
import Mathlib.Data.List.Sort

/-!
# Means and medians of lists

Mean and median over an ordered field. Neither depends on the order of its
values, and both are homogeneous.
-/

namespace Statistics

section Numerals

/-! The instances of the numerals in use, by name: a definition refers to them and
carries no proof about its numerals. -/

instance atLeastTwo_two : Nat.AtLeastTwo 2 := inferInstance

instance atLeastTwo_three : Nat.AtLeastTwo 3 := inferInstance

instance atLeastTwo_five : Nat.AtLeastTwo 5 := inferInstance

instance atLeastTwo_ten : Nat.AtLeastTwo 10 := inferInstance

instance atLeastTwo_fifteen : Nat.AtLeastTwo 15 := inferInstance

instance atLeastTwo_twenty : Nat.AtLeastTwo 20 := inferInstance

instance atLeastTwo_twentyFive : Nat.AtLeastTwo 25 := inferInstance

instance atLeastTwo_thirty : Nat.AtLeastTwo 30 := inferInstance

instance atLeastTwo_forty : Nat.AtLeastTwo 40 := inferInstance

instance atLeastTwo_sixty : Nat.AtLeastTwo 60 := inferInstance

instance atLeastTwo_hundred : Nat.AtLeastTwo 100 := inferInstance

instance atLeastTwo_hundredTwentyEight : Nat.AtLeastTwo 128 := inferInstance

end Numerals

universe u

section Extremes

variable {K : Type u} [LinearOrder K]

theorem foldl_min_isLeast (first : K) (rest : List K) :
    IsLeast {x | x ∈ first :: rest} (rest.foldl min first) := by
  induction rest generalizing first with
  | nil => simp [IsLeast, lowerBounds]
  | cons x rest ih =>
    obtain ⟨hmem, hle⟩ := ih (min first x)
    rw [List.foldl_cons]
    constructor
    · rcases List.mem_cons.mp hmem with h | h
      · rcases min_choice first x with hm | hm
        · rw [h, hm]
          exact List.mem_cons_self
        · rw [h, hm]
          exact List.mem_cons_of_mem _ List.mem_cons_self
      · exact List.mem_cons_of_mem _ (List.mem_cons_of_mem _ h)
    · have hfirst := hle List.mem_cons_self
      intro y hy
      rcases List.mem_cons.mp hy with rfl | hy
      · exact hfirst.trans (min_le_left _ _)
      · rcases List.mem_cons.mp hy with rfl | hy
        · exact hfirst.trans (min_le_right _ _)
        · exact hle (List.mem_cons_of_mem _ hy)

theorem foldl_max_isGreatest (first : K) (rest : List K) :
    IsGreatest {x | x ∈ first :: rest} (rest.foldl max first) :=
  foldl_min_isLeast (K := Kᵒᵈ) first rest

end Extremes

section Sorted

variable {K : Type u} [LinearOrder K]

def sorted (values : List K) : List K := values.insertionSort (· ≤ ·)

theorem sorted_perm (values : List K) : (sorted values).Perm values :=
  List.perm_insertionSort _ values

@[simp] theorem length_sorted (values : List K) : (sorted values).length = values.length :=
  (sorted_perm values).length_eq

theorem sorted_eq_of_perm {xs ys : List K} (h : xs.Perm ys) : sorted xs = sorted ys := by
  have hperm := ((sorted_perm xs).trans h).trans (sorted_perm ys).symm
  exact hperm.eq_of_pairwise (fun _ _ _ _ hxy hyx => le_antisymm hxy hyx)
    (List.pairwise_insertionSort _ xs) (List.pairwise_insertionSort _ ys)

end Sorted

section Mean

variable {K : Type u} [Field K]

/-- `statistics.fmean`, on a non-empty list. -/
def fmean (values : List K) : K := values.sum / values.length

theorem fmean_eq_of_perm {xs ys : List K} (h : xs.Perm ys) : fmean xs = fmean ys := by
  rw [fmean, fmean, h.sum_eq, h.length_eq]

theorem fmean_map_mul (c : K) (values : List K) : fmean (values.map (c * ·)) = c * fmean values := by
  rw [fmean, fmean, List.sum_map_mul_left, List.length_map, List.map_id', mul_div_assoc]

theorem getD_map_mul (c : K) (values : List K) (n : Nat) :
    (values.map (c * ·)).getD n 0 = c * values.getD n 0 := by
  rw [List.getD_eq_getElem?_getD, List.getD_eq_getElem?_getD, List.getElem?_map]
  cases values[n]? <;> simp

end Mean

section Median

variable {K : Type u} [Field K] [LinearOrder K]

/-- `statistics.median`, on a non-empty list. -/
def median (values : List K) : K :=
  let ordered := sorted values
  if values.length % 2 = 1 then ordered.getD (values.length / 2) 0
  else (ordered.getD (values.length / 2 - 1) 0 + ordered.getD (values.length / 2) 0) / 2

theorem median_eq_of_perm {xs ys : List K} (h : xs.Perm ys) : median xs = median ys := by
  rw [median, median, sorted_eq_of_perm h, h.length_eq]

variable [IsStrictOrderedRing K] {c : K}

theorem sorted_map_mul (hc : 0 < c) (values : List K) :
    sorted (values.map (c * ·)) = (sorted values).map (c * ·) :=
  (List.map_insertionSort (· ≤ ·) (· ≤ ·) (c * ·) values
    fun _ _ _ _ => (mul_le_mul_iff_of_pos_left hc).symm).symm

theorem median_map_mul (hc : 0 < c) (values : List K) :
    median (values.map (c * ·)) = c * median values := by
  simp only [median, sorted_map_mul hc, getD_map_mul, List.length_map]
  split_ifs
  · rfl
  · rw [← mul_add, mul_div_assoc]

end Median

end Statistics
