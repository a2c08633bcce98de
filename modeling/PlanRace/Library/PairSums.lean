import Mathlib.Algebra.BigOperators.Group.List.Basic
import Mathlib.Algebra.BigOperators.Ring.List
import Mathlib.Algebra.Order.BigOperators.Group.List
import Mathlib.Algebra.Order.Ring.Abs
import Mathlib.Tactic.Abel
import Mathlib.Tactic.LinearCombination
import Mathlib.Tactic.Ring

/-!
# Sums over the pairs of a list

Every two positions are taken once, the earlier one first. Half the spread of a
sorted list is a sum weighted by ranks; the squares follow by Lagrange's identity.
-/

namespace PairSums

universe u v

section Pairs

variable {α : Type u} {M : Type v} [AddCommMonoid M]

def pairSum (f : α → α → M) : List α → M
  | [] => 0
  | x :: xs => (xs.map (f x)).sum + pairSum f xs

theorem pairSum_eq_of_perm {f : α → α → M} (symmetric : ∀ x y, f x y = f y x) {xs ys : List α}
    (h : xs.Perm ys) : pairSum f xs = pairSum f ys := by
  induction h with
  | nil => rfl
  | cons x h ih => rw [pairSum, pairSum, ih, (h.map (f x)).sum_eq]
  | swap x y l =>
    simp only [pairSum, List.map_cons, List.sum_cons]
    rw [symmetric y x]
    abel
  | trans _ _ ih₁ ih₂ => exact ih₁.trans ih₂

theorem pairSum_add (f g : α → α → M) (xs : List α) :
    pairSum (fun x y => f x y + g x y) xs = pairSum f xs + pairSum g xs := by
  induction xs with
  | nil => exact (add_zero 0).symm
  | cons x xs ih =>
    rw [pairSum, pairSum, pairSum, ih, List.sum_map_add]
    abel

theorem pairSum_map {β : Type*} (f : β → β → M) (g : α → β) (xs : List α) :
    pairSum f (xs.map g) = pairSum (fun x y => f (g x) (g y)) xs := by
  induction xs with
  | nil => rfl
  | cons x xs ih =>
    rw [List.map_cons, pairSum, pairSum, ih, List.map_map]
    rfl

theorem pairSum_congr {f g : α → α → M} {xs : List α}
    (h : ∀ x ∈ xs, ∀ y ∈ xs, f x y = g x y) : pairSum f xs = pairSum g xs := by
  induction xs with
  | nil => rfl
  | cons x xs ih =>
    have first : xs.map (f x) = xs.map (g x) := List.map_congr_left fun y hy =>
      h x List.mem_cons_self y (List.mem_cons_of_mem x hy)
    rw [pairSum, pairSum, first, ih fun y hy z hz =>
      h y (List.mem_cons_of_mem x hy) z (List.mem_cons_of_mem x hz)]

end Pairs

section Ordered

variable {α : Type u} {K : Type v} [AddCommMonoid K] [PartialOrder K] [IsOrderedAddMonoid K]
  {f g : α → α → K} {xs : List α}

theorem pairSum_mono (h : ∀ x ∈ xs, ∀ y ∈ xs, f x y ≤ g x y) : pairSum f xs ≤ pairSum g xs := by
  induction xs with
  | nil => exact le_refl 0
  | cons x xs ih =>
    refine add_le_add (List.sum_le_sum fun y hy => ?_) (ih fun y hy z hz => ?_)
    · exact h x List.mem_cons_self y (List.mem_cons_of_mem x hy)
    · exact h y (List.mem_cons_of_mem x hy) z (List.mem_cons_of_mem x hz)

theorem pairSum_nonneg (h : ∀ x ∈ xs, ∀ y ∈ xs, 0 ≤ f x y) : 0 ≤ pairSum f xs := by
  have zero : pairSum (fun _ _ : α => (0 : K)) xs = 0 := by
    induction xs with
    | nil => rfl
    | cons x xs ih =>
      rw [pairSum, ih fun y hy z hz =>
        h y (List.mem_cons_of_mem x hy) z (List.mem_cons_of_mem x hz), List.map_const',
        List.sum_replicate, nsmul_zero, add_zero]
  exact zero.ge.trans (pairSum_mono h)

theorem sum_eq_zero_iff {values : List K} (h : ∀ x ∈ values, 0 ≤ x) :
    values.sum = 0 ↔ ∀ x ∈ values, x = 0 :=
  ⟨fun zero _ hx => List.all_zero_of_le_zero_le_of_sum_eq_zero h zero hx,
    fun zeros => List.sum_eq_zero zeros⟩

/-- Terms that are not negative add up to zero only where every pair's is zero. -/
theorem pairSum_eq_zero_iff (h : ∀ x ∈ xs, ∀ y ∈ xs, 0 ≤ f x y) :
    pairSum f xs = 0 ↔ xs.Pairwise fun x y => f x y = 0 := by
  induction xs with
  | nil => exact iff_of_true rfl List.Pairwise.nil
  | cons x xs ih =>
    have tail : ∀ y ∈ xs, ∀ z ∈ xs, 0 ≤ f y z := fun y hy z hz =>
      h y (List.mem_cons_of_mem x hy) z (List.mem_cons_of_mem x hz)
    have head : ∀ value ∈ xs.map (f x), 0 ≤ value := by
      intro value hvalue
      obtain ⟨y, hy, rfl⟩ := List.mem_map.mp hvalue
      exact h x List.mem_cons_self y (List.mem_cons_of_mem x hy)
    rw [pairSum, List.pairwise_cons,
      add_eq_zero_iff_of_nonneg (List.sum_nonneg head) (pairSum_nonneg tail), ih tail,
      sum_eq_zero_iff head, List.forall_mem_map]

end Ordered

section Ring

variable {K : Type u} [CommRing K]

theorem pairSum_mul_left {α : Type v} (c : K) (f : α → α → K) (xs : List α) :
    pairSum (fun x y => c * f x y) xs = c * pairSum f xs := by
  induction xs with
  | nil => exact (mul_zero c).symm
  | cons x xs ih => rw [pairSum, pairSum, ih, List.sum_map_mul_left, mul_add]

theorem sum_map_const_add (c : K) (xs : List K) :
    (xs.map fun y => c + y).sum = xs.length * c + xs.sum := by
  rw [List.sum_map_add, List.map_id', List.map_const', List.sum_replicate, nsmul_eq_mul]

/-- Every value has a part in all pairs but its own. -/
theorem pairSum_fst_add_snd (xs : List K) :
    pairSum (fun x y => x + y) xs = (xs.length - 1) * xs.sum := by
  induction xs with
  | nil => simp [pairSum]
  | cons x xs ih =>
    rw [pairSum, ih, sum_map_const_add, List.sum_cons, List.length_cons, Nat.cast_succ]
    ring

theorem sum_mul_self_add_pairSum (xs : List K) :
    (xs.map fun x => x * x).sum + 2 * pairSum (fun x y => x * y) xs = xs.sum * xs.sum := by
  induction xs with
  | nil => simp [pairSum]
  | cons x xs ih =>
    rw [pairSum, List.map_cons, List.sum_cons, List.sum_cons, List.sum_map_mul_left, List.map_id']
    linear_combination ih

/-- Lagrange's identity, against a list of ones. -/
theorem length_mul_sum_mul_self (xs : List K) :
    xs.length * (xs.map fun x => x * x).sum =
      xs.sum * xs.sum + pairSum (fun x y => (x - y) * (x - y)) xs := by
  have squares : pairSum (fun x y => (x - y) * (x - y)) xs =
      pairSum (fun x y => x * x + y * y) xs + pairSum (fun x y => (-2) * (x * y)) xs := by
    rw [← pairSum_add]
    exact pairSum_congr fun x _ y _ => by ring
  have parts := pairSum_fst_add_snd (xs.map fun x => x * x)
  rw [pairSum_map, List.length_map] at parts
  rw [squares, pairSum_mul_left, parts]
  linear_combination sum_mul_self_add_pairSum xs

/-- `Σ (2 * index - c) * value`, the indices from `start` on. -/
def rankSum (start c : K) : List K → K
  | [] => 0
  | x :: xs => (2 * start - c) * x + rankSum (start + 1) c xs

theorem rankSum_succ (start c : K) (xs : List K) :
    rankSum (start + 1) (c + 1) xs = rankSum start c xs + xs.sum := by
  induction xs generalizing start with
  | nil => exact (add_zero 0).symm
  | cons x xs ih =>
    rw [rankSum, rankSum, ih, List.sum_cons]
    ring

theorem sum_zipIdx_eq_rankSum (c : K) (start : Nat) (xs : List K) :
    ((xs.zipIdx start).map fun v => (2 * (v.2 : K) - c) * v.1).sum = rankSum (start : K) c xs := by
  induction xs generalizing start with
  | nil => rfl
  | cons x xs ih =>
    rw [List.zipIdx_cons, List.map_cons, List.sum_cons, rankSum, ih, Nat.cast_succ]

variable [LinearOrder K] [IsStrictOrderedRing K]

theorem sum_map_sub {x : K} {xs : List K} (h : ∀ y ∈ xs, x ≤ y) :
    (xs.map fun y => |x - y|).sum = xs.sum - xs.length * x := by
  have terms : (xs.map fun y => |x - y|) = xs.map fun y => -x + y := by
    refine List.map_congr_left fun y hy => ?_
    rw [abs_sub_comm, abs_of_nonneg (sub_nonneg.mpr (h y hy))]
    ring
  rw [terms, sum_map_const_add]
  ring

/-- Ranks around their middle weigh a sorted list as its pairs do. -/
theorem rankSum_eq_pairSum {xs : List K} (ordered : xs.Pairwise (· ≤ ·)) :
    rankSum 1 ((xs.length : K) + 1) xs = pairSum (fun x y => |x - y|) xs := by
  induction ordered with
  | nil => rfl
  | @cons x xs least _ ih =>
    rw [rankSum, pairSum, sum_map_sub least, List.length_cons, Nat.cast_succ, rankSum_succ, ih]
    ring

end Ring

end PairSums
