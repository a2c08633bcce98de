import PlanRace.Library.PairSums
import PlanRace.Allocation

/-!
# Concentration metrics are bounded and scale-free

All four are functions of the shares alone, in any order. The Gini coefficient is
the spread over the pairs of shares, and the squares are counted by pairs as well.
-/

namespace Concentration

open JsonText Statistics ScoringV2 PairSums Allocation

section Shares

variable {K : Type} [Field K] [LinearOrder K]

def spread (shares : List K) : K := pairSum (fun x y => |x - y|) shares

def squares (shares : List K) : K := (shares.map fun x => x * x).sum

/-- The metrics of the shares, in any order. -/
def metricsOf (shares : List K) : ConcentrationMetrics K :=
  ⟨spread shares / shares.length, squares shares, shares.foldl max 0, 1 / squares shares⟩

theorem metricsOf_eq_of_perm {xs ys : List K} (h : xs.Perm ys) : metricsOf xs = metricsOf ys := by
  have top : xs.foldl max 0 = ys.foldl max 0 := h.foldl_eq 0
  rw [metricsOf, metricsOf, spread, spread, squares, squares, h.length_eq, top,
    pairSum_eq_of_perm (fun x y => abs_sub_comm x y) h, (h.map _).sum_eq]

/-- What the spread leaves of its bound, pair by pair. -/
theorem spread_add_slack (shares : List K) :
    spread shares + pairSum (fun x y => x + y - |x - y|) shares =
      (shares.length - 1) * shares.sum := by
  rw [spread, ← pairSum_add, ← pairSum_fst_add_snd]
  exact pairSum_congr fun x _ y _ => by ring

variable [IsStrictOrderedRing K] {shares : List K}

theorem spread_nonneg (shares : List K) : 0 ≤ spread shares :=
  pairSum_nonneg fun x _ y _ => abs_nonneg (x - y)

theorem spread_eq_zero_iff : spread shares = 0 ↔ shares.Pairwise fun x y => x = y := by
  rw [spread, pairSum_eq_zero_iff fun x _ y _ => abs_nonneg (x - y)]
  simp only [abs_eq_zero, sub_eq_zero]

theorem add_sub_abs_nonneg {x y : K} (hx : 0 ≤ x) (hy : 0 ≤ y) : 0 ≤ x + y - |x - y| := by
  rcases abs_cases (x - y) with ⟨h, -⟩ | ⟨h, -⟩ <;> rw [h] <;> linarith

theorem add_sub_abs_eq_zero_iff {x y : K} (hx : 0 ≤ x) (hy : 0 ≤ y) :
    x + y - |x - y| = 0 ↔ x = 0 ∨ y = 0 := by
  constructor
  · intro h
    rcases abs_cases (x - y) with ⟨he, -⟩ | ⟨he, -⟩
    · exact .inr (by linarith)
    · exact .inl (by linarith)
  · rintro (rfl | rfl)
    · rw [zero_sub, abs_neg, abs_of_nonneg hy]
      ring
    · rw [sub_zero, abs_of_nonneg hx]
      ring

theorem spread_le (nonnegative : ∀ x ∈ shares, 0 ≤ x) :
    spread shares ≤ (shares.length - 1) * shares.sum := by
  have slack : 0 ≤ pairSum (fun x y => x + y - |x - y|) shares :=
    pairSum_nonneg fun x hx y hy => add_sub_abs_nonneg (nonnegative x hx) (nonnegative y hy)
  linarith [spread_add_slack shares]

theorem spread_eq_iff (nonnegative : ∀ x ∈ shares, 0 ≤ x) :
    spread shares = (shares.length - 1) * shares.sum ↔
      shares.Pairwise fun x y => x = 0 ∨ y = 0 := by
  have slack := pairSum_eq_zero_iff (f := fun x y => x + y - |x - y|) fun x hx y hy =>
    add_sub_abs_nonneg (nonnegative x hx) (nonnegative y hy)
  have pairs : (shares.Pairwise fun x y => x + y - |x - y| = 0) ↔
      shares.Pairwise fun x y => x = 0 ∨ y = 0 :=
    List.Pairwise.iff_of_mem fun hx hy => add_sub_abs_eq_zero_iff (nonnegative _ hx) (nonnegative _ hy)
  rw [← pairs, ← slack, ← spread_add_slack shares]
  exact left_eq_add

/-- The shares add up to the whole and are not negative. -/
structure IsShares (shares : List K) : Prop where
  nonnegative : ∀ x ∈ shares, 0 ≤ x
  whole : shares.sum = 1

variable (h : IsShares shares)
include h

theorem IsShares.length_pos : (0 : K) < shares.length := by
  have nonempty : shares ≠ [] := by
    rintro rfl
    exact zero_ne_one h.whole
  exact_mod_cast List.length_pos_iff.mpr nonempty

omit [IsStrictOrderedRing K] in
theorem IsShares.length_mul_squares : shares.length * squares shares =
    1 + pairSum (fun x y => (x - y) * (x - y)) shares := by
  rw [squares, length_mul_sum_mul_self, h.whole, one_mul]

theorem IsShares.le_squares : 1 / shares.length ≤ squares shares := by
  rw [div_le_iff₀' h.length_pos, h.length_mul_squares]
  exact le_add_of_nonneg_right (pairSum_nonneg fun x _ y _ => mul_self_nonneg (x - y))

theorem IsShares.squares_eq_iff :
    squares shares = 1 / shares.length ↔ shares.Pairwise fun x y => x = y := by
  rw [eq_div_iff h.length_pos.ne', mul_comm, h.length_mul_squares, add_eq_left,
    pairSum_eq_zero_iff fun x _ y _ => mul_self_nonneg (x - y)]
  simp only [mul_self_eq_zero, sub_eq_zero]

omit [IsStrictOrderedRing K] in
theorem IsShares.squares_add_products :
    squares shares + 2 * pairSum (fun x y => x * y) shares = 1 := by
  rw [squares, sum_mul_self_add_pairSum, h.whole, one_mul]

theorem IsShares.squares_eq_one_iff :
    squares shares = 1 ↔ shares.Pairwise fun x y => x = 0 ∨ y = 0 := by
  have products := pairSum_eq_zero_iff (f := fun x y => x * y) fun x hx y hy =>
    mul_nonneg (h.nonnegative x hx) (h.nonnegative y hy)
  simp only [mul_eq_zero] at products
  rw [← products]
  constructor <;> intro he <;> linarith [h.squares_add_products]

theorem IsShares.squares_le_top : squares shares ≤ shares.foldl max 0 := by
  have terms : squares shares ≤ (shares.map fun x => shares.foldl max 0 * x).sum :=
    List.sum_le_sum fun x hx =>
      mul_le_mul_of_nonneg_right ((foldl_max_isGreatest 0 shares).2 (List.mem_cons_of_mem 0 hx)) (h.nonnegative x hx)
  rwa [List.sum_map_mul_left, List.map_id', h.whole, mul_one] at terms

theorem IsShares.top_le_one : shares.foldl max 0 ≤ 1 := by
  rcases List.mem_cons.mp (foldl_max_isGreatest 0 shares).1 with zero | member
  · exact zero.trans_le zero_le_one
  · exact (List.single_le_sum h.nonnegative _ member).trans_eq h.whole

theorem IsShares.squares_pos : 0 < squares shares :=
  (one_div_pos.mpr h.length_pos).trans_le h.le_squares

theorem IsShares.effective_bounds :
    1 ≤ 1 / squares shares ∧ 1 / squares shares ≤ shares.length := by
  constructor
  · rw [le_div_iff₀ h.squares_pos, one_mul]
    exact h.squares_le_top.trans h.top_le_one
  · rw [div_le_iff₀ h.squares_pos, ← div_le_iff₀' h.length_pos]
    exact h.le_squares

theorem IsShares.effective_eq_iff :
    1 / squares shares = shares.length ↔ squares shares = 1 / shares.length := by
  rw [div_eq_iff h.squares_pos.ne', eq_div_iff h.length_pos.ne', mul_comm, eq_comm]

theorem IsShares.gini_bounds :
    0 ≤ spread shares / shares.length ∧ spread shares / shares.length ≤ 1 - 1 / shares.length := by
  have most := spread_le h.nonnegative
  rw [h.whole, mul_one] at most
  refine ⟨div_nonneg (spread_nonneg shares) h.length_pos.le, ?_⟩
  rw [div_le_iff₀ h.length_pos, sub_mul, one_mul, div_mul_cancel₀ 1 h.length_pos.ne']
  exact most

theorem IsShares.gini_eq_zero_iff :
    spread shares / shares.length = 0 ↔ shares.Pairwise fun x y => x = y := by
  rw [div_eq_zero_iff, or_iff_left h.length_pos.ne', spread_eq_zero_iff]

theorem IsShares.gini_eq_iff :
    spread shares / shares.length = 1 - 1 / shares.length ↔
      shares.Pairwise fun x y => x = 0 ∨ y = 0 := by
  rw [← spread_eq_iff h.nonnegative, h.whole, mul_one, div_eq_iff h.length_pos.ne', sub_mul, one_mul,
    div_mul_cancel₀ 1 h.length_pos.ne']

end Shares

section Weights

variable {K : Type} [Field K] [LinearOrder K]

def total (weights : List (Text × K)) : K := (weights.map Prod.snd).sum

def shares (weights : List (Text × K)) : List K := (weights.map Prod.snd).map (· / total weights)

/-- The map after some weight went from one key to another. -/
def moved (i j : Text) (amount : K) (weights : List (Text × K)) : List (Text × K) :=
  weights.map fun w =>
    (w.1, if w.1 = i then w.2 - amount else if w.1 = j then w.2 + amount else w.2)

def Even (weights : List (Text × K)) : Prop := ∀ v ∈ weights, ∀ w ∈ weights, v.2 = w.2

def Sole (weights : List (Text × K)) : Prop :=
  ∃ holder ∈ weights, ∀ w ∈ weights, w.1 ≠ holder.1 → w.2 = 0

omit [LinearOrder K] in
theorem shares_perm {weights others : List (Text × K)}
    (h : (others.map Prod.snd).Perm (weights.map Prod.snd)) :
    (shares others).Perm (shares weights) := by
  rw [shares, shares, total, total, h.sum_eq]
  exact h.map _

omit [LinearOrder K] in
theorem length_shares (weights : List (Text × K)) : (shares weights).length = weights.length := by
  rw [shares, List.length_map, List.length_map]

variable [IsStrictOrderedRing K] {weights : List (Text × K)}

omit [LinearOrder K] [IsStrictOrderedRing K] in
theorem shares_map_mul {c : K} (hc : c ≠ 0) :
    shares (weights.map fun w => (w.1, c * w.2)) = shares weights := by
  have scaled : (weights.map fun w => (w.1, c * w.2)).map Prod.snd =
      (weights.map Prod.snd).map (c * ·) := by
    rw [List.map_map, List.map_map]
    rfl
  rw [shares, shares, total, total, scaled, List.sum_map_mul_left, List.map_id', List.map_map]
  exact List.map_congr_left fun x _ => mul_div_mul_left x _ hc

theorem isShares (nonnegative : ∀ w ∈ weights, 0 ≤ w.2) (positive : 0 < total weights) :
    IsShares (shares weights) where
  nonnegative := by
    intro x hx
    rw [shares, List.map_map] at hx
    obtain ⟨w, hw, rfl⟩ := List.mem_map.mp hx
    exact div_nonneg (nonnegative w hw) positive.le
  whole := by
    simp only [shares, div_eq_mul_inv, List.sum_map_mul_right, List.map_id']
    exact mul_inv_cancel₀ positive.ne'

theorem concentrationMetrics_eq (nonnegative : ∀ w ∈ weights, 0 ≤ w.2)
    (positive : 0 < total weights) :
    concentrationMetrics weights = .ok (metricsOf (shares weights)) := by
  have valid : (weights.any fun w => decide (w.2 < 0)) = false := by
    rw [List.any_eq_false]
    intro w hw
    simpa using nonnegative w hw
  have sum : (sorted (weights.map Prod.snd)).sum = total weights := (sorted_perm _).sum_eq
  have some : ¬(sorted (weights.map Prod.snd) = [] ∨ total weights = 0) := by
    rintro (none | zero)
    · rw [none] at sum
      exact positive.ne sum
    · exact positive.ne' zero
  have permuted : ((sorted (weights.map Prod.snd)).map (· / total weights)).Perm (shares weights) :=
    (sorted_perm _).map _
  have ordered : ((sorted (weights.map Prod.snd)).map (· / total weights)).Pairwise (· ≤ ·) :=
    List.pairwise_map.mpr ((List.pairwise_insertionSort _ _).imp fun hxy =>
      div_le_div_of_nonneg_right hxy positive.le)
  have nonzero := (isShares nonnegative positive).squares_pos.ne'
  rw [← metricsOf_eq_of_perm permuted]
  rw [squares, ← (permuted.map _).sum_eq] at nonzero
  unfold concentrationMetrics
  dsimp only
  rw [valid, if_neg Bool.false_ne_true, sum, if_neg some, quotient, if_neg nonzero]
  simp only [sub_sub]
  rw [sum_zipIdx_eq_rankSum, Nat.cast_one, rankSum_eq_pairSum ordered]
  rfl

omit [LinearOrder K] [IsStrictOrderedRing K] in
theorem pairwise_shares_iff {R : K → K → Prop} (scaled : ∀ x y, R (x / total weights)
    (y / total weights) ↔ R x y) :
    (shares weights).Pairwise R ↔ weights.Pairwise fun v w => R v.2 w.2 := by
  rw [shares, List.pairwise_map, List.pairwise_map]
  simp only [scaled]

omit [IsStrictOrderedRing K] in
theorem even_iff (positive : 0 < total weights) :
    (shares weights).Pairwise (fun x y => x = y) ↔ Even weights := by
  rw [pairwise_shares_iff fun x y => div_left_inj' positive.ne']
  constructor
  · intro pairs v hv w hw
    have symmetric : Std.Symm fun v w : Text × K => v.2 = w.2 := ⟨fun _ _ => Eq.symm⟩
    exact List.Pairwise.forall_of_forall (R := fun v w : Text × K => v.2 = w.2) (fun _ _ => rfl)
      pairs hv hw
  · intro even
    exact List.pairwise_of_forall_mem_list even

omit [IsStrictOrderedRing K] in
theorem sole_iff (distinct : (weights.map Prod.fst).Nodup) (positive : 0 < total weights) :
    (shares weights).Pairwise (fun x y => x = 0 ∨ y = 0) ↔ Sole weights := by
  rw [pairwise_shares_iff (R := fun x y => x = 0 ∨ y = 0) fun x y => by
    rw [div_eq_zero_iff, div_eq_zero_iff, or_iff_left positive.ne', or_iff_left positive.ne']]
  constructor
  · intro pairs
    obtain ⟨holder, member, held⟩ : ∃ holder ∈ weights, holder.2 ≠ 0 := by
      by_contra none
      push Not at none
      exact positive.ne' (List.sum_eq_zero (List.forall_mem_map.mpr none))
    refine ⟨holder, member, fun w hw other => ?_⟩
    have different : w ≠ holder := fun he => other (congrArg Prod.fst he)
    have symmetric : Std.Symm fun v w : Text × K => v.2 = 0 ∨ w.2 = 0 := ⟨fun _ _ => Or.symm⟩
    exact (pairs.forall hw member different).resolve_right held
  · rintro ⟨holder, -, zeros⟩
    refine List.Nodup.pairwise_of_forall_ne (List.Nodup.of_map _ distinct) fun v hv w hw other => ?_
    by_cases hv' : v.1 = holder.1
    · refine .inr (zeros w hw fun hw' => other ?_)
      exact List.inj_on_of_nodup_map distinct hv hw (hv'.trans hw'.symm)
    · exact .inl (zeros v hv hv')

end Weights

section Transfer

variable {K : Type} [Field K] [LinearOrder K] [IsStrictOrderedRing K] {x y d : K}

/-- Two values that approach each other approach every third one on the whole. -/
theorem abs_sub_add_abs_sub_le (some : 0 ≤ d) (gap : 2 * d ≤ x - y) (r : K) :
    |x - d - r| + |y + d - r| ≤ |x - r| + |y - r| := by
  rcases abs_cases (x - d - r) with ⟨h, -⟩ | ⟨h, -⟩ <;>
    rcases abs_cases (y + d - r) with ⟨h', -⟩ | ⟨h', -⟩ <;> rw [h, h']
  · linarith [le_abs_self (x - r), le_abs_self (y - r)]
  · linarith [le_abs_self (x - r), neg_le_abs (y - r)]
  · linarith [neg_le_abs (x - r), neg_le_abs (y - r), le_abs_self (x - r), le_abs_self (y - r)]
  · linarith [neg_le_abs (x - r), neg_le_abs (y - r)]

theorem spread_transfer (some : 0 ≤ d) (gap : 2 * d ≤ x - y) (rest : List K) :
    spread ((x - d) :: (y + d) :: rest) ≤ spread (x :: y :: rest) := by
  have pair : |x - d - (y + d)| ≤ |x - y| := by
    rw [abs_of_nonneg (by linarith), abs_of_nonneg (by linarith)]
    linarith
  have others : (rest.map fun r => |x - d - r|).sum + (rest.map fun r => |y + d - r|).sum ≤
      (rest.map fun r => |x - r|).sum + (rest.map fun r => |y - r|).sum := by
    rw [← List.sum_map_add, ← List.sum_map_add]
    exact List.sum_le_sum fun r _ => abs_sub_add_abs_sub_le some gap r
  simp only [spread, pairSum, List.map_cons, List.sum_cons]
  linarith

theorem squares_transfer (some : 0 ≤ d) (gap : 2 * d ≤ x - y) (rest : List K) :
    squares ((x - d) :: (y + d) :: rest) ≤ squares (x :: y :: rest) := by
  have product : 0 ≤ d * (x - y - d) := mul_nonneg some (by linarith)
  simp only [squares, List.map_cons, List.sum_cons]
  linarith

variable {weights : List (Text × K)} {i j : Text} {a b : K}

omit [IsStrictOrderedRing K] in
/-- The two entries come first in some order of the map, and the move leaves the others. -/
theorem exists_moved_perm (distinct : (weights.map Prod.fst).Nodup) (hi : (i, a) ∈ weights)
    (hj : (j, b) ∈ weights) (different : i ≠ j) :
    ∃ rest, (weights.map Prod.snd).Perm (a :: b :: rest) ∧
      ((moved i j d weights).map Prod.snd).Perm ((a - d) :: (b + d) :: rest) := by
  have first := List.perm_cons_erase hi
  have hj' : (j, b) ∈ weights.erase (i, a) :=
    (List.mem_erase_of_ne fun he => different (congrArg Prod.fst he).symm).mpr hj
  have second := List.perm_cons_erase hj'
  let rest := (weights.erase (i, a)).erase (j, b)
  have permuted : weights.Perm ((i, a) :: (j, b) :: rest) := first.trans (second.cons _)
  have keys := (permuted.map Prod.fst).nodup_iff.mp distinct
  simp only [List.map_cons, List.nodup_cons, List.mem_cons, not_or] at keys
  obtain ⟨⟨-, noti⟩, notj, -⟩ := keys
  refine ⟨rest.map Prod.snd, permuted.map Prod.snd, ?_⟩
  have unmoved : (moved i j d rest).map Prod.snd = rest.map Prod.snd := by
    rw [moved, List.map_map]
    refine List.map_congr_left fun w hw => ?_
    have fst : w.1 ∈ rest.map Prod.fst := List.mem_map_of_mem hw
    have apart : w.1 ≠ i ∧ w.1 ≠ j := ⟨fun he => noti (he ▸ fst), fun he => notj (he ▸ fst)⟩
    exact (if_neg apart.1).trans (if_neg apart.2)
  rw [← unmoved]
  refine ((permuted.map _).map Prod.snd).trans (List.Perm.of_eq ?_)
  simp only [List.map_cons, moved, if_true, if_neg different.symm]

/-- A move over no more than half of the gap raises neither metric. -/
theorem metrics_moved_le (distinct : (weights.map Prod.fst).Nodup) (positive : 0 < total weights)
    (hi : (i, a) ∈ weights) (hj : (j, b) ∈ weights) (some : 0 ≤ d) (gap : 2 * d ≤ a - b) :
    total (moved i j d weights) = total weights ∧
    (metricsOf (shares (moved i j d weights))).gini ≤ (metricsOf (shares weights)).gini ∧
    (metricsOf (shares (moved i j d weights))).hhi ≤ (metricsOf (shares weights)).hhi := by
  by_cases different : i = j
  · obtain rfl := different
    have same := List.inj_on_of_nodup_map distinct hi hj rfl
    obtain rfl : a = b := congrArg Prod.snd same
    obtain rfl : d = 0 := by linarith
    have unmoved : moved i i 0 weights = weights := by
      rw [moved]
      simp only [sub_zero, add_zero, ite_self, Prod.mk.eta, List.map_id']
    rw [unmoved]
    exact ⟨rfl, le_rfl, le_rfl⟩
  · obtain ⟨rest, before, after⟩ := exists_moved_perm (d := d) distinct hi hj different
    have kept : total (moved i j d weights) = total weights := by
      rw [total, total, before.sum_eq, after.sum_eq]
      simp only [List.sum_cons]
      ring
    have before' := before.map (· / total weights)
    have after' := after.map (· / total weights)
    simp only [List.map_cons, sub_div, add_div] at before' after'
    have some' : 0 ≤ d / total weights := div_nonneg some positive.le
    have gap' : 2 * (d / total weights) ≤ a / total weights - b / total weights := by
      rw [← sub_div, ← mul_div_assoc]
      exact div_le_div_of_nonneg_right gap positive.le
    refine ⟨kept, ?_⟩
    rw [shares, shares, kept, metricsOf_eq_of_perm before', metricsOf_eq_of_perm after']
    exact ⟨div_le_div_of_nonneg_right (spread_transfer some' gap' _) (Nat.cast_nonneg _),
      squares_transfer some' gap' _⟩

end Transfer

section Metrics

variable {K : Type} [Field K] [LinearOrder K]

/-- What is promised of the metrics of a map. -/
structure Bounded (weights : List (Text × K)) (metrics : ConcentrationMetrics K) : Prop where
  gini : 0 ≤ metrics.gini ∧ metrics.gini ≤ 1 - 1 / weights.length
  hhi : 1 / weights.length ≤ metrics.hhi ∧ metrics.hhi ≤ metrics.top1Share ∧ metrics.top1Share ≤ 1
  effective : 1 ≤ metrics.effectiveMiners ∧ metrics.effectiveMiners ≤ weights.length
  scaled : ∀ c, 0 < c →
    concentrationMetrics (weights.map fun w => (w.1, c * w.2)) = .ok metrics
  renamed : ∀ others, (others.map Prod.snd).Perm (weights.map Prod.snd) →
    concentrationMetrics others = .ok metrics
  even : (metrics.gini = 0 ↔ Even weights) ∧ (metrics.hhi = 1 / weights.length ↔ Even weights) ∧
    (metrics.effectiveMiners = weights.length ↔ Even weights)
  sole : (metrics.gini = 1 - 1 / weights.length ↔ Sole weights) ∧ (metrics.hhi = 1 ↔ Sole weights)
  transfer : ∀ i a j b amount, (i, a) ∈ weights → (j, b) ∈ weights → 0 ≤ amount →
    2 * amount ≤ a - b → ∃ metrics', concentrationMetrics (moved i j amount weights) = .ok metrics' ∧
      metrics'.gini ≤ metrics.gini ∧ metrics'.hhi ≤ metrics.hhi

variable [IsStrictOrderedRing K] {weights : List (Text × K)}

theorem moved_nonneg (distinct : (weights.map Prod.fst).Nodup)
    (nonnegative : ∀ w ∈ weights, 0 ≤ w.2) {i j : Text} {a b amount : K} (hi : (i, a) ∈ weights)
    (hj : (j, b) ∈ weights) (some : 0 ≤ amount) (gap : 2 * amount ≤ a - b) :
    ∀ w ∈ moved i j amount weights, 0 ≤ w.2 := by
  intro w hw
  obtain ⟨v, hv, rfl⟩ := List.mem_map.mp hw
  dsimp only
  split_ifs with first second
  · obtain rfl : v = (i, a) := List.inj_on_of_nodup_map distinct hv hi first
    linarith [nonnegative _ hj]
  · linarith [nonnegative _ hv]
  · exact nonnegative v hv

/-- The metrics of a map of some weight are bounded by its size and follow its shares. -/
theorem concentrationMetrics_bounded (distinct : (weights.map Prod.fst).Nodup)
    (nonnegative : ∀ w ∈ weights, 0 ≤ w.2) (positive : 0 < (weights.map Prod.snd).sum) :
    ∃ metrics, concentrationMetrics weights = .ok metrics ∧ Bounded weights metrics := by
  have h := isShares nonnegative positive
  have same : ∀ {others : List (Text × K)}, (∀ w ∈ others, 0 ≤ w.2) → 0 < total others →
      (shares others).Perm (shares weights) →
      concentrationMetrics others = .ok (metricsOf (shares weights)) := by
    intro others nonnegative' positive' permuted
    rw [concentrationMetrics_eq nonnegative' positive', metricsOf_eq_of_perm permuted]
  refine ⟨_, concentrationMetrics_eq nonnegative positive, ?_⟩
  have gini := h.gini_bounds
  have hhi := h.le_squares
  have effective := h.effective_bounds
  have evenly := h.squares_eq_iff
  have solely := h.gini_eq_iff
  have counted := h.effective_eq_iff
  rw [length_shares] at gini hhi effective evenly solely counted
  constructor
  · simpa only [metricsOf, length_shares] using gini
  · exact ⟨hhi, h.squares_le_top, h.top_le_one⟩
  · exact effective
  · intro c hc
    refine same ?_ ?_ (List.Perm.of_eq (shares_map_mul hc.ne'))
    · intro w hw
      obtain ⟨v, hv, rfl⟩ := List.mem_map.mp hw
      exact mul_nonneg hc.le (nonnegative v hv)
    · have sum : total (weights.map fun w => (w.1, c * w.2)) = c * total weights := by
        rw [total, total, ← List.sum_map_mul_left, List.map_map]
        rfl
      rw [sum]
      exact mul_pos hc positive
  · intro others permuted
    refine same ?_ ?_ (shares_perm permuted)
    · intro w hw
      obtain ⟨v, hv, hvw⟩ := List.mem_map.mp (permuted.mem_iff.mp (List.mem_map_of_mem hw))
      exact hvw ▸ nonnegative v hv
    · rw [total, permuted.sum_eq]
      exact positive
  · rw [← even_iff positive]
    refine ⟨?_, evenly, counted.trans evenly⟩
    exact h.gini_eq_zero_iff
  · rw [← sole_iff distinct positive]
    refine ⟨?_, h.squares_eq_one_iff⟩
    simpa only [metricsOf, length_shares] using solely
  · intro i a j b amount hi hj some gap
    obtain ⟨kept, gini', hhi'⟩ := metrics_moved_le distinct positive hi hj some gap
    exact ⟨_, concentrationMetrics_eq (moved_nonneg distinct nonnegative hi hj some gap)
      (kept ▸ positive), gini', hhi'⟩

/-- Three keys, one of them without weight. -/
theorem concentrationMetrics_bounded_three :
    ∃ metrics, concentrationMetrics
        [("a".toList, (3 : ℚ)), ("b".toList, 1), ("c".toList, 0)] = .ok metrics ∧
      Bounded [("a".toList, (3 : ℚ)), ("b".toList, 1), ("c".toList, 0)] metrics := by
  refine concentrationMetrics_bounded (by decide) ?_ (by decide +kernel)
  intro w hw
  simp only [List.mem_cons, List.not_mem_nil, or_false] at hw
  rcases hw with rfl | rfl | rfl <;> norm_num

end Metrics

end Concentration
