import Mathlib.Algebra.BigOperators.Group.List.Basic
import Mathlib.Algebra.BigOperators.Ring.List
import Mathlib.Algebra.Order.BigOperators.Group.List
import Mathlib.Algebra.Order.Field.Basic
import Mathlib.Data.List.Nodup
import Mathlib.Data.List.Perm.Basic
import Mathlib.Tactic.FieldSimp
import Mathlib.Tactic.Linarith
import Mathlib.Tactic.Ring

/-!
# Filling to a level under a cap

A mass is divided among items in proportion to their sizes. An item whose part
exceeds the cap by more than a slack is cut to the cap, and the rest of the
mass goes to the other items in the same way. Whatever the number of rounds,
the outcome is one level at which every item is filled, or every item is at the
cap.
-/

namespace WaterFilling

universe u v
variable {ι : Type u} {K : Type v} [Field K] [LinearOrder K]

def total (raw : List (ι × K)) : K := (raw.map Prod.snd).sum

/-- What an item of a size receives at a level. -/
def fill (cap slack level x : K) : K := if cap + slack < level * x then cap else level * x

/-- The item exceeds the cap at a level. -/
def exceeds (cap slack level : K) (e : ι × K) : Bool := decide (cap + slack < level * e.2)

/-- The outcome of dividing a mass among items. -/
inductive Filled (cap slack mass : K) (raw : List (ι × K)) : List (ι × K) → Prop where
  | level (s : K) (high : mass / total raw ≤ s)
      (exhausted : total (raw.map fun e => (e.1, fill cap slack s e.2)) = mass) :
      Filled cap slack mass raw (raw.map fun e => (e.1, fill cap slack s e.2))
  | full (left : raw.length * cap + slack < mass) :
      Filled cap slack mass raw (raw.map fun e => (e.1, cap))

omit [LinearOrder K] in
@[simp] theorem total_append (xs ys : List (ι × K)) : total (xs ++ ys) = total xs + total ys := by
  simp [total]

omit [LinearOrder K] in
theorem total_perm {xs ys : List (ι × K)} (h : xs.Perm ys) : total xs = total ys :=
  (h.map Prod.snd).sum_eq

omit [LinearOrder K] in
theorem total_scaled (s : K) (raw : List (ι × K)) :
    total (raw.map fun e => (e.1, s * e.2)) = s * total raw := by
  rw [total, total, ← List.sum_map_mul_left, List.map_map]
  rfl

omit [LinearOrder K] in
/-- Equal parts, with something extra for one item. -/
theorem total_raised [DecidableEq ι] {raw : List (ι × K)} (distinct : (raw.map Prod.fst).Nodup)
    {first : ι} (key : first ∈ raw.map Prod.fst) (base extra : K) :
    total (raw.map fun e => (e.1, if e.1 = first then base + extra else base)) =
      raw.length * base + extra := by
  have h := List.sum_map_ite_eq (raw.map Prod.fst) (fun _ => base + extra) (fun _ => base) first
  rw [List.count_eq_one_of_mem distinct key, one_nsmul, List.map_map, List.map_map] at h
  rw [total, List.map_map]
  refine Eq.trans h ?_
  simp [Function.comp_def, add_comm]

variable [IsStrictOrderedRing K] {cap slack mass : K}

theorem fill_le (hslack : 0 ≤ slack) (s x : K) : fill cap slack s x ≤ cap + slack := by
  unfold fill
  split_ifs with h
  · linarith
  · exact not_lt.mp h

theorem fill_le_mul (cap : K) (hslack : 0 ≤ slack) (s x : K) : fill cap slack s x ≤ s * x := by
  unfold fill
  split_ifs with h
  · linarith
  · exact le_refl _

theorem fill_pos (hcap : 0 < cap) {s x : K} (hs : 0 < s) (hx : 0 < x) :
    0 < fill cap slack s x := by
  unfold fill
  split_ifs
  · exact hcap
  · exact mul_pos hs hx

/-- Up to the slack an item is filled to the smaller of the cap and its part. -/
theorem fill_near_min (cap : K) (hslack : 0 ≤ slack) (s x : K) :
    |fill cap slack s x - min cap (s * x)| ≤ slack := by
  unfold fill
  split_ifs with large
  · have above : cap ≤ s * x := by linarith
    rw [min_eq_left above, sub_self, abs_zero]
    exact hslack
  · rcases le_total cap (s * x) with above | below
    · rw [min_eq_left above, abs_of_nonneg (sub_nonneg.mpr above)]
      linarith [not_lt.mp large]
    · rw [min_eq_right below, sub_self, abs_zero]
      exact hslack

/-- Raising an item's product with its level loses at most the slack, where it
passes the cap. -/
theorem fill_le_add (hslack : 0 ≤ slack) {s t x y : K} (h : s * x ≤ t * y) :
    fill cap slack s x ≤ fill cap slack t y + slack := by
  unfold fill
  split_ifs with hx hy hy
  · linarith
  · exact absurd (hx.trans_le h) hy
  · linarith [not_lt.mp hx]
  · linarith

theorem total_pos {raw : List (ι × K)} (nonempty : raw ≠ []) (positive : ∀ e ∈ raw, 0 < e.2) :
    0 < total raw := by
  refine List.sum_pos _ (fun x hx => ?_) (by simpa using nonempty)
  obtain ⟨e, he, rfl⟩ := List.mem_map.mp hx
  exact positive e he

/-- Above the cap at a level, many items hold more than their caps together. -/
theorem length_mul_le_total {s : K} {raw : List (ι × K)}
    (above : ∀ e ∈ raw, cap + slack < s * e.2) :
    raw.length * (cap + slack) ≤ s * total raw := by
  induction raw with
  | nil => simp [total]
  | cons e raw ih =>
    have hraw := ih fun x hx => above x (List.mem_cons_of_mem _ hx)
    have he := above e List.mem_cons_self
    have hsum : total (e :: raw) = e.2 + total raw := List.sum_cons
    rw [hsum, List.length_cons]
    push_cast
    linarith [mul_add s e.2 (total raw)]

omit [IsStrictOrderedRing K] in
/-- No item exceeds the cap: the proportional parts are the outcome. -/
theorem filled_of_none_over {raw : List (ι × K)} (nonempty : total raw ≠ 0)
    (under : ∀ e ∈ raw, exceeds cap slack (mass / total raw) e = false) :
    Filled cap slack mass raw (raw.map fun e => (e.1, mass / total raw * e.2)) := by
  have same : raw.map (fun e => (e.1, mass / total raw * e.2)) =
      raw.map fun e => (e.1, fill cap slack (mass / total raw) e.2) := by
    refine List.map_congr_left fun e he => ?_
    have h := under e he
    simp only [exceeds, decide_eq_false_iff_not] at h
    rw [fill, if_neg h]
  rw [same]
  refine .level _ (le_refl _) ?_
  rw [← same, total_scaled, div_mul_cancel₀ _ nonempty]

/-- Every item exceeds the cap: all are cut and mass is left. -/
theorem filled_of_all_over (hslack : 0 ≤ slack) {raw : List (ι × K)} (nonempty : raw ≠ [])
    (positive : ∀ e ∈ raw, 0 < e.2) (above : ∀ e ∈ raw, exceeds cap slack (mass / total raw) e = true) :
    Filled cap slack mass raw (raw.map fun e => (e.1, cap)) := by
  have hpos := total_pos nonempty positive
  have above' : ∀ e ∈ raw, cap + slack < mass / total raw * e.2 := by
    simpa [exceeds] using above
  refine .full ?_
  cases raw with
  | nil => exact absurd rfl nonempty
  | cons e rest =>
    have hrest := length_mul_le_total fun x hx => above' x (List.mem_cons_of_mem _ hx)
    have he := above' e List.mem_cons_self
    have hmass : mass / total (e :: rest) * total (e :: rest) = mass := div_mul_cancel₀ _ hpos.ne'
    have hsum : total (e :: rest) = e.2 + total rest := List.sum_cons
    have hscaled : mass / total (e :: rest) * e.2 + mass / total (e :: rest) * total rest = mass := by
      rw [← mul_add, ← hsum, hmass]
    have hlen : (0 : K) ≤ rest.length * slack := mul_nonneg (Nat.cast_nonneg _) hslack
    rw [List.length_cons]
    push_cast
    linarith

/-- One round: the items above the cap are cut, and the rest is filled. -/
theorem filled_of_round (hslack : 0 ≤ slack) {raw out : List (ι × K)}
    (positive : ∀ e ∈ raw, 0 < e.2)
    (left : raw.filter (fun e => !exceeds cap slack (mass / total raw) e) ≠ [])
    (rest : Filled cap slack
      (mass - (raw.filter (exceeds cap slack (mass / total raw))).length * cap)
      (raw.filter fun e => !exceeds cap slack (mass / total raw) e) out) :
    ∃ whole, Filled cap slack mass raw whole ∧
      whole.Perm ((raw.filter (exceeds cap slack (mass / total raw))).map (fun e => (e.1, cap)) ++
        out) := by
  set s := mass / total raw with hs
  set high := raw.filter (exceeds cap slack s) with hhigh
  set low := raw.filter fun e => !exceeds cap slack s e with hlow
  have split : (high ++ low).Perm raw := List.filter_append_perm _ raw
  have highOver : ∀ e ∈ high, cap + slack < s * e.2 := by
    intro e he
    simpa [exceeds] using (List.mem_filter.mp he).2
  have positiveIn : ∀ {xs : List (ι × K)}, (∀ e ∈ xs, e ∈ raw) → ∀ e ∈ xs, 0 < e.2 :=
    fun hsub e he => positive e (hsub e he)
  have lowPos : 0 < total low :=
    total_pos left (positiveIn fun e he => (List.mem_filter.mp he).1)
  have rawPos : 0 < total raw := by
    refine total_pos ?_ positive
    rintro rfl
    exact left rfl
  have hmass : s * total high + s * total low = mass := by
    rw [← mul_add, ← total_append, total_perm split, hs, div_mul_cancel₀ _ rawPos.ne']
  have hcut := length_mul_le_total highOver
  have hlen : (0 : K) ≤ high.length * slack := mul_nonneg (Nat.cast_nonneg _) hslack
  have raised : s ≤ (mass - high.length * cap) / total low := by
    rw [le_div_iff₀ lowPos]
    linarith [mul_add (high.length : K) cap slack]
  cases rest with
  | level t higher exhausted =>
    have hst : s ≤ t := raised.trans higher
    have highFill : high.map (fun e => (e.1, fill cap slack t e.2)) =
        high.map fun e => (e.1, cap) := by
      refine List.map_congr_left fun e he => ?_
      have hpos := positive e (List.mem_filter.mp he).1
      have hover := (highOver e he).trans_le (mul_le_mul_of_nonneg_right hst hpos.le)
      rw [fill, if_pos hover]
    have hperm : (raw.map fun e => (e.1, fill cap slack t e.2)).Perm
        (high.map (fun e => (e.1, cap)) ++ low.map fun e => (e.1, fill cap slack t e.2)) := by
      rw [← highFill, ← List.map_append]
      exact split.symm.map _
    refine ⟨_, .level t hst ?_, hperm⟩
    have htotal : total (high.map fun e => (e.1, cap)) = high.length * cap := by
      simp [total, Function.comp_def]
    rw [total_perm hperm, total_append, exhausted, htotal]
    ring
  | full room =>
    refine ⟨raw.map fun e => (e.1, cap), .full ?_, ?_⟩
    · rw [← split.length_eq, List.length_append]
      push_cast
      linarith [add_mul (high.length : K) low.length cap]
    · rw [← List.map_append]
      exact split.symm.map _

section Comparison

/-! ## Comparing two divisions of one mass -/

variable {keys : List ι} {w v : ι → K}

/-- If no other item loses more than the slack, one item gains at most the
slack of all others together. -/
theorem gain_le [DecidableEq ι] (distinct : keys.Nodup)
    (same : (keys.map w).sum = (keys.map v).sum) {i : ι} (hi : i ∈ keys)
    (loss : ∀ j ∈ keys, j ≠ i → w j ≤ v j + slack) :
    v i ≤ w i + (keys.length - 1) * slack := by
  have hperm : keys.Perm (i :: keys.erase i) := List.perm_cons_erase hi
  have hw := (hperm.map w).sum_eq
  have hv := (hperm.map v).sum_eq
  rw [List.map_cons, List.sum_cons] at hw hv
  have rest : ((keys.erase i).map w).sum ≤ ((keys.erase i).map v).sum +
      (keys.erase i).length * slack := by
    calc ((keys.erase i).map w).sum ≤ ((keys.erase i).map fun j => v j + slack).sum := by
          refine List.sum_le_sum fun j hj => ?_
          obtain ⟨hne, hin⟩ := (distinct.mem_erase_iff).mp hj
          exact loss j hin hne
      _ = ((keys.erase i).map v).sum + (keys.erase i).length * slack := by
          rw [List.sum_map_add, List.map_const', List.sum_replicate, nsmul_eq_mul]
  have hlength : (keys.length : K) = (keys.erase i).length + 1 := by
    rw [hperm.length_eq, List.length_cons]
    push_cast
    rfl
  rw [hlength, add_sub_cancel_right]
  linarith

/-- Neither side of a loss bounded by the slack gains or loses more than the
slack of all the other items. -/
theorem shift_bounds [DecidableEq ι] (hslack : 0 ≤ slack) (distinct : keys.Nodup)
    (same : (keys.map w).sum = (keys.map v).sum) {i : ι} (hi : i ∈ keys)
    (bounded : (∀ j ∈ keys, j ≠ i → w j ≤ v j + slack) ∨ ∀ j ∈ keys, v j ≤ w j + slack) :
    v i ≤ w i + (keys.length - 1) * slack ∧
      ∀ j ∈ keys, j ≠ i → w j ≤ v j + (keys.length - 1) * slack := by
  have several : ∀ j ∈ keys, j ≠ i → slack ≤ (keys.length - 1) * slack := by
    intro j hj hne
    have htwo : 2 ≤ keys.length := by
      by_contra hlt
      obtain ⟨x, hx⟩ := List.length_eq_one_iff.mp
        (le_antisymm (by omega) (List.length_pos_of_mem hj) : keys.length = 1)
      rw [hx, List.mem_singleton] at hi hj
      exact hne (hj.trans hi.symm)
    have hcast : (2 : K) ≤ keys.length := by exact_mod_cast htwo
    exact le_mul_of_one_le_left hslack (by linarith)
  rcases bounded with h | h
  · refine ⟨gain_le distinct same hi h, fun j hj hne => ?_⟩
    linarith [h j hj hne, several j hj hne]
  · refine ⟨?_, fun j hj _ => gain_le distinct same.symm hj fun k hk _ => h k hk⟩
    by_cases alone : ∀ j ∈ keys, j = i
    · exact gain_le distinct same hi fun j hj hne => absurd (alone j hj) hne
    · push Not at alone
      obtain ⟨j, hj, hne⟩ := alone
      linarith [h i hi, several j hj hne]

/-- Lowering one size: with a higher level the other items gain up to the
slack, with a lower one all items lose up to it. -/
theorem fill_lowered (cap : K) (hslack : 0 ≤ slack) {s : K} (hs : 0 < s) (t : K) {x y : ι → K}
    (positive : ∀ j ∈ keys, 0 < y j) {i : ι} (lowered : y i ≤ x i)
    (unchanged : ∀ j ∈ keys, j ≠ i → y j = x j) :
    (∀ j ∈ keys, j ≠ i → fill cap slack s (x j) ≤ fill cap slack t (y j) + slack) ∨
      ∀ j ∈ keys, fill cap slack t (y j) ≤ fill cap slack s (x j) + slack := by
  have below : ∀ j ∈ keys, y j ≤ x j := by
    intro j hj
    by_cases h : j = i
    · exact h ▸ lowered
    · exact (unchanged j hj h).le
  rcases le_total s t with hst | hts
  · refine Or.inl fun j hj hne => fill_le_add hslack ?_
    rw [← unchanged j hj hne]
    exact mul_le_mul_of_nonneg_right hst (positive j hj).le
  · refine Or.inr fun j hj => fill_le_add hslack ?_
    calc t * y j ≤ s * y j := mul_le_mul_of_nonneg_right hts (positive j hj).le
      _ ≤ s * x j := mul_le_mul_of_nonneg_left (below j hj) hs.le

end Comparison

end WaterFilling
