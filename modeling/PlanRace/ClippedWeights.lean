import PlanRace.WeightConformity
import PlanRace.Library.CutLevels

/-!
# Clipping to the maximum weight

The cutoff of `_clip_to_max_weight` counts the sorted weights whose share of
what a cut at them leaves stays under the limit. These are the smallest weights,
there is at least one of them, and the scale lies below all others.
-/

namespace WeightConformity

open JsonText PythonObjects Statistics Fallible CutLevels

section Cutoff

variable {K : Type} [Field K] [LinearOrder K]

omit [LinearOrder K] in
theorem length_runningSums (running : K) (values : List K) :
    (runningSums running values).length = values.length := by
  induction values generalizing running with
  | nil => rfl
  | cons value rest ih => rw [runningSums, List.length_cons, ih, List.length_cons]

omit [LinearOrder K] in
theorem getElem?_runningSums {values : List K} {i : Nat} (h : i < values.length) (running : K) :
    (runningSums running values)[i]? = some (running + (values.take (i + 1)).sum) := by
  induction values generalizing running i with
  | nil => cases h
  | cons value rest ih =>
    cases i with
    | zero => simp [runningSums]
    | succ i =>
      rw [runningSums, List.getElem?_cons_succ, ih (Nat.lt_of_succ_lt_succ h), List.take_succ_cons,
        List.sum_cons, rounded_exact, add_assoc]

omit [LinearOrder K] in
/-- The running sum that belongs to the last of the first values. -/
theorem item_runningSums {values : List K} {count : Nat} (some : 1 ≤ count)
    (h : count ≤ values.length) :
    item (runningSums 0 values) ((count : Int) - 1) = .ok (values.take count).sum := by
  have index : (((count : Int) - 1)).toNat = count - 1 := by omega
  have place : count - 1 < values.length := by omega
  have found := getElem?_runningSums place 0
  rw [Nat.sub_add_cancel some, zero_add] at found
  rw [item, if_neg (by omega), index, found]
  dsimp only
  rw [if_neg (by rw [length_runningSums]; omega)]

variable [IsStrictOrderedRing K]

theorem epsilon_pos : (0 : K) < epsilon := by
  rw [epsilon, rounded_exact]
  positivity

/-- No share of the cutoff test is divided by zero. -/
theorem cutoffDivisor_pos {ordered : List K} (positive : ∀ x ∈ ordered, 0 < x) :
    ∀ entry ∈ (ordered.zip (runningSums 0 ordered)).zipIdx,
      0 < cutoffDivisor ordered.length entry := by
  rintro ⟨⟨x, running⟩, i⟩ hentry
  obtain ⟨hx, hrunning⟩ :=
    List.getElem?_zip_eq_some.mp (List.mk_mem_zipIdx_iff_getElem?.mp hentry)
  obtain ⟨place, -⟩ := List.getElem?_eq_some_iff.mp hx
  rw [getElem?_runningSums place, zero_add] at hrunning
  obtain rfl := Option.some.inj hrunning
  have above : 0 ≤ (ordered.length : K) - i - 1 := by
    have count : ((i + 1 : Nat) : K) ≤ ordered.length := Nat.cast_le.mpr place
    push_cast at count
    linarith
  have larger := mul_nonneg above (positive x (List.mem_of_getElem? hx)).le
  have smaller : 0 ≤ (ordered.take (i + 1)).sum := List.sum_nonneg fun y hy =>
    (positive y (List.mem_of_mem_take hy)).le
  exact add_pos_of_nonneg_of_pos (add_nonneg larger smaller) epsilon_pos

/-- Along a sorted vector each share is the weight's part of what is left of the
vector when it is cut at that weight. -/
theorem mapM_cutoffShare {before rest : List K} (ordered : (before ++ rest).Pairwise (· ≤ ·))
    (positive : ∀ x ∈ before ++ rest, 0 < x) :
    ((rest.zip (runningSums before.sum rest)).zipIdx before.length).mapM
        (cutoffShare (before ++ rest).length) =
      .ok (rest.map fun x => x / (cutTotal x (before ++ rest) + epsilon)) := by
  induction rest generalizing before with
  | nil => rfl
  | cons x rest ih =>
    have split : before ++ x :: rest = (before ++ [x]) ++ rest := by simp
    have tail := @ih (before ++ [x]) (split ▸ ordered) (split ▸ positive)
    have running : (before ++ [x]).sum = before.sum + x := by simp
    have place : (before ++ [x]).length = before.length + 1 := by simp
    rw [← split, running, place] at tail
    have left := cutTotal_of_sorted ordered
    have hx : 0 < x := positive x (by simp)
    have total : 0 < cutTotal x (before ++ x :: rest) := cutTotal_pos hx (by simp) positive
    have first : cutoffShare (before ++ x :: rest).length ((x, before.sum + x), before.length) =
        .ok (x / (cutTotal x (before ++ x :: rest) + epsilon)) := by
      have count : (((before ++ x :: rest).length : Nat) : K) - before.length - 1 = rest.length := by
        rw [List.length_append, List.length_cons]
        push_cast
        ring
      rw [cutoffShare, cutoffDivisor, rounded_exact, rounded_exact, rounded_exact, divide_ok_iff,
        count, left]
      refine ⟨?_, rfl⟩
      rw [← left]
      exact (add_pos total epsilon_pos).ne'
    rw [runningSums, List.zip_cons_cons, List.zipIdx_cons, List.mapM_cons, rounded_exact, first, tail]
    rfl

/-- The weight stays under the limit when the vector is cut at it. -/
def belowCutoff (normalized : List K) (limit x : K) : Bool :=
  decide (x < limit * (cutTotal x normalized + epsilon))

/-- The weights that the cutoff test counts. -/
def keptWeights (normalized : List K) (limit : K) : List K :=
  normalized.filter (belowCutoff normalized limit)

/-- The weights that are cut. -/
def cutWeights (normalized : List K) (limit : K) : List K :=
  normalized.filter fun x => !belowCutoff normalized limit x

variable {normalized : List K} {limit : K}

theorem belowCutoff_of_le (positive : ∀ x ∈ normalized, 0 < x) (hlimit : 0 ≤ limit) {x y : K}
    (hx : 0 < x) (hxy : x ≤ y) (h : belowCutoff normalized limit y = true) :
    belowCutoff normalized limit x = true := by
  rw [belowCutoff, decide_eq_true_eq] at h ⊢
  exact under_of_le hlimit epsilon_pos.le (fun v hv => (positive v hv).le) hx hxy h

/-- What the cutoff test computes on positive weights. -/
theorem shares_of_positive (positive : ∀ x ∈ normalized, 0 < x) :
    (((sorted normalized).zip (runningSums 0 (sorted normalized))).zipIdx).mapM
        (cutoffShare normalized.length) =
      .ok ((sorted normalized).map fun x => x / (cutTotal x normalized + epsilon)) := by
  have same : (sorted normalized).Perm normalized := List.perm_insertionSort _ normalized
  have ordered : (sorted normalized).Pairwise (· ≤ ·) := List.pairwise_insertionSort _ normalized
  have shares := @mapM_cutoffShare K _ _ _ [] (sorted normalized) ordered
    fun x hx => positive x (same.mem_iff.mp hx)
  rw [List.nil_append, same.length_eq] at shares
  rw [List.sum_nil, List.length_nil] at shares
  rw [shares]
  exact congrArg Except.ok (List.map_congr_left fun x _ => by rw [cutTotal_perm x same])

theorem countP_shares (positive : ∀ x ∈ normalized, 0 < x) :
    ((sorted normalized).map fun x => x / (cutTotal x normalized + epsilon)).countP
        (fun share => share < limit) =
      (sorted normalized).countP (belowCutoff normalized limit) := by
  have same : (sorted normalized).Perm normalized := List.perm_insertionSort _ normalized
  rw [List.countP_map]
  refine List.countP_congr fun x hx => ?_
  have hin := same.mem_iff.mp hx
  have total : 0 < cutTotal x normalized + epsilon :=
    add_pos (cutTotal_pos (positive x hin) (List.ne_nil_of_mem hin) positive) epsilon_pos
  simp only [Function.comp_apply, belowCutoff, decide_eq_true_eq, div_lt_iff₀ total]

variable (normalized limit) in
/-- The scale, as a formula in the weights that are kept and cut. -/
def scaleOf : K :=
  (limit * (keptWeights normalized limit).sum - epsilon) /
    (1 - limit * (cutWeights normalized limit).length)

omit [IsStrictOrderedRing K] in
theorem kept_append_cut (normalized : List K) (limit : K) :
    (keptWeights normalized limit ++ cutWeights normalized limit).Perm normalized :=
  List.filter_append_perm (belowCutoff normalized limit) normalized

theorem kept_le_cut (positive : ∀ x ∈ normalized, 0 < x) (hlimit : 0 ≤ limit) {x y : K}
    (hx : x ∈ keptWeights normalized limit) (hy : y ∈ cutWeights normalized limit) : x ≤ y := by
  obtain ⟨hin, kept⟩ := List.mem_filter.mp hx
  obtain ⟨hin', cut⟩ := List.mem_filter.mp hy
  by_contra above
  have below := belowCutoff_of_le positive hlimit (positive y hin') (not_le.mp above).le kept
  simp [below] at cut

/-- The smallest weight is kept when the limit leaves room for all. -/
theorem keptWeights_ne_nil (positive : ∀ x ∈ normalized, 0 < x)
    (room : 1 < normalized.length * limit) : keptWeights normalized limit ≠ [] := by
  have same : (sorted normalized).Perm normalized := List.perm_insertionSort _ normalized
  have ordered : (sorted normalized).Pairwise (· ≤ ·) := List.pairwise_insertionSort _ normalized
  cases hsorted : sorted normalized with
  | nil =>
    have count := same.length_eq
    rw [hsorted, List.length_nil] at count
    rw [← count, Nat.cast_zero, zero_mul] at room
    exact absurd room (not_lt.mpr zero_le_one)
  | cons x rest =>
    rw [hsorted] at same ordered
    have hin : x ∈ normalized := same.mem_iff.mp List.mem_cons_self
    have least : ∀ y ∈ normalized, x ≤ y := by
      intro y hy
      rcases List.mem_cons.mp (same.mem_iff.mpr hy) with rfl | hrest
      · exact le_refl y
      · exact (List.pairwise_cons.mp ordered).1 y hrest
    have hx := positive x hin
    have below : belowCutoff normalized limit x = true := by
      rw [belowCutoff, decide_eq_true_eq, cutTotal_of_ge least]
      have slack : 0 < limit * epsilon := by
        refine mul_pos ?_ epsilon_pos
        by_contra negative
        have none := mul_nonpos_of_nonneg_of_nonpos (Nat.cast_nonneg normalized.length)
          (not_lt.mp negative)
        linarith
      have scaled : 1 * x < normalized.length * limit * x := mul_lt_mul_of_pos_right room hx
      linarith
    exact List.ne_nil_of_mem (List.mem_filter.mpr ⟨hin, below⟩)

/-- What the failed test of the smallest cut weight says. -/
theorem smallest_cut (positive : ∀ x ∈ normalized, 0 < x) (hlimit : 0 ≤ limit)
    (some : cutWeights normalized limit ≠ []) :
    ∃ h ∈ cutWeights normalized limit, (∀ y ∈ cutWeights normalized limit, h ≤ y) ∧
      limit * ((keptWeights normalized limit).sum + epsilon) ≤
        h * (1 - limit * (cutWeights normalized limit).length) := by
  obtain ⟨h, hmin⟩ : ∃ h, IsLeast {x | x ∈ cutWeights normalized limit} h := by
    cases hcut : cutWeights normalized limit with
    | nil => exact absurd hcut some
    | cons first rest => exact ⟨_, foldl_min_isLeast first rest⟩
  refine ⟨h, hmin.1, fun y hy => hmin.2 hy, ?_⟩
  have cut := (List.mem_filter.mp hmin.1).2
  have left : cutTotal h normalized =
      (keptWeights normalized limit).sum + (cutWeights normalized limit).length * h := by
    rw [← cutTotal_perm h (kept_append_cut normalized limit), cutTotal_append,
      cutTotal_of_le fun x hx => kept_le_cut positive hlimit hx hmin.1,
      cutTotal_of_ge fun y hy => hmin.2 hy]
  rw [belowCutoff, left, Bool.not_eq_true', decide_eq_false_iff_not, not_lt] at cut
  linarith

theorem sum_kept_nonneg (positive : ∀ x ∈ normalized, 0 < x) :
    0 ≤ (keptWeights normalized limit).sum :=
  List.sum_nonneg fun x hx => (positive x (List.mem_of_mem_filter hx)).le

theorem denominator_pos (positive : ∀ x ∈ normalized, 0 < x) (hlimit : 0 < limit) :
    0 < 1 - limit * (cutWeights normalized limit).length := by
  by_cases some : cutWeights normalized limit = []
  · rw [some, List.length_nil, Nat.cast_zero, mul_zero, sub_zero]
    exact one_pos
  · obtain ⟨h, hin, -, bound⟩ := smallest_cut positive hlimit.le some
    have hpos : 0 < h := positive h (List.mem_of_mem_filter hin)
    have left : 0 < limit * ((keptWeights normalized limit).sum + epsilon) :=
      mul_pos hlimit (add_pos_of_nonneg_of_pos (sum_kept_nonneg positive) epsilon_pos)
    exact pos_of_mul_pos_right (left.trans_le bound) hpos.le

theorem scaleOf_mul (positive : ∀ x ∈ normalized, 0 < x) (hlimit : 0 < limit) :
    scaleOf normalized limit * (1 - limit * (cutWeights normalized limit).length) =
      limit * (keptWeights normalized limit).sum - epsilon :=
  div_mul_cancel₀ _ (denominator_pos positive hlimit).ne'

/-- The scale lies below every weight that is cut. -/
theorem scaleOf_lt_cut (positive : ∀ x ∈ normalized, 0 < x) (hlimit : 0 < limit) {y : K}
    (hy : y ∈ cutWeights normalized limit) : scaleOf normalized limit < y := by
  obtain ⟨h, -, least, bound⟩ := smallest_cut positive hlimit.le (List.ne_nil_of_mem hy)
  have product := scaleOf_mul positive hlimit
  have slack : 0 < limit * epsilon := mul_pos hlimit epsilon_pos
  have less : scaleOf normalized limit * (1 - limit * (cutWeights normalized limit).length) <
      h * (1 - limit * (cutWeights normalized limit).length) := by
    rw [product]
    linarith [epsilon_pos (K := K)]
  exact (lt_of_mul_lt_mul_right less (denominator_pos positive hlimit).le).trans_le (least y hy)

/-- A positive scale itself stays under the limit when the vector is cut at it. -/
theorem scaleOf_under (positive : ∀ x ∈ normalized, 0 < x) (hlimit : 0 < limit)
    (hscale : 0 < scaleOf normalized limit) :
    scaleOf normalized limit <
      limit * (cutTotal (scaleOf normalized limit) normalized + epsilon) := by
  by_cases above : ∃ x ∈ keptWeights normalized limit, scaleOf normalized limit < x
  · obtain ⟨x, hx, less⟩ := above
    have kept := (List.mem_filter.mp hx).2
    exact of_decide_eq_true (belowCutoff_of_le positive hlimit.le hscale less.le kept)
  · push Not at above
    have left : cutTotal (scaleOf normalized limit) normalized =
        (keptWeights normalized limit).sum +
          (cutWeights normalized limit).length * scaleOf normalized limit := by
      rw [← cutTotal_perm _ (kept_append_cut normalized limit), cutTotal_append, cutTotal_of_le above,
        cutTotal_of_ge fun y hy => (scaleOf_lt_cut positive hlimit hy).le]
    have product := scaleOf_mul positive hlimit
    have slack : 0 < limit * epsilon := mul_pos hlimit epsilon_pos
    rw [left]
    linarith [epsilon_pos (K := K)]

/-- The index that the cutoff reads lies in the vector, and its divisor is positive. -/
theorem cutoffScale_eq (positive : ∀ x ∈ normalized, 0 < x) (room : 1 < normalized.length * limit)
    (hlimit : 0 < limit) : cutoffScale normalized limit = .ok (scaleOf normalized limit) := by
  have same : (sorted normalized).Perm normalized := List.perm_insertionSort _ normalized
  have ordered : (sorted normalized).Pairwise (· ≤ ·) := List.pairwise_insertionSort _ normalized
  have kept : (keptWeights normalized limit).length =
      (sorted normalized).countP (belowCutoff normalized limit) := by
    rw [same.countP_eq, keptWeights, List.countP_eq_length_filter]
  have some : 1 ≤ (sorted normalized).countP (belowCutoff normalized limit) := by
    rw [← kept]
    exact List.length_pos_iff.mpr (keptWeights_ne_nil positive room)
  have last : ((sorted normalized).take
      ((sorted normalized).countP (belowCutoff normalized limit))).sum =
        (keptWeights normalized limit).sum := by
    rw [take_countP_of_sorted ordered fun x hx y _ hxy =>
      belowCutoff_of_le positive hlimit.le (positive x (same.mem_iff.mp hx)) hxy]
    exact (same.filter _).sum_eq
  have cut : (normalized.length : K) - (sorted normalized).countP (belowCutoff normalized limit) =
      (cutWeights normalized limit).length := by
    have both := (kept_append_cut normalized limit).length_eq
    rw [List.length_append, kept] at both
    rw [← both]
    push_cast
    ring
  rw [cutoffScale, shares_of_positive positive]
  change (item (runningSums 0 (sorted normalized)) _ >>= _) = _
  rw [countP_shares positive, item_runningSums some List.countP_le_length, last]
  change divide _ (1 - limit * ((normalized.length : K) - _)) = _
  rw [cut, divide, if_neg (denominator_pos positive hlimit).ne', rounded_exact, rounded_exact,
    rounded_exact, scaleOf]

end Cutoff

section Clip

variable {K : Type} [Field K] [LinearOrder K] [IsStrictOrderedRing K]

def normalizedWeights (weights : List K) : List K := weights.map (· / weights.sum)

def shareLimit (rawLimit : Int) : K := rawLimit / u16Max

/-- The cutoff is computed. -/
def CutsOff (weights : List K) (rawLimit : Int) : Prop :=
  rawLimit ≠ u16Max ∧ shareLimit rawLimit < maximum (normalizedWeights weights) ∧
    1 < weights.length * shareLimit (K := K) rawLimit

/-- The cutoff test divides by positive numbers and counts some weights, and the
scale has a positive divisor. -/
structure SafeCutoff (normalized : List K) (limit : K) (shares : List K) : Prop where
  divisors : ∀ entry ∈ ((sorted normalized).zip (runningSums 0 (sorted normalized))).zipIdx,
    0 < cutoffDivisor normalized.length entry
  computed : (((sorted normalized).zip (runningSums 0 (sorted normalized))).zipIdx).mapM
    (cutoffShare normalized.length) = .ok shares
  counted : 1 ≤ shares.countP fun share => share < limit
  index : shares.countP (fun share => share < limit) ≤ (runningSums 0 (sorted normalized)).length
  divisor : 0 < 1 - limit * (normalized.length - shares.countP fun share => share < limit)

/-- A vector of positive shares in the order of the weights. -/
structure SafelyClipped (weights shares : List K) : Prop where
  length : shares.length = weights.length
  sum : shares.sum = 1
  positive : ∀ share ∈ shares, 0 < share
  ordered : ∀ a ∈ weights.zip shares, ∀ b ∈ weights.zip shares, a.1 ≤ b.1 → a.2 ≤ b.2

omit [IsStrictOrderedRing K] in
theorem safelyClipped_map {weights : List K} {share : K → K} (sum : (weights.map share).sum = 1)
    (positive : ∀ w ∈ weights, 0 < share w)
    (ordered : ∀ v ∈ weights, ∀ w ∈ weights, v ≤ w → share v ≤ share w) :
    SafelyClipped weights (weights.map share) := by
  refine ⟨List.length_map _, sum, ?_, ?_⟩
  · intro x hx
    obtain ⟨w, hw, rfl⟩ := List.mem_map.mp hx
    exact positive w hw
  · intro a ha b hb hab
    rw [← List.map_prod_left_eq_zip] at ha hb
    obtain ⟨v, hv, rfl⟩ := List.mem_map.mp ha
    obtain ⟨w, hw, rfl⟩ := List.mem_map.mp hb
    exact ordered v hv w hw hab

variable {weights : List K} {rawLimit : Int}

theorem weights_sum_pos (nonempty : weights ≠ []) (positive : ∀ w ∈ weights, 0 < w) :
    0 < weights.sum :=
  List.sum_pos weights positive nonempty

theorem normalizedWeights_pos (positive : ∀ w ∈ weights, 0 < w) :
    ∀ x ∈ normalizedWeights weights, 0 < x := by
  intro x hx
  obtain ⟨w, hw, rfl⟩ := List.mem_map.mp hx
  exact div_pos (positive w hw) (weights_sum_pos (List.ne_nil_of_mem hw) positive)

theorem safeCutoff_of_positive {normalized : List K} {limit : K}
    (positive : ∀ x ∈ normalized, 0 < x) (room : 1 < normalized.length * limit)
    (hlimit : 0 < limit) : ∃ shares, SafeCutoff normalized limit shares := by
  have same : (sorted normalized).Perm normalized := List.perm_insertionSort _ normalized
  have kept : (sorted normalized).countP (belowCutoff normalized limit) =
      (keptWeights normalized limit).length := by
    rw [same.countP_eq, keptWeights, List.countP_eq_length_filter]
  have divisors := cutoffDivisor_pos fun x hx => positive x (same.mem_iff.mp hx)
  rw [same.length_eq] at divisors
  refine ⟨_, divisors, shares_of_positive positive, ?_, ?_, ?_⟩
  · rw [countP_shares positive, kept]
    exact List.length_pos_iff.mpr (keptWeights_ne_nil positive room)
  · rw [countP_shares positive, length_runningSums]
    exact List.countP_le_length
  · have both := (kept_append_cut normalized limit).length_eq
    have cut : (normalized.length : K) - (keptWeights normalized limit).length =
        (cutWeights normalized limit).length := by
      rw [← both, List.length_append]
      push_cast
      ring
    rw [countP_shares positive, kept, cut]
    exact denominator_pos positive hlimit

omit [IsStrictOrderedRing K] in
theorem clippedShares_eq (weights : List K) (rawLimit : Int) :
    clippedShares weights rawLimit =
      if rawLimit = u16Max ∨ maximum (normalizedWeights weights) ≤ shareLimit rawLimit then
        .ok (normalizedWeights weights, false)
      else if (normalizedWeights weights).length * shareLimit (K := K) rawLimit ≤ 1 then
        .ok (List.replicate (normalizedWeights weights).length
          (1 / (normalizedWeights weights).length), true)
      else do
        let scale ← cutoffScale (normalizedWeights weights) (shareLimit rawLimit)
        let shares ← (weights.map fun w => min w (scale * weights.sum)).mapM fun w =>
          divide w (weights.map fun w => min w (scale * weights.sum)).sum
        return (shares, true) := rfl

/-- What the clipped weights are divided by. -/
theorem sum_map_min (nonempty : weights ≠ []) (positive : ∀ w ∈ weights, 0 < w) (scale : K) :
    (weights.map fun w => min w (scale * weights.sum)).sum =
      weights.sum * cutTotal scale (normalizedWeights weights) := by
  have total := weights_sum_pos nonempty positive
  rw [cutTotal, normalizedWeights, List.map_map, ← List.sum_map_mul_left]
  refine congrArg List.sum (List.map_congr_left fun w _ => ?_)
  rw [Function.comp_apply, mul_min_of_nonneg _ _ total.le, mul_div_cancel₀ w total.ne',
    mul_comm scale]

theorem clipped_share (nonempty : weights ≠ []) (positive : ∀ w ∈ weights, 0 < w) (scale w : K) :
    min w (scale * weights.sum) / (weights.sum * cutTotal scale (normalizedWeights weights)) =
      min (w / weights.sum) scale / cutTotal scale (normalizedWeights weights) := by
  have total := weights_sum_pos nonempty positive
  rw [← div_div, ← min_div_div_right total.le, mul_div_cancel_right₀ scale total.ne']

/-- The share of a weight after a cut at a scale. -/
def cutShare (weights : List K) (scale w : K) : K :=
  min (w / weights.sum) scale / cutTotal scale (normalizedWeights weights)

theorem clippedShares_of_cut (nonempty : weights ≠ []) (positive : ∀ w ∈ weights, 0 < w)
    (hlimit : (0 : K) < shareLimit rawLimit) (cuts : CutsOff weights rawLimit) {scale : K}
    (hscale : scale = scaleOf (normalizedWeights weights) (shareLimit rawLimit)) :
    clippedShares weights rawLimit =
      if cutTotal scale (normalizedWeights weights) = 0 then .error .zeroDivisionError
      else .ok (weights.map (cutShare weights scale), true) := by
  obtain ⟨raw, above, room⟩ := cuts
  have total := weights_sum_pos nonempty positive
  have count : (normalizedWeights weights).length = weights.length := List.length_map _
  have computed := cutoffScale_eq (normalizedWeights_pos positive) (by rwa [count]) hlimit
  have whole : ¬ (rawLimit = u16Max ∨ maximum (normalizedWeights weights) ≤ shareLimit rawLimit) :=
    fun h => h.elim raw (not_le.mpr above)
  have flat : ¬ (normalizedWeights weights).length * shareLimit (K := K) rawLimit ≤ 1 := by
    rw [count]
    exact not_le.mpr room
  have cut : clippedShares weights rawLimit = (do
      let shares ← (weights.map fun w => min w (scale * weights.sum)).mapM fun w =>
        divide w (weights.map fun w => min w (scale * weights.sum)).sum
      return (shares, true)) := by
    rw [clippedShares_eq, if_neg whole, if_neg flat, computed, hscale]
    rfl
  rw [cut, sum_map_min nonempty positive]
  by_cases left : cutTotal scale (normalizedWeights weights) = 0
  · rw [if_pos left, left, mul_zero]
    cases weights with
    | nil => exact absurd rfl nonempty
    | cons first rest =>
      rw [List.map_cons, List.mapM_cons, divide, if_pos rfl]
      rfl
  · have nonzero := mul_ne_zero total.ne' left
    rw [if_neg left, mapM_eq_map fun w _ => divide_ok_iff.mpr ⟨nonzero, rfl⟩, List.map_map]
    refine congrArg (fun shares => Except.ok (shares, true)) (List.map_congr_left fun w _ => ?_)
    exact clipped_share nonempty positive scale w

omit [IsStrictOrderedRing K] in
theorem sum_cutShare {scale : K} (left : cutTotal scale (normalizedWeights weights) ≠ 0) :
    (weights.map (cutShare weights scale)).sum = 1 := by
  have split : weights.map (cutShare weights scale) =
      ((normalizedWeights weights).map (min · scale)).map
        (· / cutTotal scale (normalizedWeights weights)) := by
    rw [normalizedWeights, List.map_map, List.map_map]
    rfl
  rw [split, sum_map_div, ← cutTotal, div_self left]

/-- A positive scale gives positive shares in the order of the weights. -/
theorem safelyClipped_of_scale_pos (nonempty : weights ≠ []) (positive : ∀ w ∈ weights, 0 < w)
    {scale : K} (hscale : 0 < scale) :
    SafelyClipped weights (weights.map (cutShare weights scale)) := by
  have total := weights_sum_pos nonempty positive
  have left : 0 < cutTotal scale (normalizedWeights weights) :=
    cutTotal_pos hscale (fun he => nonempty (List.map_eq_nil_iff.mp he))
      (normalizedWeights_pos positive)
  refine safelyClipped_map (sum_cutShare left.ne') ?_ ?_
  · exact fun w hw => div_pos (lt_min (div_pos (positive w hw) total) hscale) left
  · intro v _ w _ hvw
    refine div_le_div_of_nonneg_right ?_ left.le
    exact min_le_min_right scale (div_le_div_of_nonneg_right hvw total.le)

theorem safelyClipped_uniform (nonempty : weights ≠ []) :
    SafelyClipped weights (weights.map fun _ => 1 / (weights.length : K)) := by
  have count : (0 : K) < weights.length := by exact_mod_cast List.length_pos_iff.mpr nonempty
  refine safelyClipped_map ?_ (fun _ _ => div_pos one_pos count) fun _ _ _ _ _ => le_refl _
  rw [List.map_const', List.sum_replicate, nsmul_eq_mul, mul_one_div_cancel count.ne']

/-- A negative scale makes all shares equal. -/
theorem cutShare_of_scale_neg (nonempty : weights ≠ []) (positive : ∀ w ∈ weights, 0 < w)
    {scale : K} (hscale : scale < 0) :
    cutTotal scale (normalizedWeights weights) ≠ 0 ∧
      weights.map (cutShare weights scale) = weights.map fun _ => 1 / (weights.length : K) := by
  have count : (weights.length : K) ≠ 0 := by
    exact_mod_cast (List.length_pos_iff.mpr nonempty).ne'
  have above : ∀ x ∈ normalizedWeights weights, scale ≤ x :=
    fun x hx => hscale.le.trans (normalizedWeights_pos positive x hx).le
  have left : cutTotal scale (normalizedWeights weights) = weights.length * scale := by
    rw [cutTotal_of_ge above, normalizedWeights, List.length_map]
  refine ⟨?_, List.map_congr_left fun w hw => ?_⟩
  · rw [left]
    exact mul_ne_zero count hscale.ne
  · have cut : min (w / weights.sum) scale = scale :=
      min_eq_right (above _ (List.mem_map_of_mem hw))
    rw [cutShare, cut, left, div_mul_cancel_right₀ hscale.ne, one_div]

/-- A share after a cut is the limit at most, up to the slack's part of what is left. -/
theorem maximum_cutShare_le (nonempty : weights ≠ []) (positive : ∀ w ∈ weights, 0 < w)
    {limit scale : K} (hscale : 0 < scale)
    (under : scale < limit * (cutTotal scale (normalizedWeights weights) + epsilon)) :
    maximum (weights.map (cutShare weights scale)) ≤
      limit * (1 + epsilon / cutTotal scale (normalizedWeights weights)) := by
  have left : 0 < cutTotal scale (normalizedWeights weights) :=
    cutTotal_pos hscale (fun he => nonempty (List.map_eq_nil_iff.mp he))
      (normalizedWeights_pos positive)
  refine maximum_le (fun he => nonempty (List.map_eq_nil_iff.mp he)) fun x hx => ?_
  obtain ⟨w, -, rfl⟩ := List.mem_map.mp hx
  calc cutShare weights scale w
      ≤ scale / cutTotal scale (normalizedWeights weights) :=
        div_le_div_of_nonneg_right (min_le_right _ _) left.le
    _ ≤ limit * (cutTotal scale (normalizedWeights weights) + epsilon) /
          cutTotal scale (normalizedWeights weights) := div_le_div_of_nonneg_right under.le left.le
    _ = limit * (1 + epsilon / cutTotal scale (normalizedWeights weights)) := by
        rw [mul_div_assoc, add_div, div_self left.ne']

/-- The scale of the cutoff. -/
def clipScale (weights : List K) (rawLimit : Int) : K :=
  scaleOf (normalizedWeights weights) (shareLimit rawLimit)

/-- What the cutoff leaves of the normalized weights. -/
def leftTotal (weights : List K) (rawLimit : Int) : K :=
  cutTotal (clipScale weights rawLimit) (normalizedWeights weights)

/-- The scale is zero exactly when the counted weights hold the slack's part. -/
theorem clipScale_eq_zero_iff (positive : ∀ w ∈ weights, 0 < w)
    (hlimit : (0 : K) < shareLimit rawLimit) :
    clipScale weights rawLimit = 0 ↔ shareLimit rawLimit *
      (keptWeights (normalizedWeights weights) (shareLimit rawLimit)).sum = epsilon := by
  have divisor := denominator_pos (normalizedWeights_pos positive) hlimit
  rw [clipScale, scaleOf, div_eq_zero_iff, sub_eq_zero]
  exact or_iff_left divisor.ne'

/-- What clipping a vector gives. -/
inductive ClipOutcome (weights : List K) (rawLimit : Int) :
    Except Raised (List K × Bool) → Prop where
  | zeroScale (cuts : CutsOff weights rawLimit) (zero : shareLimit rawLimit *
      (keptWeights (normalizedWeights weights) (shareLimit rawLimit)).sum = epsilon) :
    ClipOutcome weights rawLimit (.error .zeroDivisionError)
  | clipped (shares : List K) (flag : Bool)
      (nonzero : CutsOff weights rawLimit → shareLimit rawLimit *
        (keptWeights (normalizedWeights weights) (shareLimit rawLimit)).sum ≠ epsilon)
      (safe : SafelyClipped weights shares)
      (bounded : u16Max < weights.length * rawLimit → maximum shares ≤ shareLimit rawLimit ∨
        CutsOff weights rawLimit ∧ 0 < clipScale weights rawLimit ∧
          maximum shares ≤ shareLimit rawLimit * (1 + epsilon / leftTotal weights rawLimit)) :
    ClipOutcome weights rawLimit (.ok (shares, flag))

theorem u16Max_cast_pos : (0 : K) < (u16Max : Int) := by
  rw [u16Max]
  norm_num

theorem shareLimit_pos (h : 0 < rawLimit) : (0 : K) < shareLimit rawLimit :=
  div_pos (by exact_mod_cast h) u16Max_cast_pos

theorem room_iff (weights : List K) (rawLimit : Int) :
    u16Max < weights.length * rawLimit ↔ 1 < (weights.length : K) * shareLimit rawLimit := by
  rw [shareLimit, ← mul_div_assoc, one_lt_div u16Max_cast_pos]
  exact_mod_cast Iff.rfl

theorem outcome_of_whole (nonempty : weights ≠ []) (positive : ∀ w ∈ weights, 0 < w)
    (whole : rawLimit = u16Max ∨ maximum (normalizedWeights weights) ≤ shareLimit rawLimit) :
    ClipOutcome weights rawLimit (clippedShares weights rawLimit) := by
  have total := weights_sum_pos nonempty positive
  have sum : (normalizedWeights weights).sum = 1 := by
    rw [normalizedWeights, sum_map_div, div_self total.ne']
  have safe : SafelyClipped weights (normalizedWeights weights) :=
    safelyClipped_map sum (fun w hw => div_pos (positive w hw) total)
      fun v _ w _ hvw => div_le_div_of_nonneg_right hvw total.le
  rw [clippedShares_eq, if_pos whole]
  refine .clipped _ _ (fun cuts => absurd whole ?_) safe fun _ => .inl ?_
  · exact fun h => h.elim cuts.1 (not_le.mpr cuts.2.1)
  · rcases whole with raw | below
    · rw [shareLimit, raw, div_self u16Max_cast_pos.ne', ← sum]
      exact maximum_le (fun he => nonempty (List.map_eq_nil_iff.mp he)) fun x hx =>
        List.single_le_sum (fun y hy => (normalizedWeights_pos positive y hy).le) x hx
    · exact below

theorem outcome_of_flat (nonempty : weights ≠ [])
    (whole : ¬ (rawLimit = u16Max ∨ maximum (normalizedWeights weights) ≤ shareLimit rawLimit))
    (flat : weights.length * shareLimit (K := K) rawLimit ≤ 1) :
    ClipOutcome weights rawLimit (clippedShares weights rawLimit) := by
  have count : (normalizedWeights weights).length = weights.length := List.length_map _
  rw [clippedShares_eq, if_neg whole, count, if_pos flat, ← List.map_const']
  refine .clipped _ _ (fun cuts => absurd flat (not_le.mpr cuts.2.2))
    (safelyClipped_uniform nonempty) fun room => ?_
  exact absurd flat (not_le.mpr ((room_iff weights rawLimit).mp room))

/-- The three signs of the scale. -/
theorem outcome_of_cut (nonempty : weights ≠ []) (positive : ∀ w ∈ weights, 0 < w)
    (range : 0 < rawLimit) (cuts : CutsOff weights rawLimit) :
    ClipOutcome weights rawLimit (clippedShares weights rawLimit) := by
  have normal := normalizedWeights_pos positive
  have nonempty' : normalizedWeights weights ≠ [] :=
    fun he => nonempty (List.map_eq_nil_iff.mp he)
  have hlimit : (0 : K) < shareLimit rawLimit := shareLimit_pos range
  have zero_iff := clipScale_eq_zero_iff positive hlimit
  have scale : clipScale weights rawLimit =
      scaleOf (normalizedWeights weights) (shareLimit rawLimit) := rfl
  rw [clippedShares_of_cut nonempty positive hlimit cuts scale]
  rcases lt_trichotomy (clipScale weights rawLimit) 0 with negative | zero | some
  · obtain ⟨left, uniform⟩ := cutShare_of_scale_neg nonempty positive negative
    rw [if_neg left, uniform]
    refine .clipped _ _ (fun _ he => negative.ne (zero_iff.mpr he))
      (safelyClipped_uniform nonempty) fun _ => .inl ?_
    have count : (0 : K) < weights.length := by exact_mod_cast List.length_pos_iff.mpr nonempty
    refine maximum_le (fun he => nonempty (List.map_eq_nil_iff.mp he)) fun x hx => ?_
    obtain ⟨w, -, rfl⟩ := List.mem_map.mp hx
    rw [div_le_iff₀ count, mul_comm]
    exact cuts.2.2.le
  · have none : cutTotal (clipScale weights rawLimit) (normalizedWeights weights) = 0 := by
      rw [zero, cutTotal_of_ge fun x hx => (normal x hx).le, mul_zero]
    rw [if_pos none]
    exact .zeroScale cuts (zero_iff.mp zero)
  · rw [if_neg (cutTotal_pos some nonempty' normal).ne']
    refine .clipped _ _ (fun _ he => some.ne' (zero_iff.mpr he))
      (safelyClipped_of_scale_pos nonempty positive some) fun _ => .inr ⟨cuts, some, ?_⟩
    exact maximum_cutShare_le nonempty positive some (scaleOf_under normal hlimit some)

theorem clipToMaxWeight_eq (nonempty : weights ≠ []) (positive : ∀ w ∈ weights, 0 < w)
    (range : 0 < rawLimit ∧ rawLimit ≤ u16Max) :
    clipToMaxWeight weights rawLimit = clippedShares weights rawLimit := by
  rw [clipToMaxWeight, require, if_pos range, require,
    if_pos ⟨nonempty, weights_sum_pos nonempty positive⟩]
  rfl

theorem clipToMaxWeight_outcome (nonempty : weights ≠ []) (positive : ∀ w ∈ weights, 0 < w)
    (range : 0 < rawLimit ∧ rawLimit ≤ u16Max) :
    ClipOutcome weights rawLimit (clipToMaxWeight weights rawLimit) := by
  rw [clipToMaxWeight_eq nonempty positive range]
  by_cases whole : rawLimit = u16Max ∨ maximum (normalizedWeights weights) ≤ shareLimit rawLimit
  · exact outcome_of_whole nonempty positive whole
  by_cases flat : weights.length * shareLimit (K := K) rawLimit ≤ 1
  · exact outcome_of_flat nonempty whole flat
  obtain ⟨raw, above⟩ := not_or.mp whole
  exact outcome_of_cut nonempty positive range.1 ⟨raw, not_le.mp above, not_le.mp flat⟩

/-- The cutoff never leaves the vector, and clipping fails only where the scale is
exactly zero. -/
theorem clipToMaxWeight_safe (nonempty : weights ≠ []) (positive : ∀ w ∈ weights, 0 < w)
    (range : 0 < rawLimit ∧ rawLimit ≤ u16Max) :
    (CutsOff weights rawLimit →
      ∃ shares, SafeCutoff (normalizedWeights weights) (shareLimit rawLimit) shares) ∧
      ClipOutcome weights rawLimit (clipToMaxWeight weights rawLimit) := by
  refine ⟨fun cuts => ?_, clipToMaxWeight_outcome nonempty positive range⟩
  have room := cuts.2.2
  rw [← (List.length_map _ : (normalizedWeights weights).length = weights.length)] at room
  exact safeCutoff_of_positive (normalizedWeights_pos positive) room (shareLimit_pos range.1)

theorem cutsOff_pair : CutsOff ([1, 3] : List ℚ) 39321 :=
  ⟨by decide, by decide +kernel, by decide +kernel⟩

/-- One heavy weight among two is cut. -/
theorem clipToMaxWeight_safe_pair :
    CutsOff ([1, 3] : List ℚ) 39321 ∧
      (∃ shares, SafeCutoff (normalizedWeights ([1, 3] : List ℚ)) (shareLimit 39321) shares) ∧
      ClipOutcome ([1, 3] : List ℚ) 39321 (clipToMaxWeight [1, 3] 39321) := by
  obtain ⟨safe, outcome⟩ := @clipToMaxWeight_safe ℚ _ _ _ [1, 3] 39321 (List.cons_ne_nil 1 [3])
    (by decide) (by decide)
  exact ⟨cutsOff_pair, safe cutsOff_pair, outcome⟩

/-- Two positive vectors, the limit with room for all of their weights: one makes the
scale zero, and the other keeps so little that the maximum passes the limit. -/
theorem clipping_fails :
    clipToMaxWeight ([1, 5999999] : List ℚ) 39321 = .error .zeroDivisionError ∧
      ∃ shares, clipToMaxWeight ([1, 67, 99999932] : List ℚ) 30583 = .ok (shares, true) ∧
        shareLimit 30583 * (1 + 1 / 10 ^ 6) < maximum shares := by
  refine ⟨by decide +kernel, [2 / 165, 163 / 330, 163 / 330], by decide +kernel, by decide +kernel⟩

end Clip

end WeightConformity
