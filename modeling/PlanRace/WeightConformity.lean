import PlanRace.Library.Fallible
import PlanRace.Library.PythonObjects
import PlanRace.Library.OrderStatistics
import Mathlib.Algebra.Order.Floor.Ring

/-!
# Conforming a weight vector

`_clip_to_max_weight` caps the normalized weights, and `_conform_weight_vector`
encodes them in 16 bits and drops what becomes zero. The floats are members of an
ordered field, and the result of every float operation passes a rounding: exact
arithmetic is the rounding that changes nothing.
-/

namespace WeightConformity

open JsonText PythonObjects Statistics Fallible

def u16Max : Int := 65535

/-- How the results of float operations are rounded. -/
class Rounding (K : Type) where
  round : K → K

/-- Exact arithmetic, where no other rounding is given. -/
instance (priority := low) exactRounding {K : Type} : Rounding K := ⟨id⟩

/-- The float that an operation with this exact result gives. -/
def rounded {K : Type} [Rounding K] (x : K) : K := Rounding.round x

@[simp] theorem rounded_exact {K : Type} (x : K) : rounded x = x := rfl

/-- `math.fsum(values)`: one rounding of the exact sum. -/
def fsum {K : Type} [Field K] [Rounding K] (values : List K) : K := rounded values.sum

section Arithmetic

variable {K : Type} [Field K] [LinearOrder K] [Rounding K]

/-- `x / y` of two floats. -/
def divide (x y : K) : Except Raised K :=
  if y = 0 then .error .zeroDivisionError else .ok (rounded (x / y))

/-- `max(values)` of a non-empty list. -/
def maximum {α : Type} [Zero α] [LinearOrder α] : List α → α
  | [] => 0
  | first :: rest => rest.foldl max first

/-- `round(x)`, halves to the even neighbour. -/
def roundHalfEven [FloorRing K] (x : K) : Int :=
  if x - ⌊x⌋ < 1 / 2 then ⌊x⌋
  else if 1 / 2 < x - ⌊x⌋ then ⌊x⌋ + 1
  else if ⌊x⌋ % 2 = 0 then ⌊x⌋ else ⌊x⌋ + 1

/-- The sums of the first values, one for each value. -/
def runningSums (running : K) : List K → List K
  | [] => []
  | value :: rest => rounded (running + value) :: runningSums (rounded (running + value)) rest

/-- `values[index]`, from the end for a negative index. -/
def item (values : List K) (index : Int) : Except Raised K :=
  match values[(if index < 0 then index + values.length else index).toNat]? with
  | some value => if index < -values.length then .error .indexError else .ok value
  | none => .error .indexError

end Arithmetic

section Conform

variable {K : Type} [Field K] [LinearOrder K] [Rounding K]

def epsilon : K := rounded (1 / 10 ^ 7)

/-- What the cutoff test divides a weight by: the vector cut at that weight. -/
def cutoffDivisor (count : Nat) (entry : (K × K) × Nat) : K :=
  rounded (rounded (rounded ((count - entry.2 - 1 : K) * entry.1.1) + entry.1.2) + epsilon)

/-- The share that the cutoff test compares with the limit. -/
def cutoffShare (count : Nat) (entry : (K × K) × Nat) : Except Raised K :=
  divide entry.1.1 (cutoffDivisor count entry)

/-- The weight at which the normalized weights are cut. -/
def cutoffScale (normalized : List K) (limit : K) : Except Raised K := do
  let count := normalized.length
  let ordered := sorted normalized
  let cumulative := runningSums 0 ordered
  let shares ← ((ordered.zip cumulative).zipIdx).mapM (cutoffShare count)
  let belowCutoff := shares.countP fun share => share < limit
  let last ← item cumulative (belowCutoff - 1)
  divide (rounded (rounded (limit * last) - epsilon))
    (rounded (1 - rounded (limit * (count - belowCutoff))))

/-- `_clip_to_max_weight`, on a vector with a positive total. -/
def clippedShares (weights : List K) (rawLimit : Int) : Except Raised (List K × Bool) :=
  let total := fsum weights
  let normalized := weights.map fun weight => rounded (weight / total)
  let limit : K := rounded (rawLimit / u16Max)
  if rawLimit = u16Max ∨ maximum normalized ≤ limit then .ok (normalized, false)
  else
    let count := normalized.length
    if rounded (count * limit) ≤ 1 then .ok (List.replicate count (rounded (1 / count)), true)
    else do
      let scale ← cutoffScale normalized limit
      let clipped := weights.map fun weight => min weight (rounded (scale * total))
      let shares ← clipped.mapM fun weight => divide weight (fsum clipped)
      return (shares, true)

/-- `_clip_to_max_weight`. -/
def clipToMaxWeight (weights : List K) (rawLimit : Int) : Except Raised (List K × Bool) := do
  require (0 < rawLimit ∧ rawLimit ≤ u16Max)
    (.valueError "max_weights_limit must be between 1 and 65535".toList)
  require (weights ≠ [] ∧ 0 < fsum weights)
    (.valueError "weight vector must have a finite positive total".toList)
  clippedShares weights rawLimit

variable [FloorRing K]

/-- `round((weight / top) * U16_MAX)`. -/
def quantize (top weight : K) : Except Raised Int := do
  let share ← divide weight top
  return roundHalfEven (rounded (share * u16Max))

/-- An entry of a conformed vector: its index, its weight and its 16-bit value. -/
structure ConformedWeight (K : Type) where
  index : Nat
  weight : K
  u16Weight : Int

/-- `_conform_weight_vector`. -/
def conformWeightVector (weights : List K) (rawLimit : Int) :
    Except Raised (List (ConformedWeight K) × Bool) := do
  let conformed ← clipToMaxWeight weights rawLimit
  let quantized ← conformed.1.mapM (quantize (maximum conformed.1))
  let nonzero := quantized.zipIdx.filter fun entry => 0 < entry.1
  let total := (nonzero.map Prod.fst).sum
  require (nonzero ≠ [] ∧ 0 < total)
    (.valueError "all weights became zero during u16 quantization".toList)
  return (nonzero.map fun entry => ⟨entry.2, rounded (entry.1 / total), entry.1⟩, conformed.2)

end Conform

@[simp] theorem fsum_exact {K : Type} [Field K] (values : List K) : fsum values = values.sum := rfl

/-! What holds for every rounding: the clipped vector has a share for each
weight, and the encoding keeps some of the positions in their order. -/
section Positions

variable {K : Type} [Field K] [LinearOrder K] [Rounding K] {weights clipped : List K}
  {rawLimit : Int} {flag : Bool}

theorem clippedShares_length (h : clippedShares weights rawLimit = .ok (clipped, flag)) :
    clipped.length = weights.length := by
  unfold clippedShares at h
  dsimp only at h
  split_ifs at h with whole flat
  · cases h
    exact List.length_map _
  · cases h
    rw [List.length_replicate, List.length_map]
  · obtain ⟨scale, -, h⟩ := bind_ok h
    obtain ⟨shares, hshares, h⟩ := bind_ok h
    cases h
    rw [← (mapM_ok_iff.mp hshares).length_eq, List.length_map]

theorem clipToMaxWeight_length (h : clipToMaxWeight weights rawLimit = .ok (clipped, flag)) :
    clipped.length = weights.length := by
  obtain ⟨_, -, h⟩ := bind_ok h
  obtain ⟨_, -, h⟩ := bind_ok h
  exact clippedShares_length h

variable [FloorRing K]

theorem conformWeightVector_limit {entries : List (ConformedWeight K)}
    (h : conformWeightVector weights rawLimit = .ok (entries, flag)) :
    0 < rawLimit ∧ rawLimit ≤ u16Max := by
  obtain ⟨_, clips, -⟩ := bind_ok h
  obtain ⟨_, limit, -⟩ := bind_ok clips
  exact require_ok_iff.mp limit

theorem conformWeightVector_positions {entries : List (ConformedWeight K)}
    (h : conformWeightVector weights rawLimit = .ok (entries, flag)) :
    (entries.map ConformedWeight.index).Sublist (List.range weights.length) := by
  obtain ⟨⟨conformed, _⟩, hclip, h⟩ := bind_ok h
  obtain ⟨quantized, hquantized, h⟩ := bind_ok h
  obtain ⟨_, -, h⟩ := bind_ok h
  cases h
  have count : quantized.length = weights.length :=
    (mapM_ok_iff.mp hquantized).length_eq.symm.trans (clipToMaxWeight_length hclip)
  have all : quantized.zipIdx.map Prod.snd = List.range weights.length := by
    rw [List.zipIdx_map_snd, ← count, List.range_eq_range']
  rw [List.map_map, ← all]
  exact List.filter_sublist.map Prod.snd

end Positions

section Rounding

variable {K : Type} [Field K] [LinearOrder K] [IsStrictOrderedRing K] [FloorRing K]

theorem roundHalfEven_le {x : K} {n : Int} (h : x ≤ n) : roundHalfEven x ≤ n := by
  have below : ⌊x⌋ ≤ n := Int.floor_le_iff.mpr (by linarith)
  rcases below.lt_or_eq with less | equal
  · unfold roundHalfEven
    split_ifs <;> omega
  · have fraction : x - ⌊x⌋ < 1 / 2 := by
      rw [equal]
      linarith
    rw [roundHalfEven, if_pos fraction, equal]

end Rounding

section Specification

variable {K : Type} [Field K] [LinearOrder K]

theorem divide_ok_iff {x y z : K} : divide x y = .ok z ↔ y ≠ 0 ∧ z = x / y := by
  unfold divide
  split_ifs with zero
  · simp [zero]
  · simp [zero, eq_comm]

theorem maximum_isGreatest {α : Type} [Zero α] [LinearOrder α] {values : List α}
    (nonempty : values ≠ []) : IsGreatest {x | x ∈ values} (maximum values) := by
  cases values with
  | nil => exact absurd rfl nonempty
  | cons first rest => exact foldl_max_isGreatest first rest

/-- What bounds all values bounds their maximum. -/
theorem maximum_le {α : Type} [Zero α] [LinearOrder α] {values : List α} (nonempty : values ≠ [])
    {bound : α} (h : ∀ x ∈ values, x ≤ bound) : maximum values ≤ bound :=
  h _ (maximum_isGreatest nonempty).1

omit [LinearOrder K] in
theorem sum_map_div (values : List K) (total : K) :
    (values.map (· / total)).sum = values.sum / total := by
  induction values with
  | nil => simp
  | cons value rest ih => rw [List.map_cons, List.sum_cons, List.sum_cons, ih, add_div]

variable [IsStrictOrderedRing K]

/-- A clipped vector is a normalized vector of the same length. -/
structure Clipped (weights clipped : List K) : Prop where
  length : clipped.length = weights.length
  nonempty : weights ≠ []
  sum : clipped.sum = 1

omit [IsStrictOrderedRing K] in
theorem clippedShares_exact (weights : List K) (rawLimit : Int) :
    clippedShares weights rawLimit =
      if rawLimit = u16Max ∨ maximum (weights.map (· / weights.sum)) ≤ rawLimit / u16Max then
        .ok (weights.map (· / weights.sum), false)
      else if (weights.map (· / weights.sum)).length * (rawLimit / u16Max : K) ≤ 1 then
        .ok (List.replicate (weights.map (· / weights.sum)).length
          (1 / (weights.map (· / weights.sum)).length), true)
      else do
        let scale ← cutoffScale (weights.map (· / weights.sum)) (rawLimit / u16Max)
        let shares ← (weights.map fun w => min w (scale * weights.sum)).mapM fun w =>
          divide w (weights.map fun w => min w (scale * weights.sum)).sum
        return (shares, true) := rfl

theorem clippedShares_clipped {weights clipped : List K} {rawLimit : Int} {flag : Bool}
    (nonempty : weights ≠ []) (positive : 0 < weights.sum)
    (h : clippedShares weights rawLimit = .ok (clipped, flag)) : Clipped weights clipped := by
  have normalized : Clipped weights (weights.map (· / weights.sum)) :=
    ⟨List.length_map _, nonempty, by rw [sum_map_div, div_self positive.ne']⟩
  rw [clippedShares_exact] at h
  split_ifs at h with whole flat
  · cases h
    exact normalized
  · cases h
    have count : ((weights.map (· / weights.sum)).length : K) ≠ 0 := by
      rw [List.length_map]
      exact Nat.cast_ne_zero.mpr (List.length_pos_iff.mpr nonempty).ne'
    refine ⟨by rw [List.length_replicate, List.length_map], nonempty, ?_⟩
    rw [List.sum_replicate, nsmul_eq_mul, mul_one_div_cancel count]
  · obtain ⟨scale, -, h⟩ := bind_ok h
    obtain ⟨shares, hshares, h⟩ := bind_ok h
    cases h
    have all := mapM_ok_iff.mp hshares
    have nonzero : (weights.map fun weight => min weight (scale * weights.sum)).sum ≠ 0 := by
      obtain ⟨weight, hweight⟩ := List.exists_mem_of_ne_nil weights nonempty
      obtain ⟨share, -, hshare⟩ := ok_of_mapM hshares _ (List.mem_map_of_mem hweight)
      exact (divide_ok_iff.mp hshare).1
    have shown := eq_map_of_mapM hshares fun weight _ share h => (divide_ok_iff.mp h).2
    refine ⟨?_, nonempty, ?_⟩
    · rw [shown, List.length_map, List.length_map]
    · rw [shown, sum_map_div, div_self nonzero]

theorem clipToMaxWeight_clipped {weights clipped : List K} {rawLimit : Int} {flag : Bool}
    (h : clipToMaxWeight weights rawLimit = .ok (clipped, flag)) :
    (0 < rawLimit ∧ rawLimit ≤ u16Max) ∧ Clipped weights clipped := by
  obtain ⟨_, limit, h⟩ := bind_ok h
  obtain ⟨_, total, h⟩ := bind_ok h
  obtain ⟨nonempty, positive⟩ := require_ok_iff.mp total
  exact ⟨require_ok_iff.mp limit, clippedShares_clipped nonempty positive h⟩

variable [FloorRing K]

/-- What the encoding of a vector gives. -/
structure Conformed (weights : List K) (rawLimit : Int) (entries : List (ConformedWeight K)) :
    Prop where
  limit : 0 < rawLimit ∧ rawLimit ≤ u16Max
  nonempty : entries ≠ []
  index : ∀ e ∈ entries, e.index < weights.length
  distinct : (entries.map ConformedWeight.index).Nodup
  values : ∀ e ∈ entries, 0 < e.u16Weight ∧ e.u16Weight ≤ u16Max
  total : 0 < (entries.map ConformedWeight.u16Weight).sum
  normalized : ∀ e ∈ entries,
    e.weight = e.u16Weight / ((entries.map ConformedWeight.u16Weight).sum : Int)

theorem maximum_pos {conformed : List K} (sum : conformed.sum = 1) : 0 < maximum conformed := by
  have nonempty : conformed ≠ [] := by
    rintro rfl
    exact zero_ne_one sum
  have greatest := maximum_isGreatest nonempty
  by_contra none
  have small := List.sum_le_card_nsmul conformed 0
    fun x hx => (greatest.2 hx).trans (not_lt.mp none)
  rw [sum, nsmul_zero] at small
  exact absurd small (not_le.mpr one_pos)

theorem quantize_le {conformed : List K} (sum : conformed.sum = 1) {weight : K}
    (h : weight ∈ conformed) {value : Int} (hvalue : quantize (maximum conformed) weight = .ok value) :
    value ≤ u16Max := by
  have greatest := maximum_isGreatest (List.ne_nil_of_mem h)
  have positive := maximum_pos sum
  obtain ⟨share, hshare, hvalue⟩ := bind_ok hvalue
  obtain ⟨-, rfl⟩ := divide_ok_iff.mp hshare
  cases hvalue
  apply roundHalfEven_le
  have share : weight / maximum conformed ≤ 1 := (div_le_one positive).mpr (greatest.2 h)
  have bound : (0 : K) ≤ u16Max := by
    rw [u16Max]
    norm_num
  exact mul_le_of_le_one_left bound share

theorem conformWeightVector_conformed {weights : List K} {rawLimit : Int}
    {entries : List (ConformedWeight K)} {flag : Bool}
    (h : conformWeightVector weights rawLimit = .ok (entries, flag)) :
    Conformed weights rawLimit entries := by
  obtain ⟨⟨conformed, clipped⟩, hclip, h⟩ := bind_ok h
  obtain ⟨quantized, hquantized, h⟩ := bind_ok h
  obtain ⟨_, kept, h⟩ := bind_ok h
  obtain ⟨nonempty, positive⟩ := require_ok_iff.mp kept
  cases h
  obtain ⟨limit, hclipped⟩ := clipToMaxWeight_clipped hclip
  have u16 : ((quantized.zipIdx.filter fun entry => 0 < entry.1).map
      fun entry => (⟨entry.2, rounded (entry.1 / ((quantized.zipIdx.filter fun entry =>
        0 < entry.1).map Prod.fst).sum), entry.1⟩ : ConformedWeight K)).map
          ConformedWeight.u16Weight =
        (quantized.zipIdx.filter fun entry => 0 < entry.1).map Prod.fst := by
    rw [List.map_map]
    rfl
  refine ⟨limit, ?_, ?_, ?_, ?_, ?_, ?_⟩
  · exact fun he => nonempty (List.map_eq_nil_iff.mp he)
  · intro e he
    obtain ⟨entry, hentry, rfl⟩ := List.mem_map.mp he
    have position := List.snd_lt_of_mem_zipIdx (List.mem_of_mem_filter hentry)
    have count := (mapM_ok_iff.mp hquantized).length_eq
    rw [← hclipped.length, count]
    simpa using position
  · have indices : (quantized.zipIdx.map Prod.snd).Nodup := by
      rw [List.zipIdx_map_snd]
      exact List.nodup_range'
    rw [List.map_map]
    exact (List.filter_sublist.map Prod.snd).nodup indices
  · intro e he
    obtain ⟨entry, hentry, rfl⟩ := List.mem_map.mp he
    obtain ⟨hin, some⟩ := List.mem_filter.mp hentry
    refine ⟨of_decide_eq_true some, ?_⟩
    obtain ⟨weight, hweight, hvalue⟩ := exists_of_mem_mapM hquantized (List.fst_mem_of_mem_zipIdx hin)
    exact quantize_le hclipped.sum hweight hvalue
  · rw [u16]
    exact positive
  · intro e he
    obtain ⟨entry, hentry, rfl⟩ := List.mem_map.mp he
    rw [u16, rounded_exact]

end Specification

end WeightConformity
