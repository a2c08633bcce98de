import PlanRace.Library.Fallible
import PlanRace.Library.JsonText
import Mathlib.Algebra.Order.Field.Basic
import Mathlib.Data.Rat.Cast.Order
import Mathlib.Tactic.LinearCombination
import Mathlib.Tactic.Linarith
import Mathlib.Tactic.Positivity
import Mathlib.Tactic.Ring

/-!
# Decimal cells are encoded exactly within the context

Normalizing a decimal rounds it to the precision of the context first. The text is
exact for the decimals the context represents, and for no others.
-/

namespace CanonicalDecimal

open JsonText Fallible

section Context

/-- A finite `Decimal`. -/
structure FiniteDecimal where
  negative : Bool
  coefficient : Nat
  exponent : Int
deriving DecidableEq

inductive Decimal where
  | finite (value : FiniteDecimal)
  | infinite (negative : Bool)
  | nan
deriving DecidableEq

inductive DecimalError where
  | overflow
deriving DecidableEq

/-- The default context. -/
def prec : Nat := 28

def emax : Int := 999999

def etiny : Int := -999999 - prec + 1

def etop : Int := emax - prec + 1

def digits (n : Nat) : Text := Nat.toDigits 10 n

/-- The exponent of the last digit that the precision leaves. -/
def precise (x : FiniteDecimal) : Int := (digits x.coefficient).length + x.exponent - prec

def expMin (x : FiniteDecimal) : Int := max (precise x) etiny

/-- The coefficient without its last `dropped` digits, halves to even. -/
def roundHalfEven (coefficient dropped : Nat) : Nat :=
  let quotient := coefficient / 10 ^ dropped
  let twice := 2 * (coefficient % 10 ^ dropped)
  if 10 ^ dropped < twice ∨ (twice = 10 ^ dropped ∧ quotient % 2 = 1) then quotient + 1
  else quotient

/-- The coefficient and the exponent after a carry to one digit too many. -/
def carry (coefficient : Nat) (exponent : Int) : Nat × Int :=
  if prec < (digits coefficient).length then (coefficient / 10, exponent + 1)
  else (coefficient, exponent)

/-- Rounding to the context. -/
def fix (x : FiniteDecimal) : Except DecimalError FiniteDecimal :=
  if x.coefficient = 0 then .ok { x with exponent := min (max x.exponent etiny) emax }
  else if etop < precise x then .error .overflow
  else if x.exponent < expMin x then
    let rounded := carry (roundHalfEven x.coefficient (expMin x - x.exponent).toNat) (expMin x)
    if etop < rounded.2 then .error .overflow else .ok ⟨x.negative, rounded.1, rounded.2⟩
  else .ok x

/-- The loop over the trailing zeros; a coefficient has no more of them than digits. -/
def stripZeros : Nat → Nat → Int → Nat × Int
  | 0, coefficient, exponent => (coefficient, exponent)
  | fuel + 1, coefficient, exponent =>
    if coefficient % 10 = 0 ∧ exponent < emax then stripZeros fuel (coefficient / 10) (exponent + 1)
    else (coefficient, exponent)

/-- `value.normalize()`. -/
def normalize (x : FiniteDecimal) : Except DecimalError FiniteDecimal := do
  let fixed ← fix x
  let stripped := stripZeros (digits fixed.coefficient).length fixed.coefficient fixed.exponent
  return if fixed.coefficient = 0 then ⟨fixed.negative, 0, 0⟩
    else ⟨fixed.negative, stripped.1, stripped.2⟩

end Context

section Rendering

def signText (negative : Bool) : Text := if negative then ['-'] else []

/-- The digits before and after the point. -/
def placed (ds : Text) (exponent : Int) : Text × Text :=
  let dotplace := exponent + ds.length
  if dotplace < 0 then (['0'], List.replicate (-dotplace).toNat '0' ++ ds)
  else if (ds.length : Int) < dotplace then
    (ds ++ List.replicate (dotplace - ds.length).toNat '0', [])
  else (if ds.take dotplace.toNat = [] then ['0'] else ds.take dotplace.toNat,
    ds.drop dotplace.toNat)

/-- `format(value, "f")`. -/
def formatFixed (x : FiniteDecimal) : Text :=
  let exponent := if x.coefficient = 0 ∧ 0 < x.exponent then 0 else x.exponent
  let parts := placed (digits x.coefficient) exponent
  signText x.negative ++ parts.1 ++ (if parts.2 = [] then [] else '.' :: parts.2)

/-- `text.rstrip(c)`. -/
def rstrip (c : Char) (text : Text) : Text := (text.reverse.dropWhile (· = c)).reverse

def canonicalDecimal : Decimal → Except DecimalError Text
  | .nan => .ok "nan".toList
  | .infinite negative => .ok (if negative then "-infinity".toList else "+infinity".toList)
  | .finite value =>
    if value.coefficient = 0 then .ok (if value.negative then "-0".toList else "0".toList)
    else do
      let normalized ← normalize value
      let rendered := formatFixed normalized
      return if '.' ∈ rendered then rstrip '.' (rstrip '0' rendered) else rendered

end Rendering

section Numerals

/-- A plain decimal numeral: no exponent, and no zero that could be left out. -/
structure Numeral where
  negative : Bool
  whole : Text
  fraction : Text
  someWhole : whole ≠ []
  allDigits : ∀ c ∈ whole ++ fraction, c.isDigit = true
  noLeading : whole.head? = some '0' → whole = ['0']
  noTrailing : fraction.getLast? ≠ some '0'

def Numeral.text (n : Numeral) : Text :=
  signText n.negative ++ n.whole ++ (if n.fraction = [] then [] else '.' :: n.fraction)

def signValue (negative : Bool) : ℚ := if negative then -1 else 1

def Numeral.value (n : Numeral) : ℚ :=
  signValue n.negative * (Nat.ofDigitChars 10 (n.whole ++ n.fraction) 0 : ℚ) / 10 ^ n.fraction.length

def FiniteDecimal.magnitude (x : FiniteDecimal) : ℚ := x.coefficient * (10 : ℚ) ^ x.exponent

def FiniteDecimal.value (x : FiniteDecimal) : ℚ := signValue x.negative * x.magnitude

/-- A numeral is read off its text. -/
theorem Numeral.text_injective {m n : Numeral} (h : m.text = n.text) :
    m.negative = n.negative ∧ m.whole = n.whole ∧ m.fraction = n.fraction := by
  have whole : ∀ n : Numeral, ∀ c ∈ n.whole, c.isDigit = true := fun n c hc =>
    n.allDigits c (List.mem_append_left _ hc)
  have head : ∀ n : Numeral, ∀ r, n.whole ++ (if n.fraction = [] then [] else '.' :: n.fraction) ≠
      '-' :: r := by
    intro n r he
    obtain ⟨c, rest, hwhole⟩ := List.exists_cons_of_ne_nil n.someWhole
    have digit := whole n c (hwhole ▸ List.mem_cons_self)
    rw [hwhole] at he
    obtain ⟨rfl, -⟩ := List.cons.inj he
    exact absurd digit (by decide)
  have sign : m.negative = n.negative ∧
      m.whole ++ (if m.fraction = [] then [] else '.' :: m.fraction) =
        n.whole ++ (if n.fraction = [] then [] else '.' :: n.fraction) := by
    unfold Numeral.text at h
    cases hm : m.negative <;> cases hn : n.negative <;> rw [hm, hn] at h
    · exact ⟨rfl, h⟩
    · exact absurd h (head m _)
    · exact absurd h.symm (head n _)
    · exact ⟨rfl, (List.cons.inj h).2⟩
  have stop : ∀ n : Numeral, NotDigit (if n.fraction = [] then [] else '.' :: n.fraction) := by
    intro n c r he
    split_ifs at he
    obtain ⟨rfl, -⟩ := List.cons.inj he
    rfl
  have same := congrArg (List.takeWhile Char.isDigit) sign.2
  rw [takeWhile_digits (whole m) (stop m), takeWhile_digits (whole n) (stop n)] at same
  have rest := sign.2
  rw [same] at rest
  have tails := List.append_cancel_left rest
  refine ⟨sign.1, same, ?_⟩
  by_cases hm : m.fraction = [] <;> by_cases hn : n.fraction = []
  · rw [hm, hn]
  · rw [if_pos hm, if_neg hn] at tails
    cases tails
  · rw [if_neg hm, if_pos hn] at tails
    cases tails
  · rw [if_neg hm, if_neg hn] at tails
    exact (List.cons.inj tails).2

theorem Numeral.value_eq_of_text {m n : Numeral} (h : m.text = n.text) : m.value = n.value := by
  obtain ⟨negative, whole, fraction⟩ := Numeral.text_injective h
  rw [Numeral.value, Numeral.value, negative, whole, fraction]

end Numerals

section Digits

theorem digits_ne_nil (n : Nat) : digits n ≠ [] := Nat.toDigits_ne_nil

theorem digits_isDigit (n : Nat) : ∀ c ∈ digits n, c.isDigit = true := fun _ hc =>
  Nat.isDigit_of_mem_toDigits (by decide) (by decide) hc

theorem lt_pow_digits (n : Nat) : n < 10 ^ (digits n).length :=
  (Nat.length_toDigits_le_iff (by decide) (List.length_pos_iff.mpr (digits_ne_nil n))).mp le_rfl

theorem digits_eq_append {n : Nat} (h : 10 ≤ n) :
    digits n = digits (n / 10) ++ [Nat.digitChar (n % 10)] :=
  Nat.toDigits_of_base_le (by decide) h

theorem digitChar_eq_zero_iff {d : Nat} (h : d < 10) : Nat.digitChar d = '0' ↔ d = 0 := by
  interval_cases d <;> decide

/-- No number but zero starts with the digit zero. -/
theorem digits_head {n : Nat} (h : n ≠ 0) : (digits n).head? ≠ some '0' := by
  induction n using Nat.strongRecOn with
  | ind n ih =>
    by_cases small : n < 10
    · rw [digits, Nat.toDigits_of_lt_base small, List.head?_cons, ne_eq, Option.some.injEq,
        digitChar_eq_zero_iff small]
      exact h
    · rw [digits_eq_append (Nat.not_lt.mp small), List.head?_append_of_ne_nil _ (digits_ne_nil _)]
      exact ih (n / 10) (by omega) (by omega)

theorem digits_getLast {n : Nat} (h : n % 10 ≠ 0) : (digits n).getLast? ≠ some '0' := by
  by_cases small : n < 10
  · rw [digits, Nat.toDigits_of_lt_base small, List.getLast?_singleton, ne_eq, Option.some.injEq,
      digitChar_eq_zero_iff small]
    omega
  · rw [digits_eq_append (Nat.not_lt.mp small), List.getLast?_concat, ne_eq, Option.some.injEq,
      digitChar_eq_zero_iff (by omega)]
    exact h

theorem ofDigitChars_digits (n zeros : Nat) :
    Nat.ofDigitChars 10 (List.replicate zeros '0' ++ digits n) 0 = n ∧
      Nat.ofDigitChars 10 (digits n ++ List.replicate zeros '0') 0 = 10 ^ zeros * n := by
  constructor
  · rw [Nat.ofDigitChars_append, Nat.ofDigitChars_replicate_zero, Nat.mul_zero]
    exact Nat.ofDigitChars_ten_toDigits
  · rw [Nat.ofDigitChars_append, Nat.ofDigitChars_replicate_zero]
    exact congrArg _ Nat.ofDigitChars_ten_toDigits

end Digits

section Placement

theorem zpow_neg_toNat {e : Int} (h : e < 0) : (10 : ℚ) ^ e = 1 / 10 ^ (-e).toNat := by
  have he : e = -((-e).toNat : Int) := by omega
  rw [he, zpow_neg, zpow_natCast, one_div, ← he]

theorem zpow_toNat {e : Int} (h : 0 ≤ e) : (10 : ℚ) ^ e = 10 ^ e.toNat := by
  rw [← zpow_natCast, Int.toNat_of_nonneg h]

/-- What normalizing leaves: a zero without an exponent, or no trailing zero after the point. -/
structure Reduced (x : FiniteDecimal) : Prop where
  zero : x.coefficient = 0 → x.exponent = 0
  last : x.exponent < 0 → x.coefficient % 10 ≠ 0

theorem placed_of_nonneg {ds : Text} {e : Int} (some : ds ≠ []) (h : 0 ≤ e) :
    placed ds e = (ds ++ List.replicate e.toNat '0', []) := by
  unfold placed
  rw [if_neg (by omega)]
  by_cases more : (ds.length : Int) < e + ds.length
  · rw [if_pos more, Int.add_sub_cancel]
  · obtain rfl : e = 0 := by omega
    rw [if_neg more, Int.zero_add, Int.toNat_natCast, List.take_length, List.drop_length,
      if_neg some, Int.toNat_zero, List.replicate_zero, List.append_nil]

/-- A point among the digits, or before them behind zeros. -/
structure PointAt (ds : Text) (e : Int) (whole fraction : Text) : Prop where
  joined : ∃ zeros, whole ++ fraction = List.replicate zeros '0' ++ ds
  length : fraction.length = (-e).toNat
  last : fraction.getLast? = ds.getLast?
  head : whole = ['0'] ∨ (whole ≠ [] ∧ whole.head? = ds.head?)

theorem placed_of_neg {ds : Text} {e : Int} (some : ds ≠ []) (h : e < 0) :
    PointAt ds e (placed ds e).1 (placed ds e).2 := by
  have positive : 0 < ds.length := List.length_pos_iff.mpr some
  unfold placed
  by_cases before : e + (ds.length : Int) < 0
  · rw [if_pos before]
    refine ⟨⟨(-(e + (ds.length : Int))).toNat + 1, ?_⟩, ?_, ?_, .inl rfl⟩
    · rfl
    · rw [List.length_append, List.length_replicate]
      omega
    · rw [List.getLast?_append_of_ne_nil _ some]
  · rw [if_neg before, if_neg (by omega)]
    have inside : (e + (ds.length : Int)).toNat < ds.length := by omega
    have length : (ds.drop (e + (ds.length : Int)).toNat).length = (-e).toNat := by
      rw [List.length_drop]
      omega
    have last : (ds.drop (e + (ds.length : Int)).toNat).getLast? = ds.getLast? := by
      rw [List.getLast?_drop, if_neg (Nat.not_le.mpr inside)]
    by_cases none : ds.take (e + (ds.length : Int)).toNat = []
    · have start : (e + (ds.length : Int)).toNat = 0 :=
        (List.take_eq_nil_iff.mp none).resolve_right some
      rw [if_pos none]
      refine ⟨⟨1, ?_⟩, length, last, .inl rfl⟩
      rw [start]
      rfl
    · rw [if_neg none]
      refine ⟨⟨0, List.take_append_drop _ ds⟩, length, last, .inr ⟨none, ?_⟩⟩
      have count : (e + (ds.length : Int)).toNat ≠ 0 := fun he => none (by rw [he, List.take_zero])
      rw [List.head?_take, if_neg count]

/-- The digits of a reduced decimal are a numeral of its value. -/
theorem exists_numeral {x : FiniteDecimal} (reduced : Reduced x) :
    ∃ n : Numeral, n.text = formatFixed x ∧ n.negative = x.negative ∧ n.value = x.value := by
  obtain ⟨negative, c, e⟩ := x
  obtain ⟨zero, last⟩ := reduced
  dsimp only at zero last
  have exponent : (if c = 0 ∧ 0 < e then 0 else e) = e := by
    split_ifs with h
    · exact (zero h.1).symm
    · rfl
  have zeros : ∀ k, ∀ d ∈ List.replicate k '0', d.isDigit = true := by
    intro k d hd
    rw [List.eq_of_mem_replicate hd]
    rfl
  by_cases whole : 0 ≤ e
  · -- an integer: the digits, and as many zeros as the exponent says
    have parts := placed_of_nonneg (digits_ne_nil c) whole
    refine ⟨⟨negative, digits c ++ List.replicate e.toNat '0', [],
      List.append_ne_nil_of_left_ne_nil (digits_ne_nil c) _, ?_, fun leading => ?_,
      fun he => by cases he⟩, ?_, rfl, ?_⟩
    · rw [List.append_nil]
      exact List.forall_mem_append.mpr ⟨digits_isDigit c, zeros _⟩
    · rw [List.head?_append_of_ne_nil _ (digits_ne_nil c)] at leading
      have none : c = 0 := by
        by_contra some
        exact digits_head some leading
      rw [none, zero none]
      rfl
    · rw [Numeral.text, formatFixed]
      dsimp only
      rw [exponent, parts]
    · rw [Numeral.value, FiniteDecimal.value, FiniteDecimal.magnitude]
      dsimp only
      rw [List.append_nil, (ofDigitChars_digits c e.toNat).2, zpow_toNat whole, List.length_nil,
        pow_zero, div_one, Nat.cast_mul, Nat.cast_pow, Nat.cast_ofNat]
      ring
  · have below : e < 0 := not_le.mp whole
    have some : c ≠ 0 := fun he => last below (by rw [he])
    have point := placed_of_neg (digits_ne_nil c) below
    obtain ⟨count, joined⟩ := point.joined
    have fraction : (placed (digits c) e).2 ≠ [] := by
      intro none
      have length := point.length
      rw [none, List.length_nil] at length
      omega
    refine ⟨⟨negative, (placed (digits c) e).1, (placed (digits c) e).2, ?_, ?_, fun leading => ?_, ?_⟩,
      ?_, rfl, ?_⟩
    · rcases point.head with he | ⟨he, -⟩
      · rw [he]
        exact List.cons_ne_nil _ _
      · exact he
    · rw [joined]
      exact List.forall_mem_append.mpr ⟨zeros _, digits_isDigit c⟩
    · rcases point.head with he | ⟨-, he⟩
      · exact he
      · exact absurd (he ▸ leading) (digits_head some)
    · rw [point.last]
      exact digits_getLast (last below)
    · rw [Numeral.text, formatFixed]
      dsimp only
      rw [exponent]
    · rw [Numeral.value, FiniteDecimal.value, FiniteDecimal.magnitude]
      dsimp only
      rw [joined, (ofDigitChars_digits c count).1, point.length, zpow_neg_toNat below]
      ring

theorem rstrip_eq_self {c : Char} {text : Text} (h : text.getLast? ≠ some c) :
    rstrip c text = text := by
  rw [← List.head?_reverse] at h
  rw [rstrip]
  cases hreverse : text.reverse with
  | nil => rw [List.dropWhile_nil, ← hreverse, List.reverse_reverse]
  | cons d rest =>
    rw [hreverse, List.head?_cons, ne_eq, Option.some.injEq] at h
    rw [List.dropWhile_cons_of_neg (by simpa using h), ← hreverse, List.reverse_reverse]

/-- There is nothing to strip of a numeral. -/
theorem strip_numeral (n : Numeral) :
    (if '.' ∈ n.text then rstrip '.' (rstrip '0' n.text) else n.text) = n.text := by
  split_ifs with point
  · by_cases none : n.fraction = []
    · rw [Numeral.text, if_pos none, List.append_nil, List.mem_append] at point
      rcases point with sign | whole
      · rw [signText] at sign
        split_ifs at sign
        · exact absurd (List.mem_singleton.mp sign) (by decide)
        · cases sign
      · exact absurd (n.allDigits _ (List.mem_append_left _ whole)) (by decide)
    · have last : n.text.getLast? = n.fraction.getLast? := by
        rw [Numeral.text, if_neg none, List.getLast?_append_of_ne_nil _ (List.cons_ne_nil _ _),
          List.getLast?_cons_of_ne_nil none]
      have digit : n.fraction.getLast? ≠ some '.' := fun he =>
        absurd (n.allDigits _ (List.mem_append_right _ (List.mem_of_getLast? he))) (by decide)
      have kept : rstrip '0' n.text = n.text := rstrip_eq_self (last ▸ n.noTrailing)
      rw [kept, rstrip_eq_self (last ▸ digit)]
  · rfl

end Placement

section Normalizing

/-- Stripping keeps the value, and stops at a digit that is not zero. -/
theorem stripZeros_spec {fuel c : Nat} (e : Int) (some : c ≠ 0) (enough : c < 10 ^ fuel) :
    (stripZeros fuel c e).1 ≠ 0 ∧ e ≤ (stripZeros fuel c e).2 ∧
      ((stripZeros fuel c e).1 % 10 ≠ 0 ∨ emax ≤ (stripZeros fuel c e).2) ∧
      ((stripZeros fuel c e).1 : ℚ) * 10 ^ (stripZeros fuel c e).2 = c * 10 ^ e := by
  induction fuel generalizing c e with
  | zero =>
    rw [pow_zero, Nat.lt_one_iff] at enough
    exact absurd enough some
  | succ fuel ih =>
    rw [stripZeros]
    by_cases trailing : c % 10 = 0 ∧ e < emax
    · rw [if_pos trailing]
      have fewer : c / 10 < 10 ^ fuel := by
        rw [pow_succ] at enough
        omega
      obtain ⟨rest, more, stopped, value⟩ := ih (e + 1) (by omega) fewer
      refine ⟨rest, by omega, stopped, value.trans ?_⟩
      have whole : (c : ℚ) = 10 * (c / 10 : Nat) := by
        have same : c = 10 * (c / 10) := by omega
        exact_mod_cast same
      rw [whole, zpow_add_one₀ (by norm_num)]
      ring
    · rw [if_neg trailing]
      refine ⟨some, le_rfl, ?_, rfl⟩
      by_cases h : c % 10 = 0
      · exact .inr (not_lt.mp fun less => trailing ⟨h, less⟩)
      · exact .inl h

theorem roundHalfEven_le (c k : Nat) : roundHalfEven c k ≤ c / 10 ^ k + 1 := by
  rw [roundHalfEven]
  split_ifs
  · exact le_rfl
  · exact Nat.le_succ _

theorem roundHalfEven_of_dvd {c k : Nat} (h : 10 ^ k ∣ c) : roundHalfEven c k = c / 10 ^ k := by
  have positive : 0 < 10 ^ k := Nat.pow_pos (by decide)
  rw [roundHalfEven, Nat.mod_eq_zero_of_dvd h, if_neg (by omega)]

/-- Whether the context represents the decimal: no digit but zeros is below its last place. -/
def Representable (x : FiniteDecimal) : Prop :=
  x.coefficient = 0 ∨
    (precise x ≤ etop ∧ 10 ^ (expMin x - x.exponent).toNat ∣ x.coefficient)

/-- A coefficient that is rounded to the last place has no more digits than the precision, a carry
apart. -/
theorem rounded_le (x : FiniteDecimal) (below : x.exponent < expMin x) :
    roundHalfEven x.coefficient (expMin x - x.exponent).toNat ≤ 10 ^ prec ∧
      x.coefficient / 10 ^ (expMin x - x.exponent).toNat < 10 ^ prec := by
  have quotient : x.coefficient / 10 ^ (expMin x - x.exponent).toNat < 10 ^ prec := by
    refine (Nat.div_lt_iff_lt_mul (Nat.pow_pos (by decide))).mpr ?_
    rw [← pow_add]
    refine (lt_pow_digits x.coefficient).trans_le (Nat.pow_le_pow_right (by decide) ?_)
    have least : precise x ≤ expMin x := le_max_left _ _
    rw [precise] at least
    omega
  exact ⟨(roundHalfEven_le _ _).trans quotient, quotient⟩

theorem carry_value {c : Nat} (e : Int) (h : c ≤ 10 ^ prec) :
    ((carry c e).1 : ℚ) * 10 ^ (carry c e).2 = c * 10 ^ e := by
  rw [carry]
  split_ifs with long
  · have whole : c = 10 ^ prec := by
      refine le_antisymm h (not_lt.mp fun less => ?_)
      have short := (Nat.length_toDigits_le_iff (by decide) (by decide)).mpr less
      exact absurd long (Nat.not_lt.mpr short)
    rw [whole, zpow_add_one₀ (by norm_num)]
    norm_num [prec]
    ring
  · rfl

theorem expMin_split {x : FiniteDecimal} (below : x.exponent ≤ expMin x) :
    (10 : ℚ) ^ expMin x = 10 ^ (expMin x - x.exponent).toNat * 10 ^ x.exponent := by
  rw [← zpow_natCast, ← zpow_add₀ (by norm_num), Int.toNat_of_nonneg (by omega),
    Int.sub_add_cancel]

theorem rounded_magnitude_iff {x : FiniteDecimal} (below : x.exponent < expMin x) :
    (roundHalfEven x.coefficient (expMin x - x.exponent).toNat : ℚ) * 10 ^ expMin x = x.magnitude ↔
      10 ^ (expMin x - x.exponent).toNat ∣ x.coefficient := by
  have scale : (10 : ℚ) ^ x.exponent ≠ 0 := zpow_ne_zero _ (by norm_num)
  rw [expMin_split below.le, FiniteDecimal.magnitude, ← mul_assoc, mul_left_inj' scale]
  constructor
  · intro same
    have whole : roundHalfEven x.coefficient (expMin x - x.exponent).toNat *
        10 ^ (expMin x - x.exponent).toNat = x.coefficient := by exact_mod_cast same
    exact ⟨_, whole.symm.trans (Nat.mul_comm _ _)⟩
  · intro divides
    rw [roundHalfEven_of_dvd divides]
    exact_mod_cast Nat.div_mul_cancel divides

/-- Rounding to the context keeps the value of what the context represents, and of nothing else. -/
theorem fix_magnitude_iff {x y : FiniteDecimal} (some : x.coefficient ≠ 0) (h : fix x = .ok y) :
    y.negative = x.negative ∧ (y.magnitude = x.magnitude ↔ Representable x) := by
  rw [fix, if_neg some] at h
  by_cases large : etop < precise x
  · rw [if_pos large] at h
    cases h
  rw [if_neg large] at h
  by_cases below : x.exponent < expMin x
  · rw [if_pos below] at h
    dsimp only at h
    split_ifs at h
    obtain rfl := Except.ok.inj h
    refine ⟨rfl, ?_⟩
    rw [FiniteDecimal.magnitude, carry_value _ (rounded_le x below).1, rounded_magnitude_iff below,
      Representable, or_iff_right some, and_iff_right (not_lt.mp large)]
  · rw [if_neg below] at h
    obtain rfl := Except.ok.inj h
    have none : (expMin x - x.exponent).toNat = 0 := by omega
    refine ⟨rfl, iff_of_true rfl (.inr ⟨not_lt.mp large, ?_⟩)⟩
    rw [none, pow_zero]
    exact one_dvd _

theorem fix_of_representable {x : FiniteDecimal} (some : x.coefficient ≠ 0)
    (h : Representable x) : ∃ y, fix x = .ok y := by
  obtain ⟨small, divides⟩ := h.resolve_left some
  rw [fix, if_neg some, if_neg (not_lt.mpr small)]
  by_cases below : x.exponent < expMin x
  · have short : ¬prec < (digits (roundHalfEven x.coefficient
        (expMin x - x.exponent).toNat)).length := by
      rw [roundHalfEven_of_dvd divides, not_lt]
      exact (Nat.length_toDigits_le_iff (by decide) (by decide)).mpr (rounded_le x below).2
    have inside : expMin x ≤ etop := max_le small (by decide)
    rw [if_pos below, carry, if_neg short]
    dsimp only
    rw [if_neg (not_lt.mpr inside)]
    exact ⟨_, rfl⟩
  · rw [if_neg below]
    exact ⟨_, rfl⟩

/-- How a normalized decimal comes from the rounded one. -/
structure Normalized (x z : FiniteDecimal) : Prop where
  negative : z.negative = x.negative
  reduced : Reduced z
  exact_iff : z.magnitude = x.magnitude ↔ Representable x
  stopped : z.coefficient ≠ 0 → z.coefficient % 10 ≠ 0 ∨ emax ≤ z.exponent

theorem normalize_spec {x z : FiniteDecimal} (some : x.coefficient ≠ 0) (h : normalize x = .ok z) :
    Normalized x z := by
  obtain ⟨y, fixed, h⟩ := bind_ok h
  obtain ⟨negative, exact_iff⟩ := fix_magnitude_iff some fixed
  obtain rfl := Except.ok.inj h
  by_cases none : y.coefficient = 0
  · rw [if_pos none]
    have zero : FiniteDecimal.magnitude ⟨y.negative, 0, 0⟩ = y.magnitude := by
      simp [FiniteDecimal.magnitude, none]
    exact ⟨negative, ⟨fun _ => rfl, fun h => absurd h (lt_irrefl _)⟩, zero ▸ exact_iff,
      fun h => absurd rfl h⟩
  · rw [if_neg none]
    obtain ⟨rest, -, stopped, value⟩ := stripZeros_spec y.exponent none (lt_pow_digits y.coefficient)
    refine ⟨negative, ⟨fun zero => absurd zero rest, fun below => ?_⟩, ?_, fun _ => stopped⟩
    · refine stopped.resolve_right fun high => ?_
      dsimp only [emax] at below high
      omega
    · rw [← exact_iff, FiniteDecimal.magnitude, value]
      rfl

/-- What is represented is below the greatest power of ten. -/
theorem magnitude_lt {x : FiniteDecimal} (small : precise x ≤ etop) :
    x.magnitude < 10 ^ (emax + 1) := by
  have coefficient : (x.coefficient : ℚ) < 10 ^ ((digits x.coefficient).length : Int) := by
    rw [zpow_natCast]
    exact_mod_cast lt_pow_digits x.coefficient
  have scale : (0 : ℚ) < 10 ^ x.exponent := zpow_pos (by norm_num) _
  calc x.magnitude < 10 ^ ((digits x.coefficient).length : Int) * 10 ^ x.exponent :=
        mul_lt_mul_of_pos_right coefficient scale
    _ = 10 ^ (((digits x.coefficient).length : Int) + x.exponent) :=
        (zpow_add₀ (by norm_num) _ _).symm
    _ ≤ 10 ^ (emax + 1) := by
        refine zpow_le_zpow_right₀ (by norm_num) ?_
        rw [precise, etop] at small
        omega

/-- A normalized decimal that is represented ends in a digit other than zero. -/
theorem Normalized.canonical {x z : FiniteDecimal} (h : Normalized x z) (some : x.coefficient ≠ 0)
    (represented : Representable x) : z.coefficient % 10 ≠ 0 := by
  intro zero
  have same := h.exact_iff.mpr represented
  have scale : ∀ e : Int, (0 : ℚ) < 10 ^ e := fun e => zpow_pos (by norm_num) e
  have nonzero : z.coefficient ≠ 0 := by
    intro none
    rw [FiniteDecimal.magnitude, FiniteDecimal.magnitude, none, Nat.cast_zero, zero_mul] at same
    have positive : (0 : ℚ) < x.coefficient * 10 ^ x.exponent :=
      mul_pos (by exact_mod_cast Nat.pos_of_ne_zero some) (scale _)
    exact positive.ne same
  have high := (h.stopped nonzero).resolve_left (not_not.mpr zero)
  have ten : (10 : ℚ) ≤ z.coefficient := by
    have least : 10 ≤ z.coefficient := by omega
    exact_mod_cast least
  have less := magnitude_lt (represented.resolve_left some).1
  rw [← same] at less
  refine absurd less (not_lt.mpr ?_)
  calc (10 : ℚ) ^ (emax + 1) = 10 * 10 ^ emax := by rw [zpow_add_one₀ (by norm_num), mul_comm]
    _ ≤ z.coefficient * 10 ^ z.exponent :=
        mul_le_mul ten (zpow_le_zpow_right₀ (by norm_num) high) (scale _).le (by positivity)

/-- A value has one coefficient without a trailing zero. -/
theorem canonical_unique {c d : Nat} {e f : Int} (hc : c % 10 ≠ 0) (hd : d % 10 ≠ 0)
    (h : (c : ℚ) * 10 ^ e = d * 10 ^ f) : c = d ∧ e = f := by
  have coarser : ∀ {c d : Nat} {e f : Int}, c % 10 ≠ 0 → (c : ℚ) * 10 ^ e = d * 10 ^ f → f ≤ e := by
    intro c d e f hc h
    by_contra less
    have scale : (10 : ℚ) ^ e ≠ 0 := zpow_ne_zero _ (by norm_num)
    have split : (10 : ℚ) ^ f = 10 ^ (f - e).toNat * 10 ^ e := by
      rw [← zpow_natCast, ← zpow_add₀ (by norm_num), Int.toNat_of_nonneg (by omega),
        Int.sub_add_cancel]
    rw [split, ← mul_assoc, mul_left_inj' scale] at h
    have whole : c = d * 10 ^ (f - e).toNat := by exact_mod_cast h
    obtain ⟨k, hk⟩ : ∃ k, (f - e).toNat = k + 1 := ⟨(f - e).toNat - 1, by omega⟩
    rw [whole, hk, pow_succ, ← Nat.mul_assoc, Nat.mul_mod_left] at hc
    exact hc rfl
  have same : e = f := le_antisymm (coarser hd h.symm) (coarser hc h)
  rw [same, mul_left_inj' (zpow_ne_zero _ (by norm_num))] at h
  exact ⟨by exact_mod_cast h, same⟩

end Normalizing

section Cells

variable {x y : FiniteDecimal} {text : Text}

theorem magnitude_eq_zero_iff : x.magnitude = 0 ↔ x.coefficient = 0 := by
  rw [FiniteDecimal.magnitude, mul_eq_zero, or_iff_left (zpow_ne_zero _ (by norm_num)),
    Nat.cast_eq_zero]

theorem signValue_ne_zero (negative : Bool) : signValue negative ≠ 0 := by
  cases negative <;> norm_num [signValue]

theorem value_eq_zero_iff : x.value = 0 ↔ x.coefficient = 0 := by
  rw [FiniteDecimal.value, mul_eq_zero, or_iff_right (signValue_ne_zero _), magnitude_eq_zero_iff]

/-- The numeral of a zero keeps its sign. -/
def zeroNumeral (negative : Bool) : Numeral :=
  ⟨negative, ['0'], [], List.cons_ne_nil _ _, List.all_eq_true.mp (by decide), fun _ => rfl,
    by decide⟩

theorem canonicalDecimal_zero (zero : x.coefficient = 0) :
    canonicalDecimal (.finite x) = .ok (zeroNumeral x.negative).text := by
  rw [canonicalDecimal, if_pos zero]
  cases x.negative <;> rfl

theorem canonicalDecimal_ok_iff (some : x.coefficient ≠ 0) :
    canonicalDecimal (.finite x) = .ok text ↔
      ∃ z, normalize x = .ok z ∧ formatFixed z = text := by
  rw [canonicalDecimal, if_neg some, bind_ok_iff]
  refine exists_congr fun z => and_congr_right fun h => ?_
  obtain ⟨n, rendered, -⟩ := exists_numeral (normalize_spec some h).reduced
  dsimp only
  rw [← rendered, strip_numeral]
  exact ⟨Except.ok.inj, congrArg _⟩

/-- The text is a plain numeral of exactly the value. -/
def EncodesExactly (x : FiniteDecimal) (text : Text) : Prop :=
  ∃ n : Numeral, n.text = text ∧ n.value = x.value

theorem value_eq_iff {z : FiniteDecimal} (h : Normalized x z) :
    z.value = x.value ↔ Representable x := by
  rw [FiniteDecimal.value, FiniteDecimal.value, h.negative,
    mul_right_inj' (signValue_ne_zero _), h.exact_iff]

theorem encodesExactly_iff :
    (∃ text, canonicalDecimal (.finite x) = .ok text ∧ EncodesExactly x text) ↔
      Representable x := by
  by_cases zero : x.coefficient = 0
  · refine iff_of_true ⟨_, canonicalDecimal_zero zero, _, rfl, ?_⟩ (.inl zero)
    rw [value_eq_zero_iff.mpr zero, Numeral.value]
    simp [zeroNumeral, Nat.ofDigitChars_eq_foldl]
  constructor
  · rintro ⟨text, encoded, n, rendered, value⟩
    obtain ⟨z, normalized, formatted⟩ := (canonicalDecimal_ok_iff zero).mp encoded
    have spec := normalize_spec zero normalized
    obtain ⟨m, same, -, value'⟩ := exists_numeral spec.reduced
    have texts : m.text = n.text := by rw [same, formatted, rendered]
    rw [← value_eq_iff spec, ← value', ← value, Numeral.value_eq_of_text texts]
  · intro represented
    obtain ⟨fixed, hfixed⟩ := fix_of_representable zero represented
    obtain ⟨z, normalized⟩ : ∃ z, normalize x = .ok z := by
      rw [normalize, hfixed]
      exact ⟨_, rfl⟩
    have spec := normalize_spec zero normalized
    obtain ⟨m, same, -, value⟩ := exists_numeral spec.reduced
    exact ⟨_, (canonicalDecimal_ok_iff zero).mpr ⟨z, normalized, rfl⟩, m, same,
      value.trans ((value_eq_iff spec).mpr represented)⟩

/-- The sign of a zero shows in its text, and every other value has one text. -/
theorem text_eq_iff (hx : Representable x) (hy : Representable y) {text' : Text}
    (encoded : canonicalDecimal (.finite x) = .ok text)
    (encoded' : canonicalDecimal (.finite y) = .ok text') (exact : EncodesExactly x text)
    (exact' : EncodesExactly y text') :
    text = text' ↔ x.value = y.value ∧ (x.value = 0 → x.negative = y.negative) := by
  have signs : ∀ {z : FiniteDecimal}, z.coefficient ≠ 0 → (z.value < 0 ↔ z.negative = true) := by
    intro z some
    have positive : 0 < z.magnitude := mul_pos (by exact_mod_cast Nat.pos_of_ne_zero some)
      (zpow_pos (by norm_num) _)
    rw [FiniteDecimal.value, signValue]
    cases z.negative
    · exact iff_of_false (by rw [if_neg Bool.false_ne_true, one_mul]; exact positive.le.not_gt)
        Bool.false_ne_true
    · exact iff_of_true (by rw [if_pos rfl]; linarith) rfl
  constructor
  · rintro rfl
    obtain ⟨n, rendered, value⟩ := exact
    obtain ⟨m, rendered', value'⟩ := exact'
    have values := Numeral.value_eq_of_text (rendered.trans rendered'.symm)
    rw [value, value'] at values
    refine ⟨values, fun zero => ?_⟩
    rw [canonicalDecimal_zero (value_eq_zero_iff.mp zero)] at encoded
    rw [canonicalDecimal_zero (value_eq_zero_iff.mp (values ▸ zero))] at encoded'
    exact (Numeral.text_injective ((Except.ok.inj encoded).trans (Except.ok.inj encoded').symm)).1
  · rintro ⟨values, zeros⟩
    by_cases zero : x.coefficient = 0
    · have none := value_eq_zero_iff.mpr zero
      rw [canonicalDecimal_zero zero] at encoded
      rw [canonicalDecimal_zero (value_eq_zero_iff.mp (values ▸ none)), ← zeros none] at encoded'
      exact (Except.ok.inj encoded).symm.trans (Except.ok.inj encoded')
    · have zero' : y.coefficient ≠ 0 := fun he =>
        zero (value_eq_zero_iff.mp (values.trans (value_eq_zero_iff.mpr he)))
      obtain ⟨z, normalized, rfl⟩ := (canonicalDecimal_ok_iff zero).mp encoded
      obtain ⟨w, normalized', rfl⟩ := (canonicalDecimal_ok_iff zero').mp encoded'
      have spec := normalize_spec zero normalized
      have spec' := normalize_spec zero' normalized'
      have negative : x.negative = y.negative := by
        have alike := (signs zero).symm.trans ((by rw [values] : x.value < 0 ↔ y.value < 0).trans
          (signs zero'))
        exact Bool.eq_iff_iff.mpr alike
      have magnitudes : z.magnitude = w.magnitude := by
        rw [spec.exact_iff.mpr hx, spec'.exact_iff.mpr hy]
        rw [FiniteDecimal.value, FiniteDecimal.value, negative] at values
        exact mul_left_cancel₀ (signValue_ne_zero _) values
      obtain ⟨coefficient, exponent⟩ := canonical_unique (spec.canonical zero hx)
        (spec'.canonical zero' hy) magnitudes
      have same : z = w := by
        obtain ⟨_, _, _⟩ := z
        obtain ⟨_, _, _⟩ := w
        simp only [FiniteDecimal.mk.injEq]
        exact ⟨(spec.negative.trans negative).trans spec'.negative.symm, coefficient, exponent⟩
      rw [same]

/-- What an exact oracle promises of two decimals. -/
def ExactPair (x y : FiniteDecimal) : Prop :=
  ∃ text text', canonicalDecimal (.finite x) = .ok text ∧
    canonicalDecimal (.finite y) = .ok text' ∧
    (text = text' ↔ x.value = y.value ∧ (x.value = 0 → x.negative = y.negative)) ∧
    EncodesExactly x text ∧ EncodesExactly y text'

/-- Cells are encoded exactly if the context represents both decimals, and only then. -/
theorem exactPair_iff (x y : FiniteDecimal) :
    ExactPair x y ↔ Representable x ∧ Representable y := by
  constructor
  · rintro ⟨text, text', encoded, encoded', -, exact, exact'⟩
    exact ⟨encodesExactly_iff.mp ⟨text, encoded, exact⟩, encodesExactly_iff.mp ⟨text', encoded', exact'⟩⟩
  · rintro ⟨hx, hy⟩
    obtain ⟨text, encoded, exact⟩ := encodesExactly_iff.mpr hx
    obtain ⟨text', encoded', exact'⟩ := encodesExactly_iff.mpr hy
    exact ⟨text, text', encoded, encoded', text_eq_iff hx hy encoded encoded' exact exact', exact,
      exact'⟩

/-- One, and one with a digit in the twenty-ninth place. -/
theorem canonicalDecimal_rounds_away :
    canonicalDecimal (.finite ⟨false, 1, 0⟩) = .ok ['1'] ∧
    canonicalDecimal (.finite ⟨false, 10 ^ 28 + 1, -28⟩) = .ok ['1'] ∧
    FiniteDecimal.value ⟨false, 1, 0⟩ ≠ FiniteDecimal.value ⟨false, 10 ^ 28 + 1, -28⟩ := by
  refine ⟨by decide +kernel, by decide +kernel, ?_⟩
  norm_num [FiniteDecimal.value, FiniteDecimal.magnitude, signValue]

end Cells

end CanonicalDecimal
