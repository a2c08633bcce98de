import PlanRace.Library.ByteStrings

/-!
# Hexadecimal text of binary64 numbers

A number is its sign, its biased exponent and its fraction. A finite number
is written with all thirteen hexadecimal digits of its fraction and the
decimal exponent, zero in a short form of its own, and the text determines
the number with its sign.
-/

namespace FloatHex

open JsonText ByteStrings

/-- The fields of an IEEE-754 binary64 value. -/
structure Double where
  negative : Bool
  exponent : Nat
  fraction : Nat
  exponentBound : exponent < 2048
  fractionBound : fraction < 16 ^ 13
deriving DecidableEq

namespace Double

def isNan (d : Double) : Bool := decide (d.exponent = 2047) && decide (d.fraction ≠ 0)

def isInf (d : Double) : Bool := decide (d.exponent = 2047) && decide (d.fraction = 0)

end Double

/-- The last `width` hexadecimal digits of a number. -/
def hexDigits (n : Nat) : Nat → Text
  | 0 => []
  | width + 1 => hexDigits (n / 16) width ++ [hexDigit (n % 16)]

@[simp] theorem length_hexDigits (n width : Nat) : (hexDigits n width).length = width := by
  induction width generalizing n with
  | zero => rfl
  | succ width ih => simp [hexDigits, ih]

theorem hexDigits_injective {n m width : Nat} (hn : n < 16 ^ width) (hm : m < 16 ^ width)
    (he : hexDigits n width = hexDigits m width) : n = m := by
  induction width generalizing n m with
  | zero => simp at hn hm; omega
  | succ width ih =>
    obtain ⟨hhigh, hlow⟩ := List.append_inj he (by simp)
    have hdigit := congrArg hexValue (List.singleton_inj.mp hlow)
    rw [hexValue_hexDigit (by omega), hexValue_hexDigit (by omega)] at hdigit
    rw [Nat.pow_succ] at hn hm
    have hquotient := ih (n := n / 16) (m := m / 16) (by omega) (by omega) hhigh
    omega

def signText (negative : Bool) : Text := if negative then ['-'] else []

/-- The power of two: an explicit sign and a decimal numeral. -/
def exponentText (e : Int) : Text :=
  (if e < 0 then '-' else '+') :: Nat.toDigits 10 e.natAbs

/-- What stands behind `0x`. -/
def magnitudeText (d : Double) : Text :=
  if d.exponent = 0 then
    if d.fraction = 0 then "0.0p+0".toList
    else '0' :: '.' :: (hexDigits d.fraction 13 ++ "p-1022".toList)
  else '1' :: '.' :: (hexDigits d.fraction 13 ++ 'p' :: exponentText (d.exponent - 1023))

/-- `float.hex`, for finite numbers. -/
def floatHex (d : Double) : Text := signText d.negative ++ '0' :: 'x' :: magnitudeText d

theorem exponentText_injective {e f : Int} (h : exponentText e = exponentText f) : e = f := by
  obtain ⟨hsign, hdigits⟩ := List.cons.inj h
  have habs : e.natAbs = f.natAbs := by
    rw [← Nat.ofDigitChars_ten_toDigits (n := e.natAbs), hdigits, Nat.ofDigitChars_ten_toDigits]
  by_cases he : e < 0 <;> by_cases hf : f < 0 <;> simp [he, hf] at hsign <;> omega

/-- The exponent and the fraction can be read off. -/
theorem magnitudeText_injective {c d : Double} (h : magnitudeText c = magnitudeText d) :
    c.exponent = d.exponent ∧ c.fraction = d.fraction := by
  unfold magnitudeText at h
  by_cases hc : c.exponent = 0 <;> by_cases hd : d.exponent = 0
  · by_cases hc' : c.fraction = 0 <;> by_cases hd' : d.fraction = 0
    · exact ⟨hc.trans hd.symm, hc'.trans hd'.symm⟩
    · rw [if_pos hc, if_pos hc', if_pos hd, if_neg hd'] at h
      have hlength := congrArg List.length h
      simp at hlength
    · rw [if_pos hc, if_neg hc', if_pos hd, if_pos hd'] at h
      have hlength := congrArg List.length h
      simp at hlength
    · rw [if_pos hc, if_neg hc', if_pos hd, if_neg hd'] at h
      simp only [List.cons.injEq, true_and] at h
      exact ⟨hc.trans hd.symm, hexDigits_injective c.fractionBound d.fractionBound
        (List.append_inj h (by simp)).1⟩
  · rw [if_pos hc, if_neg hd] at h
    split_ifs at h <;> exact absurd (List.cons.inj h).1 (by decide)
  · rw [if_neg hc, if_pos hd] at h
    split_ifs at h <;> exact absurd (List.cons.inj h).1 (by decide)
  · rw [if_neg hc, if_neg hd] at h
    simp only [List.cons.injEq, true_and] at h
    obtain ⟨hfraction, hexponent⟩ := List.append_inj h (by simp)
    have hpower := exponentText_injective (List.cons.inj hexponent).2
    exact ⟨by omega, hexDigits_injective c.fractionBound d.fractionBound hfraction⟩

theorem floatHex_injective {c d : Double} (h : floatHex c = floatHex d) : c = d := by
  have fields : c.negative = d.negative ∧ magnitudeText c = magnitudeText d := by
    unfold floatHex signText at h
    cases hc : c.negative <;> cases hd : d.negative <;> simp_all
  obtain ⟨hexponent, hfraction⟩ := magnitudeText_injective fields.2
  cases c
  cases d
  cases fields.1
  cases hexponent
  cases hfraction
  rfl

/-- The texts of finite numbers are not those of the special values. -/
theorem floatHex_ne {d : Double} {c : Char} {rest : Text} (hc : c ≠ '0') (hrest : ∀ r, rest ≠ '0' :: r) :
    floatHex d ≠ c :: rest := by
  intro h
  unfold floatHex signText at h
  cases hd : d.negative with
  | false =>
    simp only [hd, Bool.false_eq_true, if_false, List.nil_append, List.cons.injEq] at h
    exact hc h.1.symm
  | true =>
    simp only [hd, if_true, List.cons_append, List.nil_append, List.cons.injEq] at h
    exact hrest _ h.2.symm

example : floatHex ⟨true, 0, 0, by decide, by decide⟩ = "-0x0.0p+0".toList := by decide

end FloatHex
