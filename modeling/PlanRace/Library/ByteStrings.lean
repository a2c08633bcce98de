import PlanRace.Library.JsonText

/-!
# Byte strings: UTF-8, big-endian lengths, hexadecimal text and framing

A frame writes the length of a domain label, the label, the length of the
payload and the payload. Both lengths have a fixed width, so a frame
determines its label and its payload.
-/

namespace ByteStrings

open UniqueReadability LexOrder JsonText

abbrev Bytes := List UInt8

section Utf8

/-- `text.encode("utf-8")`. -/
def utf8 (s : Text) : Bytes := s.flatMap String.utf8EncodeChar

theorem utf8EncodeChar_prefixFree : PrefixFree String.utf8EncodeChar := by
  intro a b s t he
  have hbytes : (String.utf8EncodeChar a).toByteArray ++ s.toByteArray =
      (String.utf8EncodeChar b).toByteArray ++ t.toByteArray := by
    rw [← List.toByteArray_append, he, List.toByteArray_append]
  have hdecode := ByteArray.utf8DecodeChar?_utf8EncodeChar_append (b := s.toByteArray) (c := a)
  rw [hbytes, ByteArray.utf8DecodeChar?_utf8EncodeChar_append] at hdecode
  obtain rfl := Option.some.inj hdecode
  exact ⟨rfl, List.append_cancel_left he⟩

theorem utf8_injective : Function.Injective utf8 := by
  intro s t he
  have fresh : ∀ (c : Char) (r : Bytes), ¬ String.utf8EncodeChar c ++ r = [] := by
    intro c r h
    exact String.utf8EncodeChar_ne_nil (List.append_eq_nil_iff.mp h).1
  exact (utf8EncodeChar_prefixFree.flatMap_append (fun w => w = []) fresh s t [] []
    rfl rfl (by simpa [utf8] using he)).1

end Utf8

section Framing

/-- `n.to_bytes(width, "big")` for numbers that fit. -/
def toBytesBig (n : Nat) : Nat → Bytes
  | 0 => []
  | width + 1 => UInt8.ofNat (n / 256 ^ width % 256) :: toBytesBig n width

@[simp] theorem length_toBytesBig (n width : Nat) : (toBytesBig n width).length = width := by
  induction width with
  | zero => rfl
  | succ width ih => rw [toBytesBig, List.length_cons, ih]

theorem toBytesBig_injective {width n m : Nat} (hn : n < 256 ^ width) (hm : m < 256 ^ width)
    (he : toBytesBig n width = toBytesBig m width) : n = m := by
  have digits : ∀ w, toBytesBig n w = toBytesBig m w → n % 256 ^ w = m % 256 ^ w := by
    intro w
    induction w with
    | zero => simp [Nat.mod_one]
    | succ w ih =>
      intro h
      obtain ⟨hhead, htail⟩ := List.cons.inj h
      have hdigit : n / 256 ^ w % 256 = m / 256 ^ w % 256 := by
        have h256 := congrArg UInt8.toNat hhead
        simpa [Nat.mod_mod] using h256
      rw [Nat.pow_succ, Nat.mod_mul, Nat.mod_mul, ih htail, hdigit]
  rw [← Nat.mod_eq_of_lt hn, digits width he, Nat.mod_eq_of_lt hm]

/-- Length-delimited label and payload. -/
def frame (label payload : Bytes) : Bytes :=
  toBytesBig label.length 2 ++ label ++ toBytesBig payload.length 8 ++ payload

theorem frame_injective {l₁ l₂ p₁ p₂ : Bytes} (h₁ : l₁.length < 65536)
    (h₂ : l₂.length < 65536) (he : frame l₁ p₁ = frame l₂ p₂) : l₁ = l₂ ∧ p₁ = p₂ := by
  simp only [frame, List.append_assoc] at he
  obtain ⟨hlen, hrest⟩ := List.append_inj he (by simp)
  have hlabels := toBytesBig_injective (by simpa using h₁) (by simpa using h₂) hlen
  obtain ⟨hlabel, hpayload⟩ := List.append_inj hrest hlabels
  exact ⟨hlabel, (List.append_inj hpayload (by simp)).2⟩

end Framing

section Hex

/-- `data.hex()`. -/
def hexText (data : Bytes) : Text :=
  data.flatMap fun b => [hexDigit (b.toNat / 16), hexDigit (b.toNat % 16)]

theorem hexValue_hexDigit {n : Nat} (hn : n < 16) : hexValue (hexDigit n) = n := by
  interval_cases n <;> rfl

theorem hexByte_injective :
    Function.Injective fun b : UInt8 => [hexDigit (b.toNat / 16), hexDigit (b.toNat % 16)] := by
  intro a b he
  have ha := a.toNat_lt
  have hb := b.toNat_lt
  simp only [List.cons.injEq, and_true] at he
  have hhigh := congrArg hexValue he.1
  have hlow := congrArg hexValue he.2
  rw [hexValue_hexDigit (by omega), hexValue_hexDigit (by omega)] at hhigh hlow
  exact UInt8.toNat_inj.mp (by omega)

theorem hexText_injective : Function.Injective hexText := by
  intro xs ys he
  have hbytes := prefixFree_of_length 2 (fun _ => rfl) hexByte_injective
  exact (hbytes.flatMap_append (fun w => w = []) (fun _ _ h => by cases h) xs ys [] []
    rfl rfl (by simpa [hexText] using he)).1

/-- A lower-case hexadecimal digit. -/
def isHexDigit (c : Char) : Bool := "0123456789abcdef".toList.contains c

theorem isHexDigit_hexDigit {n : Nat} (hn : n < 16) : isHexDigit (hexDigit n) = true := by
  interval_cases n <;> rfl

theorem hexText_all (data : Bytes) : (hexText data).all isHexDigit = true := by
  rw [List.all_eq_true]
  intro c hc
  obtain ⟨b, _, hb⟩ := List.mem_flatMap.mp hc
  have hlt := b.toNat_lt
  simp only [List.mem_cons, List.not_mem_nil, or_false] at hb
  rcases hb with rfl | rfl
  · exact isHexDigit_hexDigit (by omega)
  · exact isHexDigit_hexDigit (by omega)

@[simp] theorem length_hexText (data : Bytes) : (hexText data).length = 2 * data.length := by
  induction data with
  | nil => rfl
  | cons b data ih =>
    simp only [hexText, List.flatMap_cons, List.length_append, List.length_cons,
      List.length_nil] at ih ⊢
    omega

/-- `bytes.fromhex`, for a text of hexadecimal digits of even length. -/
def fromHex : Text → Bytes
  | high :: low :: rest => UInt8.ofNat (16 * hexValue high + hexValue low) :: fromHex rest
  | _ => []

theorem fromHex_hexText (data : Bytes) : fromHex (hexText data) = data := by
  induction data with
  | nil => rfl
  | cons b data ih =>
    have hlt := b.toNat_lt
    have hvalue : 16 * (b.toNat / 16) + b.toNat % 16 = b.toNat := by omega
    simp only [hexText, List.flatMap_cons, List.cons_append, List.nil_append, fromHex] at ih ⊢
    rw [hexValue_hexDigit (by omega), hexValue_hexDigit (by omega), hvalue, ih]
    simp

end Hex

end ByteStrings
