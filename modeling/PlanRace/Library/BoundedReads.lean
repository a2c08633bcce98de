import PlanRace.Library.JsonText

/-!
# Bounded reads of a stream

A reader adds up the lengths of the chunks it is handed, refuses as soon as
they pass a limit, and joins what it has kept at the end. The chunks of a
stream are an accident of the transport: only their concatenation matters. The
length that a peer announces is decimal text, read as Python reads it.
-/

namespace BoundedReads

open JsonText

section Chunks

variable {α ε : Type}

/-- What a reader keeps between two chunks. -/
structure Reading (α : Type) where
  total : Nat
  chunks : List (List α)

/-- One round of the loop over the chunks. -/
def readChunk (limit : Int) (tooLarge : ε) (reading : Reading α) (chunk : List α) :
    Except ε (Reading α) :=
  let total := reading.total + chunk.length
  if limit < total then .error tooLarge else .ok ⟨total, reading.chunks ++ [chunk]⟩

def readBounded (limit : Int) (tooLarge : ε) (chunks : List (List α)) : Except ε (List α) := do
  let reading ← chunks.foldlM (readChunk limit tooLarge) ⟨0, []⟩
  return reading.chunks.flatten

variable {limit : Int} {tooLarge : ε}

/-- The total is the length of what has been kept. -/
def Counted (reading : Reading α) : Prop := reading.total = reading.chunks.flatten.length

theorem counted_concat {reading : Reading α} (h : Counted reading) (chunk : List α) :
    Counted ⟨reading.total + chunk.length, reading.chunks ++ [chunk]⟩ := by
  simp only [Counted, List.flatten_append, List.flatten_singleton, List.length_append]
  exact congrArg (· + chunk.length) h

theorem foldlM_readChunk {reading : Reading α} (counted : Counted reading) (chunks : List (List α))
    (within : (reading.total : Int) ≤ limit) :
    chunks.foldlM (readChunk limit tooLarge) reading =
      if limit < ((reading.chunks ++ chunks).flatten.length : Nat) then .error tooLarge
      else .ok ⟨(reading.chunks ++ chunks).flatten.length, reading.chunks ++ chunks⟩ := by
  induction chunks generalizing reading with
  | nil =>
    rw [List.append_nil, ← counted, if_neg (Int.not_lt.mpr within)]
    rfl
  | cons chunk rest ih =>
    rw [List.foldlM_cons]
    unfold readChunk
    by_cases excess : limit < ((reading.total + chunk.length : Nat) : Int)
    · have beyond : limit < ((reading.chunks ++ chunk :: rest).flatten.length : Nat) := by
        simp only [List.flatten_append, List.flatten_cons, List.length_append]
        rw [counted] at excess
        omega
      rw [if_pos excess, if_pos beyond]
      rfl
    · have step := ih (counted_concat counted chunk) (Int.not_lt.mp excess)
      simp only [List.append_assoc, List.singleton_append] at step
      rw [if_neg excess]
      exact step

/-- A bounded read depends on the concatenation of the chunks alone. -/
theorem readBounded_eq (nonneg : 0 ≤ limit) (chunks : List (List α)) :
    readBounded limit tooLarge chunks =
      if limit < (chunks.flatten.length : Nat) then .error tooLarge else .ok chunks.flatten := by
  rw [readBounded, @foldlM_readChunk _ _ limit tooLarge ⟨0, []⟩ rfl chunks nonneg, List.nil_append]
  split_ifs
  · rfl
  · rfl

theorem readBounded_ok_iff (nonneg : 0 ≤ limit) {chunks : List (List α)} {data : List α} :
    readBounded limit tooLarge chunks = .ok data ↔
      chunks.flatten = data ∧ (data.length : Int) ≤ limit := by
  rw [readBounded_eq nonneg]
  split_ifs with excess
  · constructor
    · intro h
      cases h
    · rintro ⟨rfl, within⟩
      omega
  · constructor
    · intro h
      obtain rfl := Except.ok.inj h
      exact ⟨rfl, Int.not_lt.mp excess⟩
    · rintro ⟨rfl, -⟩
      rfl

end Chunks

section Integers

/-- White space below U+0100. -/
def isSpace (c : Char) : Bool := decide (c.toNat ∈ [9, 10, 11, 12, 13, 28, 29, 30, 31, 32, 133, 160])

def strip (text : Text) : Text := ((text.dropWhile isSpace).reverse.dropWhile isSpace).reverse

/-- Decimal digits, with single underscores between them. -/
def readDigits : Text → Option Text
  | [] => none
  | [c] => if c.isDigit then some [c] else none
  | c :: '_' :: rest => if c.isDigit then (readDigits rest).map (c :: ·) else none
  | c :: rest => if c.isDigit then (readDigits rest).map (c :: ·) else none

/-- `sys.get_int_max_str_digits()`. -/
def maxStrDigits : Nat := 4300

def unsignedInt (text : Text) : Option Int :=
  match readDigits text with
  | some digits =>
    if digits.length ≤ maxStrDigits then some (Nat.ofDigitChars 10 digits 0 : Nat) else none
  | none => none

/-- `int(text)` of characters below U+0100, none where it raises a `ValueError`. -/
def parseInt (text : Text) : Option Int :=
  match strip text with
  | '-' :: digits => (unsignedInt digits).map fun n => -n
  | '+' :: digits => unsignedInt digits
  | digits => unsignedInt digits

theorem isSpace_of_isDigit {c : Char} (h : c.isDigit = true) : isSpace c = false := by
  have range := Char.isDigit_iff_toNat.mp h
  have zero : '0'.toNat = 48 := rfl
  have nine : '9'.toNat = 57 := rfl
  simp only [isSpace, List.mem_cons, List.not_mem_nil, or_false, decide_eq_false_iff_not]
  omega

theorem strip_digits {digits : Text} (h : ∀ c ∈ digits, c.isDigit = true) : strip digits = digits := by
  have keep : ∀ {cs : Text}, (∀ c ∈ cs, c.isDigit = true) → cs.dropWhile isSpace = cs := by
    intro cs hcs
    cases cs with
    | nil => rfl
    | cons c rest =>
      rw [List.dropWhile_cons, isSpace_of_isDigit (hcs c List.mem_cons_self), if_neg Bool.false_ne_true]
  have back : ∀ c ∈ digits.reverse, c.isDigit = true := fun c hc => h c (List.mem_reverse.mp hc)
  rw [strip, keep h, keep back, List.reverse_reverse]

theorem readDigits_digits {digits : Text} (some : digits ≠ []) (h : ∀ c ∈ digits, c.isDigit = true) :
    readDigits digits = .some digits := by
  induction digits using readDigits.induct with
  | case1 => exact absurd rfl some
  | case2 c own => rw [readDigits, if_pos own]
  | case3 c own => exact absurd (h c List.mem_cons_self) own
  | case4 c rest _ _ => exact absurd (h '_' (by simp)) (by decide)
  | case5 c rest _ => exact absurd (h '_' (by simp)) (by decide)
  | case6 c rest nonempty other own ih =>
    have later := ih (fun he => nonempty he) fun d hd => h d (List.mem_cons_of_mem _ hd)
    rw [readDigits, if_pos own, later]
    · rfl
    · exact nonempty
    · exact other
  | case7 c rest nonempty other own => exact absurd (h c List.mem_cons_self) own

/-- The text of a number is read back. -/
theorem parseInt_toDigits {n : Nat} (short : (Nat.toDigits 10 n).length ≤ maxStrDigits) :
    parseInt (Nat.toDigits 10 n) = some n := by
  have digits : ∀ c ∈ Nat.toDigits 10 n, c.isDigit = true := fun c hc =>
    Nat.isDigit_of_mem_toDigits (by decide) (by decide) hc
  have read : unsignedInt (Nat.toDigits 10 n) = some (n : Int) := by
    rw [unsignedInt, readDigits_digits Nat.toDigits_ne_nil digits]
    dsimp only
    rw [if_pos short, Nat.ofDigitChars_ten_toDigits]
  unfold parseInt
  rw [strip_digits digits]
  split
  · rename_i rest he
    exact absurd (digits '-' (he ▸ List.mem_cons_self)) (by decide)
  · rename_i rest he
    exact absurd (digits '+' (he ▸ List.mem_cons_self)) (by decide)
  · exact read

end Integers

end BoundedReads
