import PlanRace.CanonicalJson
import PlanRace.Library.AsciiJson
import PlanRace.Library.PythonObjects
import PlanRace.Library.Fallible

/-!
# The logical fixture digest binds every cell

Both relations are hashed as one stream of rows. A row is framed by its length and
carries the name of its relation, so the stream is read back row by row.
-/

namespace FixtureDigest

open UniqueReadability LexOrder JsonText ByteStrings Sha256 CanonicalJson AsciiJson PythonObjects
  Fallible

section Cells

def isNumeralChar (c : Char) : Bool := c.isDigit || ['-', '+', '.', 'e'].contains c

/-- `repr` on finite floats. -/
structure FloatRepr (F : Type) where
  text : F → Text
  injective : Function.Injective text
  numeral : ∀ x, ∀ c ∈ text x, isNumeralChar c = true
  /-- No float is printed like an integer. -/
  fractional : ∀ x, '.' ∈ text x ∨ 'e' ∈ text x

inductive LogicalCell (F : Type) where
  | null
  | integer (value : Int)
  | real (value : F)
  | text (value : Text)
deriving DecidableEq

abbrev Row (F : Type) := List (LogicalCell F)

variable {F : Type}

def cellText (repr : FloatRepr F) : LogicalCell F → Text
  | .null => "null".toList
  | .integer value => intText value
  | .real value => repr.text value
  | .text value => quote value

/-- A text that does not go on with a numeral. -/
def NotNumeral (s : Text) : Prop := ∀ c r, s = c :: r → isNumeralChar c = false

theorem takeWhile_numeral {digits s : Text} (numeral : ∀ c ∈ digits, isNumeralChar c = true)
    (stop : NotNumeral s) : (digits ++ s).takeWhile isNumeralChar = digits := by
  rw [List.takeWhile_append_of_pos numeral]
  cases s with
  | nil => simp
  | cons c r => simp [stop c r rfl]

theorem intText_chars (i : Int) : ∀ c ∈ intText i, c.isDigit = true ∨ c = '-' := by
  have digit : ∀ n, ∀ c ∈ Nat.toDigits 10 n, c.isDigit = true := fun n c hc =>
    Nat.isDigit_of_mem_toDigits (by decide) (by decide) hc
  intro c hc
  cases i with
  | ofNat n => exact .inl (digit n c hc)
  | negSucc n =>
    rcases List.mem_cons.mp hc with rfl | hc
    · exact .inr rfl
    · exact .inl (digit _ c hc)

theorem intText_numeral (i : Int) : ∀ c ∈ intText i, isNumeralChar c = true := by
  intro c hc
  rcases intText_chars i c hc with digit | rfl
  · simp [isNumeralChar, digit]
  · rfl

theorem intText_ne_text (repr : FloatRepr F) (i : Int) (x : F) : intText i ≠ repr.text x := by
  intro same
  rcases repr.fractional x with mark | mark
  · rcases intText_chars i _ (same ▸ mark) with digit | minus
    · exact absurd digit (by decide)
    · exact absurd minus (by decide)
  · rcases intText_chars i _ (same ▸ mark) with digit | minus
    · exact absurd digit (by decide)
    · exact absurd minus (by decide)

/-- The number of a cell, as text. -/
def numberText (repr : FloatRepr F) : LogicalCell F → Option Text
  | .integer value => some (intText value)
  | .real value => some (repr.text value)
  | _ => none

theorem numberText_numeral {repr : FloatRepr F} {cell : LogicalCell F} {number : Text}
    (h : numberText repr cell = some number) :
    cellText repr cell = number ∧ number ≠ [] ∧ ∀ c ∈ number, isNumeralChar c = true := by
  cases cell with
  | integer value =>
    cases h
    refine ⟨rfl, fun none => ?_, intText_numeral value⟩
    cases value with
    | ofNat n => exact Nat.toDigits_ne_nil none
    | negSucc n => cases none
  | real value =>
    cases h
    refine ⟨rfl, fun none => ?_, repr.numeral value⟩
    rcases repr.fractional value with mark | mark
    · rw [none] at mark
      cases mark
    · rw [none] at mark
      cases mark
  | null => cases h
  | text value => cases h

theorem numberText_injective {repr : FloatRepr F} {x y : LogicalCell F} {number : Text}
    (hx : numberText repr x = some number) (hy : numberText repr y = some number) : x = y := by
  cases x with
  | integer i =>
    cases hx
    cases y with
    | integer j => rw [intText_injective (Option.some.inj hy)]
    | real z => exact absurd (Option.some.inj hy).symm (intText_ne_text repr i z)
    | null => cases hy
    | text s => cases hy
  | real z =>
    cases hx
    cases y with
    | integer j => exact absurd (Option.some.inj hy) (intText_ne_text repr j z)
    | real w => rw [repr.injective (Option.some.inj hy)]
    | null => cases hy
    | text s => cases hy
  | null => cases hx
  | text s => cases hx

/-- The first character tells null, numbers and strings apart. -/
theorem cellText_readable (repr : FloatRepr F) (x : LogicalCell F) :
    ReadableAt NotNumeral Eq (cellText repr) x := by
  intro y s t hs ht he
  -- a number starts with a numeral character, and the others do not
  have head : ∀ {number other s t : Text}, number ≠ [] → (∀ c ∈ number, isNumeralChar c = true) →
      NotNumeral (other ++ t) → number ++ s ≠ other ++ t := by
    intro number other s t nonempty numeral stop same
    obtain ⟨c, r, rfl⟩ := List.exists_cons_of_ne_nil nonempty
    have stopped := stop c (r ++ s) same.symm
    rw [numeral c List.mem_cons_self] at stopped
    cases stopped
  have start : ∀ {cell : LogicalCell F} (t : Text), numberText repr cell = none →
      NotNumeral (cellText repr cell ++ t) := by
    intro cell t none c r hc
    cases cell with
    | null =>
      obtain ⟨rfl, -⟩ := List.cons.inj hc
      rfl
    | text value =>
      obtain ⟨rfl, -⟩ := List.cons.inj hc
      rfl
    | integer value => cases none
    | real value => cases none
  cases hx : numberText repr x with
  | some number =>
    obtain ⟨text, nonempty, numeral⟩ := numberText_numeral hx
    rw [text] at he
    cases hy : numberText repr y with
    | none => exact absurd he (head nonempty numeral (start t hy))
    | some number' =>
      obtain ⟨text', -, numeral'⟩ := numberText_numeral hy
      rw [text'] at he
      have same := congrArg (List.takeWhile isNumeralChar) he
      rw [takeWhile_numeral numeral hs, takeWhile_numeral numeral' ht] at same
      subst same
      exact ⟨numberText_injective hx hy, List.append_cancel_left he⟩
  | none =>
    cases hy : numberText repr y with
    | some number =>
      obtain ⟨text, nonempty, numeral⟩ := numberText_numeral hy
      rw [text] at he
      exact absurd he.symm (head nonempty numeral (start s hx))
    | none =>
      cases x with
      | null =>
        cases y with
        | null => exact ⟨rfl, List.append_cancel_left he⟩
        | text value => cases he
        | integer value => cases hy
        | real value => cases hy
      | text value =>
        cases y with
        | null => cases he
        | text value' =>
          obtain ⟨same, rest⟩ := quote_prefixFree _ _ _ _ he
          exact ⟨congrArg _ same, rest⟩
        | integer value' => cases hy
        | real value' => cases hy
      | integer value => cases hx
      | real value => cases hx

theorem notNumeral_cons {c : Char} (h : isNumeralChar c = false) (r : Text) :
    NotNumeral (c :: r) := by
  intro d r' he
  obtain ⟨rfl, -⟩ := List.cons.inj he
  exact h

theorem cells_delimiters (repr : FloatRepr F) :
    Delimiters NotNumeral (fun s => ∃ r, s = ']' :: r) [','] (cellText repr) where
  sepFollows r := notNumeral_cons rfl r
  closeFollows := by
    rintro s ⟨r, rfl⟩
    exact notNumeral_cons rfl r
  closeNeSep := by
    rintro s r ⟨r', rfl⟩ he
    cases he
  closeNeItem := by
    rintro cell s r ⟨r', rfl⟩ he
    cases hcell : numberText repr cell with
    | some number =>
      obtain ⟨text, nonempty, numeral⟩ := numberText_numeral hcell
      obtain ⟨c, rest, rfl⟩ := List.exists_cons_of_ne_nil nonempty
      rw [text] at he
      obtain ⟨rfl, -⟩ := List.cons.inj he
      exact absurd (numeral _ List.mem_cons_self) (by decide)
    | none =>
      cases cell with
      | null => cases he
      | text value => cases he
      | integer value => cases hcell
      | real value => cases hcell

end Cells

section Rows

variable {F : Type}

/-- One row, with the keys of the object in their order. -/
def rowText (repr : FloatRepr F) (relation : Text) (row : Row F) : Text :=
  objectText [("relation".toList, quote relation),
    ("row".toList, arrayText (row.map (cellText repr)))]

def iterRows (repr : FloatRepr F) (relation : Text) (rows : List (Row F)) : List Bytes :=
  rows.map fun row => utf8 (rowText repr relation row)

theorem rowText_eq (repr : FloatRepr F) (relation : Text) (row : Row F) :
    rowText repr relation row = '{' :: (quote "relation".toList ++ ':' :: (quote relation ++
      ',' :: (quote "row".toList ++ ':' :: '[' ::
        (joinWith [','] (row.map (cellText repr)) ++ [']', '}'])))) := by
  have order : orderMembers true [("relation".toList, quote relation),
      ("row".toList, arrayText (row.map (cellText repr)))] =
      [("relation".toList, quote relation),
        ("row".toList, arrayText (row.map (cellText repr)))] := rfl
  rw [rowText, objectText, order]
  simp [memberText, arrayText]

theorem rowText_injective (repr : FloatRepr F) {relation relation' : Text} {row row' : Row F}
    (h : rowText repr relation row = rowText repr relation' row') :
    relation = relation' ∧ row = row' := by
  rw [rowText_eq, rowText_eq] at h
  obtain ⟨same, rest⟩ := quote_prefixFree _ _ _ _
    (List.cons.inj (List.append_cancel_left (List.cons.inj h).2)).2
  have items := (List.cons.inj (List.cons.inj (List.append_cancel_left (List.cons.inj rest).2)).2).2
  have cells := joinWith_readable (cells_delimiters repr) row fun cell _ =>
    cellText_readable repr cell
  obtain ⟨alike, -⟩ := cells row' _ _ ⟨_, rfl⟩ ⟨_, rfl⟩ items
  exact ⟨same, List.forall₂_eq_eq_eq ▸ alike⟩

end Rows

section Stream

/-- A row behind its length in four bytes. -/
def frameRow (row : Bytes) : Bytes := toBytesBig row.length 4 ++ row

/-- `len(row).to_bytes(4, "big")` and the row. -/
def updateRow (row : Bytes) : Except Raised Bytes :=
  if row.length < 256 ^ 4 then .ok (frameRow row) else .error .overflowError

/-- Lengths that fit make a stream of rows readable. -/
theorem frameRows_injective {rows rows' : List Bytes} (small : ∀ row ∈ rows, row.length < 256 ^ 4)
    (small' : ∀ row ∈ rows', row.length < 256 ^ 4)
    (h : rows.flatMap frameRow = rows'.flatMap frameRow) : rows = rows' := by
  induction rows generalizing rows' with
  | nil =>
    cases rows' with
    | nil => rfl
    | cons row' rest' => cases h
  | cons row rest ih =>
    cases rows' with
    | nil => cases h
    | cons row' rest' =>
      simp only [List.flatMap_cons, frameRow, List.append_assoc] at h
      obtain ⟨lengths, h⟩ := List.append_inj h (by simp)
      have length := toBytesBig_injective (small row List.mem_cons_self)
        (small' row' List.mem_cons_self) lengths
      obtain ⟨rfl, tails⟩ := List.append_inj h length
      rw [ih (fun r hr => small r (List.mem_cons_of_mem _ hr))
        (fun r hr => small' r (List.mem_cons_of_mem _ hr)) tails]

variable {F : Type}

def customersRelation : Text := "customers".toList

def ordersRelation : Text := "orders".toList

def fixtureDomain : Bytes := utf8 "planrace/2:logical-fixture\x00".toList

/-- The rows of both relations, in the order of the loops. -/
def allRows (repr : FloatRepr F) (customers orders : List (Row F)) : List Bytes :=
  iterRows repr customersRelation customers ++ iterRows repr ordersRelation orders

def logicalFixtureContentDigest (repr : FloatRepr F) (customers orders : List (Row F)) :
    Except Raised Text := do
  let updates ← (allRows repr customers orders).mapM updateRow
  return digestText (fixtureDomain ++ updates.flatten)

/-- What is hashed of rows that fit. -/
def fixtureInput (repr : FloatRepr F) (customers orders : List (Row F)) : Bytes :=
  fixtureDomain ++ (allRows repr customers orders).flatMap frameRow

/-- Every row of the fixture fits its length field. -/
def Fits (repr : FloatRepr F) (customers orders : List (Row F)) : Prop :=
  ∀ row ∈ allRows repr customers orders, row.length < 256 ^ 4

theorem logicalFixtureContentDigest_eq {repr : FloatRepr F} {customers orders : List (Row F)}
    (fits : Fits repr customers orders) :
    logicalFixtureContentDigest repr customers orders =
      .ok (digestText (fixtureInput repr customers orders)) := by
  have updates : (allRows repr customers orders).mapM updateRow =
      .ok ((allRows repr customers orders).map frameRow) :=
    mapM_eq_map fun row hrow => if_pos (fits row hrow)
  refine bind_ok_iff.mpr ⟨_, updates, ?_⟩
  rw [fixtureInput, List.flatMap_def]
  rfl

/-- The tags inside the rows tell the two relations apart. -/
theorem allRows_injective (repr : FloatRepr F) {customers customers' orders orders' : List (Row F)}
    (h : allRows repr customers orders = allRows repr customers' orders') :
    customers = customers' ∧ orders = orders' := by
  let tagged : List (Row F) → List (Row F) → List (Text × Row F) := fun customers orders =>
    customers.map (Prod.mk customersRelation) ++ orders.map (Prod.mk ordersRelation)
  have encoded : ∀ customers orders, allRows repr customers orders =
      (tagged customers orders).map fun entry => utf8 (rowText repr entry.1 entry.2) := by
    intro customers orders
    rw [List.map_append, List.map_map, List.map_map]
    rfl
  have injective : Function.Injective fun entry : Text × Row F =>
      utf8 (rowText repr entry.1 entry.2) := by
    intro x y he
    obtain ⟨relation, row⟩ := rowText_injective repr (utf8_injective he)
    exact Prod.ext relation row
  rw [encoded, encoded] at h
  have same := List.map_injective_iff.mpr injective h
  have other : customersRelation ≠ ordersRelation := by decide
  have part : ∀ (relation : Text) (customers orders : List (Row F)),
      ((tagged customers orders).filter fun entry => entry.1 = relation).map Prod.snd =
        (if customersRelation = relation then customers else []) ++
          (if ordersRelation = relation then orders else []) := by
    intro relation customers orders
    have one : ∀ (label : Text) (rows : List (Row F)),
        ((rows.map (Prod.mk label)).filter fun entry => entry.1 = relation).map Prod.snd =
          if label = relation then rows else [] := by
      intro label rows
      split_ifs with he
      · rw [List.filter_eq_self.mpr (by simpa using fun _ _ => he), List.map_map]
        exact List.map_id rows
      · rw [List.filter_eq_nil_iff.mpr (by simpa using fun _ _ => he), List.map_nil]
    rw [List.filter_append, List.map_append, one, one]
  constructor
  · have customersPart := congrArg (fun entries : List (Text × Row F) =>
      (entries.filter fun entry => entry.1 = customersRelation).map Prod.snd) same
    rwa [part, part, if_pos rfl, if_pos rfl, if_neg other.symm, if_neg other.symm, List.append_nil,
      List.append_nil] at customersPart
  · have ordersPart := congrArg (fun entries : List (Text × Row F) =>
      (entries.filter fun entry => entry.1 = ordersRelation).map Prod.snd) same
    rwa [part, part, if_neg other, if_neg other, if_pos rfl, if_pos rfl] at ordersPart

/-- Two fixtures have one digest exactly when they have the same cells. -/
theorem logicalFixtureContentDigest_binds (repr : FloatRepr F)
    {customers orders customers' orders' : List (Row F)} (fits : Fits repr customers orders)
    (fits' : Fits repr customers' orders')
    (free : CollisionFreeOn [fixtureInput repr customers orders,
      fixtureInput repr customers' orders']) :
    ∃ digest digest', logicalFixtureContentDigest repr customers orders = .ok digest ∧
      logicalFixtureContentDigest repr customers' orders' = .ok digest' ∧
      (digest = digest' ↔ customers = customers' ∧ orders = orders') := by
  refine ⟨_, _, logicalFixtureContentDigest_eq fits, logicalFixtureContentDigest_eq fits', ?_⟩
  constructor
  · intro he
    have input := free _ List.mem_cons_self _ (List.mem_cons_of_mem _ List.mem_cons_self)
      ((digestText_eq_iff _ _).mp he)
    exact allRows_injective repr (frameRows_injective fits fits' (List.append_cancel_left input))
  · rintro ⟨rfl, rfl⟩
    rfl

end Stream

section Sample

/-- Floats without a fraction, below the size at which `repr` turns to exponents. -/
def wholeFloats : FloatRepr Int where
  text x := intText x ++ ".0".toList
  injective x y h := intText_injective (List.append_cancel_right h)
  numeral x c hc := by
    have fraction : ∀ c ∈ ".0".toList, isNumeralChar c = true := List.all_eq_true.mp (by decide)
    rcases List.mem_append.mp hc with hc | hc
    · exact intText_numeral x c hc
    · exact fraction c hc
  fractional x := .inl (List.mem_append_right _ List.mem_cons_self)

/-- One value in each storage class. -/
def mixedRow : Row Int := [.integer 1, .real 1, .text ['1'], .null]

/-- The first value is the text of the number. -/
def textRow : Row Int := [.text ['1'], .real 1, .text ['1'], .null]

theorem fits_mixedRow : Fits wholeFloats [mixedRow] [] := by
  intro row hrow
  obtain rfl := List.mem_singleton.mp hrow
  decide +kernel

theorem fits_textRow : Fits wholeFloats [textRow] [] := by
  intro row hrow
  obtain rfl := List.mem_singleton.mp hrow
  decide +kernel

theorem mixedHashes_ne : sha256 (fixtureInput wholeFloats [mixedRow] []) ≠
    sha256 (fixtureInput wholeFloats [textRow] []) := by
  decide +kernel

theorem logicalFixtureContentDigest_binds_mixed :
    ∃ digest digest', logicalFixtureContentDigest wholeFloats [mixedRow] [] = .ok digest ∧
      logicalFixtureContentDigest wholeFloats [textRow] [] = .ok digest' ∧
      (digest = digest' ↔ [mixedRow] = [textRow] ∧ ([] : List (Row Int)) = []) :=
  logicalFixtureContentDigest_binds wholeFloats fits_mixedRow fits_textRow
    (collisionFreeOn_of_nodup (by simpa using mixedHashes_ne))

end Sample

end FixtureDigest
