import Mathlib.Data.List.Perm.Basic
import PlanRace.CanonicalJson
import PlanRace.Library.Base64
import PlanRace.Library.Fallible
import PlanRace.Library.FloatHex
import PlanRace.Library.JsonLines

/-!
# The exact-result oracle

Results are canonicalized to a header and one line for each row, and compared
by the digest of these bytes. Cells are the values a driver returns for the
storage classes; rows are sequences of cells, as their type says.
-/

namespace OracleV2

open JsonText ByteStrings LexOrder UniqueReadability Sha256 CanonicalJson Base64 FloatHex JsonLines

section Model

inductive OracleError where
  | projectionDisagrees
  | inconsistentColumns
  | missingProjection
  | invalidProjection
  | rowLimit
  | cellLimit
  | outputLimit
deriving DecidableEq

def OracleError.text : OracleError → Text
  | projectionDisagrees => "projection_column_count disagrees with cursor.description".toList
  | inconsistentColumns => "result rows have inconsistent column counts".toList
  | missingProjection =>
    "empty results require projection_column_count or cursor.description".toList
  | invalidProjection => "projection_column_count must be a non-negative integer".toList
  | rowLimit => "row_limit".toList
  | cellLimit => "cell_limit".toList
  | outputLimit => "output_limit".toList

inductive Collation where
  | binary
  | nocase
  | rtrim
deriving DecidableEq

def Collation.text : Collation → Text
  | binary => "sqlite-binary".toList
  | nocase => "sqlite-nocase".toList
  | rtrim => "sqlite-rtrim".toList

def pinnedSqliteEngine : Text := "sqlite-3.46.1".toList

/-- Precommitted exact-result semantics and resource bounds; `engine` has one value. -/
structure ResultPolicy where
  ordered : Bool := true
  collation : Collation := .binary
  maxRows : Nat := 10000
  maxCells : Nat := 100000
  maxOutputBytes : Nat := 2097152
  /-- The output allows a header. -/
  outputBound : 256 ≤ maxOutputBytes := by decide

inductive Cell where
  | null
  | bool (value : Bool)
  | integer (value : Int)
  | float (value : Double)
  | text (value : Text)
  | blob (value : Bytes)

structure CanonicalResult where
  digest : Text
  rowCount : Nat
  columnCount : Nat
  cellCount : Nat
  canonicalBytes : Bytes

def nullTag : Text := "null".toList

def integerTag : Text := "integer".toList

def floatTag : Text := "float64".toList

def stringTag : Text := "string".toList

def blobTag : Text := "blob-base64".toList

def nanText : Text := "nan".toList

def infinityText (negative : Bool) : Text :=
  if negative then "-infinity".toList else "+infinity".toList

def tagged (tag value : Text) : Json := .arr [.str tag, .str value]

def encodeCell : Cell → Json
  | .null => tagged nullTag []
  | .bool value => tagged integerTag (if value then ['1'] else ['0'])
  | .integer value => tagged integerTag (intText value)
  | .float value =>
    if value.isNan then tagged floatTag nanText
    else if value.isInf then tagged floatTag (infinityText value.negative)
    else tagged floatTag (floatHex value)
  | .text value => tagged stringTag value
  | .blob value => tagged blobTag (b64encode value)

def encodeRow (row : List Cell) : Bytes := canonicalJsonBytes (.arr (row.map encodeCell))

/-- The local variables of the loop over the rows. -/
structure Progress where
  encodedRows : List Bytes
  columnCount : Option Nat
  rowCount : Nat
  cellCount : Nat
  runningSize : Nat

def orderText (ordered : Bool) : Text := if ordered then "ordered".toList else "multiset".toList

def header (policy : ResultPolicy) (columnCount rowCount : Nat) : Json :=
  .obj [("collation".toList, .str policy.collation.text), ("column_count".toList, .int columnCount),
    ("engine".toList, .str pinnedSqliteEngine),
    ("order".toList, .str (orderText policy.ordered)),
    ("protocol".toList, .str "planrace/2".toList), ("row_count".toList, .int rowCount)]

/-- `header + b"\n" + b"\n".join(encoded_rows)`. -/
def canonicalBytes (policy : ResultPolicy) (columnCount : Nat) (encodedRows : List Bytes) : Bytes :=
  canonicalJsonBytes (header policy columnCount encodedRows.length) ++
    10 :: joinWith [10] encodedRows

def resultDomainV2 : Text := "planrace/2:exact-result".toList

def resultInput (canonical : Bytes) : Bytes := frame (utf8 resultDomainV2) canonical

end Model

section Storage

/-- The text of a number that may be infinite. -/
def numberText (d : Double) : Text :=
  if d.isInf then infinityText d.negative else floatHex d

theorem infinityText_injective {a b : Bool} (h : infinityText a = infinityText b) : a = b := by
  revert h
  cases a <;> cases b <;> decide

/-- A finite number is not spelled like a special value. -/
theorem floatHex_ne_special (d : Double) :
    floatHex d ≠ nanText ∧ ∀ negative, floatHex d ≠ infinityText negative := by
  have hnan : nanText = ['n', 'a', 'n'] := by decide
  have hplus : infinityText false = ['+', 'i', 'n', 'f', 'i', 'n', 'i', 't', 'y'] := by decide
  have hminus : infinityText true = ['-', 'i', 'n', 'f', 'i', 'n', 'i', 't', 'y'] := by decide
  constructor
  · rw [hnan]
    exact floatHex_ne (by decide) (by simp)
  · intro negative
    cases negative with
    | false =>
      rw [hplus]
      exact floatHex_ne (by decide) (by simp)
    | true =>
      rw [hminus]
      exact floatHex_ne (by decide) (by simp)

/-- Numbers that are no NaN have distinct texts. -/
theorem numberText_injective {c d : Double} (h : numberText c = numberText d) : c = d := by
  unfold numberText at h
  by_cases hc : c.isInf = true <;> by_cases hd : d.isInf = true
  · rw [if_pos hc, if_pos hd] at h
    simp only [Double.isInf, Bool.and_eq_true, decide_eq_true_eq] at hc hd
    have hsign := infinityText_injective h
    cases c
    cases d
    simp_all
  · rw [if_pos hc, if_neg hd] at h
    exact absurd h.symm ((floatHex_ne_special d).2 _)
  · rw [if_neg hc, if_pos hd] at h
    exact absurd h ((floatHex_ne_special c).2 _)
  · rw [if_neg hc, if_neg hd] at h
    exact floatHex_injective h

inductive StorageClass where
  | null
  | integer
  | float
  | text
  | blob

def StorageClass.tag : StorageClass → Text
  | null => nullTag
  | integer => integerTag
  | float => floatTag
  | text => stringTag
  | blob => blobTag

end Storage

section Exactness

/-- The text of a row, before it is encoded. -/
def rowText (row : List Cell) : Text := dumps true (.arr (row.map encodeCell))

/-! One row, with a boolean and with an integer. -/
namespace Sample

/-- The canonical result of one row of two cells. -/
def canonical (row : List Cell) : CanonicalResult where
  digest := digestText (resultInput (canonicalBytes {} 2 [encodeRow row]))
  rowCount := 1
  columnCount := 2
  cellCount := 2
  canonicalBytes := canonicalBytes {} 2 [encodeRow row]

end Sample

end Exactness

end OracleV2
