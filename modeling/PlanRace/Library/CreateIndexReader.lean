import PlanRace.Library.SqlLexer

/-!
# Reading CREATE INDEX statements

The statements read here create an index over quoted columns, each with an
optional sort order, and filter it by a conjunction of comparisons with
literals and of null tests. `tokens` writes a statement out again, and reading
undoes it. A script is read as its statements; whatever is not such a
statement makes the reading fail.
-/

namespace CreateIndexReader

open JsonText UniqueReadability SqlLexer

inductive SortOrder where
  | asc
  | desc
deriving DecidableEq

structure ColumnTerm where
  name : Text
  order : Option SortOrder
deriving DecidableEq

inductive Comparison where
  | eq
  | ne
  | lt
  | le
  | gt
  | ge
deriving DecidableEq

inductive Value where
  | integer (value : Int)
  | text (value : Text)
deriving DecidableEq

inductive Condition where
  | compare (column : Text) (operator : Comparison) (value : Value)
  | isNull (column : Text)
  | isNotNull (column : Text)
deriving DecidableEq

structure CreateIndex where
  unique : Bool
  name : Text
  table : Text
  columns : List ColumnTerm
  predicate : Option (List Condition)
deriving DecidableEq

def keyword (letters : String) : Token := .word letters.toList

def comma : Token := .symbol [',']

def closing : Token := .symbol [')']

def semicolon : Token := .symbol [';']

section Read

def readOrder : List Token → Option (Option SortOrder)
  | [] => some none
  | [t] =>
    if t = keyword "ASC" then some (some .asc)
    else if t = keyword "DESC" then some (some .desc)
    else none
  | _ => none

def readColumn : List Token → Option ColumnTerm
  | .identifier name :: order => (readOrder order).map (⟨name, ·⟩)
  | _ => none

def readComparison (symbol : Text) : Option Comparison :=
  if symbol = "=".toList ∨ symbol = "==".toList then some .eq
  else if symbol = "!=".toList ∨ symbol = "<>".toList then some .ne
  else if symbol = "<".toList then some .lt
  else if symbol = "<=".toList then some .le
  else if symbol = ">".toList then some .gt
  else if symbol = ">=".toList then some .ge
  else none

def readValue : List Token → Option Value
  | [.number digits] => some (.integer (Nat.ofDigitChars 10 digits 0))
  | [.symbol sign, .number digits] =>
    if sign = ['-'] then some (.integer (-(Nat.ofDigitChars 10 digits 0 : Int))) else none
  | [.string value] => some (.text value)
  | _ => none

def readNullTest (column : Text) (words : List Token) : Option Condition :=
  if words = [keyword "IS", keyword "NULL"] then some (.isNull column)
  else if words = [keyword "IS", keyword "NOT", keyword "NULL"] then some (.isNotNull column)
  else none

def readCondition : List Token → Option Condition
  | .identifier column :: .symbol operator :: value =>
    (readComparison operator).bind fun op => (readValue value).map (.compare column op ·)
  | .identifier column :: words => readNullTest column words
  | _ => none

/-- The statement from its closing parenthesis on. -/
def readPredicate : List Token → Option (Option (List Condition))
  | [] => none
  | [t] => if t = closing then some none else none
  | t :: first :: rest =>
    if t = closing ∧ first = keyword "WHERE" then
      ((rest.splitOn (keyword "AND")).mapM readCondition).map some
    else none

/-- The statement behind its `INDEX` keyword. -/
def readTarget (unique : Bool) : List Token → Option CreateIndex
  | .identifier name :: on :: .identifier table :: .symbol opening :: body =>
    if on = keyword "ON" ∧ opening = ['('] then
      (((body.takeWhile (· ≠ closing)).splitOn comma).mapM readColumn).bind fun columns =>
        (readPredicate (body.dropWhile (· ≠ closing))).map fun predicate =>
          ⟨unique, name, table, columns, predicate⟩
    else none
  | _ => none

def readStatement : List Token → Option CreateIndex
  | create :: second :: third :: rest =>
    if create ≠ keyword "CREATE" then none
    else if second = keyword "INDEX" then readTarget false (third :: rest)
    else if second = keyword "UNIQUE" ∧ third = keyword "INDEX" then readTarget true rest
    else none
  | _ => none

/-- All statements of a script; a semicolon ends one. -/
def readScript (terminates : Char → Bool) (text : Text) : Option (List CreateIndex) :=
  (lex terminates text).bind fun tokens =>
    ((tokens.splitOn semicolon).filter (· ≠ [])).mapM readStatement

end Read

section Write

def SortOrder.token : SortOrder → Token
  | asc => keyword "ASC"
  | desc => keyword "DESC"

def ColumnTerm.tokens (c : ColumnTerm) : List Token :=
  .identifier c.name :: (c.order.map SortOrder.token).toList

def Comparison.symbol : Comparison → Text
  | eq => "=".toList
  | ne => "!=".toList
  | lt => "<".toList
  | le => "<=".toList
  | gt => ">".toList
  | ge => ">=".toList

def Value.tokens : Value → List Token
  | integer (.ofNat n) => [.number (Nat.toDigits 10 n)]
  | integer (.negSucc n) => [.symbol ['-'], .number (Nat.toDigits 10 (n + 1))]
  | text value => [.string value]

def Condition.tokens : Condition → List Token
  | compare column operator value => .identifier column :: .symbol operator.symbol :: value.tokens
  | isNull column => [.identifier column, keyword "IS", keyword "NULL"]
  | isNotNull column => [.identifier column, keyword "IS", keyword "NOT", keyword "NULL"]

/-- A filter, with its keyword. -/
def predicateTokens : Option (List Condition) → List Token
  | none => []
  | some conditions =>
    keyword "WHERE" :: joinWith [keyword "AND"] (conditions.map Condition.tokens)

def CreateIndex.tokens (c : CreateIndex) : List Token :=
  keyword "CREATE" :: ((if c.unique then [keyword "UNIQUE"] else []) ++
    keyword "INDEX" :: .identifier c.name :: keyword "ON" :: .identifier c.table ::
      .symbol ['('] :: (joinWith [comma] (c.columns.map ColumnTerm.tokens) ++
        closing :: predicateTokens c.predicate))

end Write

section RoundTrip

theorem mapM_map_some {α β : Type} {read : β → Option α} {write : α → β} {items : List α}
    (each : ∀ x ∈ items, read (write x) = some x) : (items.map write).mapM read = some items := by
  induction items with
  | nil => rfl
  | cons x items ih =>
    rw [List.map_cons, List.mapM_cons, each x List.mem_cons_self,
      ih fun y hy => each y (List.mem_cons_of_mem x hy)]
    rfl

theorem readColumn_tokens (c : ColumnTerm) : readColumn c.tokens = some c := by
  obtain ⟨name, order⟩ := c
  rcases order with _ | _ | _ <;> rfl

theorem readComparison_symbol (op : Comparison) : readComparison op.symbol = some op := by
  cases op <;> decide

theorem readValue_tokens (v : Value) : readValue v.tokens = some v := by
  rcases v with (n | n) | value
  · simp [Value.tokens, readValue, Nat.ofDigitChars_ten_toDigits]
  · simp [Value.tokens, readValue, Nat.ofDigitChars_ten_toDigits, Int.negSucc_eq]
  · rfl

theorem readCondition_tokens (c : Condition) : readCondition c.tokens = some c := by
  cases c with
  | compare column operator value =>
    simp [Condition.tokens, readCondition, readComparison_symbol, readValue_tokens]
  | isNull column => rfl
  | isNotNull column => rfl

/-- No token inside a column or a condition separates them. -/
theorem ColumnTerm.not_mem_tokens (c : ColumnTerm) {symbol : Text} :
    Token.symbol symbol ∉ c.tokens := by
  obtain ⟨name, order⟩ := c
  rcases order with _ | _ | _ <;> simp [tokens, SortOrder.token, keyword]

theorem Condition.and_not_mem_tokens (c : Condition) : keyword "AND" ∉ c.tokens := by
  cases c with
  | compare column operator value =>
    rcases value with (n | n) | value <;> simp [tokens, Value.tokens, keyword]
  | isNull column => simp [tokens, keyword]
  | isNotNull column => simp [tokens, keyword]

theorem Comparison.symbol_ne_semicolon (op : Comparison) : op.symbol ≠ [';'] := by
  cases op <;> decide

theorem Condition.semicolon_not_mem_tokens (c : Condition) : semicolon ∉ c.tokens := by
  cases c with
  | compare column operator value =>
    have hop := operator.symbol_ne_semicolon.symm
    rcases value with (n | n) | value <;> simp [tokens, Value.tokens, semicolon, hop]
  | isNull column => simp [tokens, keyword, semicolon]
  | isNotNull column => simp [tokens, keyword, semicolon]

theorem readPredicate_tokens (predicate : Option (List Condition))
    (nonempty : predicate ≠ some []) :
    readPredicate (closing :: predicateTokens predicate) = some predicate := by
  cases predicate with
  | none => rfl
  | some conditions =>
    have hsplit := splitOn_joinWith (keyword "AND") (conditions.map Condition.tokens)
      (by simpa using fun c _ => Condition.and_not_mem_tokens c)
      (by simpa using fun h => nonempty (by rw [h]))
    have hread := mapM_map_some fun c (_ : c ∈ conditions) => readCondition_tokens c
    simp [predicateTokens, readPredicate, hsplit, hread]

theorem readTarget_tokens (c : CreateIndex) (columns : c.columns ≠ [])
    (conditions : c.predicate ≠ some []) :
    readTarget c.unique (.identifier c.name :: keyword "ON" :: .identifier c.table ::
      .symbol ['('] :: (joinWith [comma] (c.columns.map ColumnTerm.tokens) ++
        closing :: predicateTokens c.predicate)) = some c := by
  have inside : ∀ t ∈ joinWith [comma] (c.columns.map ColumnTerm.tokens),
      decide (t ≠ closing) = true := by
    intro t ht
    refine decide_eq_true ?_
    rintro rfl
    rcases mem_joinWith ht with h | ⟨x, hx, h⟩
    · exact absurd (List.mem_singleton.mp h) (by decide)
    · obtain ⟨column, _, rfl⟩ := List.mem_map.mp hx
      exact column.not_mem_tokens h
  have hcolumns : (joinWith [comma] (c.columns.map ColumnTerm.tokens) ++
      closing :: predicateTokens c.predicate).takeWhile (· ≠ closing) =
        joinWith [comma] (c.columns.map ColumnTerm.tokens) := by
    rw [List.takeWhile_append_of_pos inside]
    simp
  have hrest : (joinWith [comma] (c.columns.map ColumnTerm.tokens) ++
      closing :: predicateTokens c.predicate).dropWhile (· ≠ closing) =
        closing :: predicateTokens c.predicate := by
    rw [List.dropWhile_append_of_pos inside]
    simp
  have hsplit := splitOn_joinWith comma (c.columns.map ColumnTerm.tokens)
    (List.forall_mem_map.mpr fun column _ => column.not_mem_tokens)
    (by simpa using columns)
  have hread := mapM_map_some fun x (_ : x ∈ c.columns) => readColumn_tokens x
  rw [readTarget, if_pos ⟨rfl, rfl⟩, hcolumns, hrest, hsplit, hread,
    readPredicate_tokens c.predicate conditions]
  simp

theorem readStatement_tokens (c : CreateIndex) (columns : c.columns ≠ [])
    (conditions : c.predicate ≠ some []) : readStatement c.tokens = some c := by
  have htarget := readTarget_tokens c columns conditions
  obtain ⟨unique, name, table, terms, predicate⟩ := c
  cases unique with
  | true => exact htarget
  | false => exact htarget

theorem CreateIndex.semicolon_not_mem_tokens (c : CreateIndex) : semicolon ∉ c.tokens := by
  have hcolumns : semicolon ∉ joinWith [comma] (c.columns.map ColumnTerm.tokens) := by
    intro h
    rcases mem_joinWith h with h | ⟨x, hx, h⟩
    · exact absurd (List.mem_singleton.mp h) (by decide)
    · obtain ⟨column, _, rfl⟩ := List.mem_map.mp hx
      exact column.not_mem_tokens h
  have hpredicate : semicolon ∉ predicateTokens c.predicate := by
    cases c.predicate with
    | none => simp [predicateTokens]
    | some conditions =>
      intro h
      rcases List.mem_cons.mp h with h | h
      · exact absurd h (by decide)
      · rcases mem_joinWith h with h | ⟨x, hx, h⟩
        · exact absurd (List.mem_singleton.mp h) (by decide)
        · obtain ⟨condition, _, rfl⟩ := List.mem_map.mp hx
          exact condition.semicolon_not_mem_tokens h
  have hplain : ∀ letters, semicolon ≠ keyword letters := fun letters h => by cases h
  have hclosing : semicolon ≠ closing := by decide
  have hopening : semicolon ≠ .symbol ['('] := by decide
  have hname : ∀ name, semicolon ≠ .identifier name := fun name h => by cases h
  cases hu : c.unique <;>
    simp [CreateIndex.tokens, hu, hplain, hname, hcolumns, hpredicate, hclosing, hopening]

/-- A text that lexes to the tokens of one statement is a script of just that
statement. -/
theorem readScript_of_lexes {terminates : Char → Bool} {text : Text} {c : CreateIndex}
    (h : Lexes terminates text c.tokens) (columns : c.columns ≠ [])
    (conditions : c.predicate ≠ some []) : readScript terminates text = some [c] := by
  have hne : c.tokens ≠ [] := List.cons_ne_nil _ _
  rw [readScript, h.lex_eq, Option.bind_some,
    List.splitOn_eq_singleton c.semicolon_not_mem_tokens, List.filter_cons_of_pos (by simpa using hne)]
  simp [readStatement_tokens c columns conditions]

end RoundTrip

end CreateIndexReader
