import PlanRace.IndexAst
import PlanRace.Library.CreateIndexReader
import PlanRace.Library.Fallible

/-!
# Compiling the index language to SQLite statements

A statement is compiled entirely by the validator: quoted identifiers, a
derived name and literals by their tags. Read with SQLite's lexical rules, the
compiled text is one CREATE INDEX statement with the contents of the
specification, whatever characters its text literals have.
-/

namespace IndexSql

open JsonText LexOrder UniqueReadability CanonicalJson WireText IndexAst SqlLexer CreateIndexReader

section Compile

def indexNameDomain : Domain :=
  ⟨"planrace/2:index-name".toList, by decide +kernel, by decide +kernel, by decide +kernel⟩

/-- `validator_index_name`: `drop 7` removes the prefix `"sha256:"`. -/
def validatorIndexName (spec : IndexSpec) : Text :=
  "planrace_".toList ++ ((domainSeparatedDigest indexNameDomain (modelDump spec)).drop 7).take 20

inductive CompileError where
  | nullLiteral
  | unknownOperator
deriving DecidableEq

def CompileError.text : CompileError → Text
  | nullLiteral => "NULL must be compiled through an IS NULL operator".toList
  | unknownOperator => "KeyError".toList

def quoteIdentifier (value : Text) : Text := '"' :: (value ++ ['"'])

/-- `item.direction.upper()`. -/
def directionUpper : Direction → Text
  | .asc => "ASC".toList
  | .desc => "DESC".toList

def columnTexts (spec : IndexSpec) : List Text :=
  spec.keyColumns.map (fun item =>
      quoteIdentifier item.column.val ++ ' ' :: directionUpper item.direction) ++
    spec.includeColumns.map fun item => quoteIdentifier item.val

/-- The `operators` dictionary. -/
def operatorSymbol : PredicateOperator → Option Text
  | .eq => some "=".toList
  | .ne => some "!=".toList
  | .lt => some "<".toList
  | .lte => some "<=".toList
  | .gt => some ">".toList
  | .gte => some ">=".toList
  | .isNull => none
  | .isNotNull => none

/-- `value.replace("'", "''")`. -/
def escapeQuotes (value : Text) : Text := value.flatMap fun c => if c = '\'' then ['\'', '\''] else [c]

def compileLiteral : PredicateLiteral → Except CompileError Text
  | .integer value => .ok (intText value)
  | .boolean value => .ok (if value then "1".toList else "0".toList)
  | .text value _ => .ok ('\'' :: (escapeQuotes value ++ ['\'']))
  | .null => .error .nullLiteral

def compilePredicate (atom : PredicateAtom) : Except CompileError Text :=
  let column := quoteIdentifier atom.column.val
  match atom.operator with
  | .isNull => .ok (column ++ " IS NULL".toList)
  | .isNotNull => .ok (column ++ " IS NOT NULL".toList)
  | operator =>
    match operatorSymbol operator with
    | none => .error .unknownOperator
    | some symbol => do
      let literal ← compileLiteral atom.value
      .ok (column ++ ' ' :: (symbol ++ ' ' :: literal))

def compileConjuncts (spec : IndexSpec) : Except CompileError (Option (List Text)) :=
  match spec.predicate with
  | none => .ok none
  | some predicate => do
    let conjuncts ← predicate.atoms.mapM compilePredicate
    .ok (some conjuncts)

def whereClause : Option (List Text) → Text
  | none => []
  | some conjuncts => ' ' :: ("WHERE".toList ++ ' ' :: joinWith " AND ".toList conjuncts)

def uniqueText (unique : Bool) : Text := if unique then "UNIQUE".toList ++ [' '] else []

/-- The statement over a given index name and given conjuncts. -/
def statementText (name : Text) (spec : IndexSpec) (conjuncts : Option (List Text)) : Text :=
  "CREATE".toList ++ ' ' :: (uniqueText spec.unique ++ ("INDEX".toList ++ ' ' ::
    (quoteIdentifier name ++ ' ' :: ("ON".toList ++ ' ' :: (quoteIdentifier spec.table.val ++
      ' ' :: '(' :: (joinWith ", ".toList (columnTexts spec) ++ ')' :: whereClause conjuncts))))))

def compileIndexSql (spec : IndexSpec) : Except CompileError Text := do
  let conjuncts ← compileConjuncts spec
  .ok (statementText (validatorIndexName spec) spec conjuncts)

/-- The compiled statement with its name removed and its conjuncts in order. -/
def executableSql (spec : IndexSpec) : Except CompileError Text := do
  let conjuncts ← compileConjuncts spec
  .ok (statementText [] spec (conjuncts.map (sortBy Char.toNat id)))

end Compile

section ReadBack

def sortOrder : Direction → SortOrder
  | .asc => .asc
  | .desc => .desc

/-- The key columns with their directions, then the included columns. -/
def columnTerms (spec : IndexSpec) : List ColumnTerm :=
  spec.keyColumns.map (fun item => ⟨item.column.val, some (sortOrder item.direction)⟩) ++
    spec.includeColumns.map fun item => ⟨item.val, none⟩

/-- Booleans read back as 1 and 0. A valid comparison has no NULL. -/
def literalValue : PredicateLiteral → Value
  | .integer value => .integer value
  | .boolean value => .integer (if value then 1 else 0)
  | .text value _ => .text value
  | .null => .text []

def atomCondition (atom : PredicateAtom) : Condition :=
  match atom.operator with
  | .eq => .compare atom.column.val .eq (literalValue atom.value)
  | .ne => .compare atom.column.val .ne (literalValue atom.value)
  | .lt => .compare atom.column.val .lt (literalValue atom.value)
  | .lte => .compare atom.column.val .le (literalValue atom.value)
  | .gt => .compare atom.column.val .gt (literalValue atom.value)
  | .gte => .compare atom.column.val .ge (literalValue atom.value)
  | .isNull => .isNull atom.column.val
  | .isNotNull => .isNotNull atom.column.val

def specAtoms (spec : IndexSpec) : Option (List PredicateAtom) :=
  spec.predicate.map PredicateExpression.atoms

/-- What a reader finds in the statement over a name and a list of atoms. -/
def statementOf (name : Text) (spec : IndexSpec) (atoms : Option (List PredicateAtom)) :
    CreateIndex :=
  ⟨spec.unique, name, spec.table.val, columnTerms spec, atoms.map (List.map atomCondition)⟩

/-- The contents of the compiled statement. -/
def readBack (spec : IndexSpec) : CreateIndex :=
  statementOf (validatorIndexName spec) spec (specAtoms spec)

/-- The text literals of the predicate. -/
def atomTexts (atom : PredicateAtom) : List Text :=
  match atom.value with
  | .text value _ => [value]
  | _ => []

def textLiterals (spec : IndexSpec) : List Text :=
  ((specAtoms spec).getD []).flatMap atomTexts

end ReadBack

section Total

/-- The compiled form of a literal; a valid comparison has no NULL. -/
def literalText : PredicateLiteral → Text
  | .integer value => intText value
  | .boolean value => if value then "1".toList else "0".toList
  | .text value _ => '\'' :: (escapeQuotes value ++ ['\''])
  | .null => []

def conditionSuffix (atom : PredicateAtom) : Text :=
  match operatorSymbol atom.operator with
  | some symbol => symbol ++ ' ' :: literalText atom.value
  | none => if atom.operator = .isNull then "IS NULL".toList else "IS NOT NULL".toList

def conjunctText (atom : PredicateAtom) : Text :=
  quoteIdentifier atom.column.val ++ ' ' :: conditionSuffix atom

/-- A valid atom always compiles. -/
theorem compilePredicate_eq (atom : PredicateAtom) :
    compilePredicate atom = .ok (conjunctText atom) := by
  obtain ⟨column, operator, value, hnull⟩ := atom
  cases operator <;> cases value <;> first | rfl | exact absurd hnull (by simp [PredicateOperator.testsNull])

theorem compileConjuncts_eq (spec : IndexSpec) :
    compileConjuncts spec = .ok ((specAtoms spec).map (List.map conjunctText)) := by
  unfold compileConjuncts specAtoms
  cases spec.predicate with
  | none => rfl
  | some predicate =>
    have hatoms : predicate.atoms.mapM compilePredicate =
        .ok (predicate.atoms.map conjunctText) :=
      Fallible.mapM_eq_map fun atom _ => compilePredicate_eq atom
    simp only [hatoms]
    rfl

theorem compileIndexSql_eq (spec : IndexSpec) :
    compileIndexSql spec = .ok (statementText (validatorIndexName spec) spec
      ((specAtoms spec).map (List.map conjunctText))) := by
  rw [compileIndexSql, compileConjuncts_eq]
  rfl

/-- Sorting the conjuncts is sorting the atoms by their compiled text. -/
theorem executableSql_eq (spec : IndexSpec) :
    executableSql spec = .ok (statementText [] spec
      (((specAtoms spec).map (sortBy Char.toNat conjunctText)).map (List.map conjunctText))) := by
  have hsort : ∀ atoms : List PredicateAtom, sortBy Char.toNat id (atoms.map conjunctText) =
      (sortBy Char.toNat conjunctText atoms).map conjunctText := fun atoms =>
    (map_sortBy Char.toNat conjunctText id conjunctText atoms fun _ _ => rfl).symm
  rw [executableSql, compileConjuncts_eq]
  cases specAtoms spec with
  | none => rfl
  | some atoms =>
    refine congrArg (fun conjuncts => Except.ok (statementText [] spec (some conjuncts))) ?_
    exact hsort atoms

end Total

section Lexing

variable {terminates : Char → Bool}

theorem lexes_keyword (transparent : Transparent terminates) {c : Char} {rest : Text}
    (first : begin c = some ([], .word [c])) (word : (c :: rest).all isWordChar = true)
    (upper : (c :: rest).map Char.toUpper = c :: rest) :
    Lexes terminates (c :: rest) [.word (c :: rest)] := by
  have hword := lexes_word transparent first (List.all_eq_true.mp word)
  rwa [upper] at hword

/-- Letters of an identifier are letters of a word. -/
theorem isWordChar_of_mem_safeIdentifier (name : SafeIdentifier) :
    ∀ c ∈ name.val, isWordChar c = true := by
  obtain ⟨value, hvalue⟩ := name
  simp only [isSafeIdentifier, Bool.and_eq_true] at hvalue
  intro c hc
  cases value with
  | nil => cases hc
  | cons d rest =>
    obtain ⟨hd, hrest⟩ := (Bool.and_eq_true _ _).mp hvalue.2
    simp only [isWordChar, isWordStart]
    rcases List.mem_cons.mp hc with rfl | hc
    · simp only [isAsciiLetter, Bool.or_eq_true] at hd ⊢
      tauto
    · have hletter := List.all_eq_true.mp hrest c hc
      simp only [isAsciiLetter, Bool.or_eq_true] at hletter ⊢
      tauto

theorem lexes_quoteIdentifier (transparent : Transparent terminates) {name : Text}
    (plain : ∀ c ∈ name, isWordChar c = true) :
    Lexes terminates (quoteIdentifier name) [.identifier name] := by
  have hquote : '"' ∉ name := fun h => absurd (plain _ h) (by decide)
  have hmark : '"' = '\'' ∨ '"' = '"' := .inr rfl
  have hlex := lexes_quoted transparent hmark fun c hc => transparent.word c (plain c hc)
  rwa [doubled_of_not_mem hquote] at hlex

theorem isWordChar_of_mem_validatorIndexName (spec : IndexSpec) :
    ∀ c ∈ validatorIndexName spec, isWordChar c = true := by
  have hprefix : ∀ c ∈ "planrace_".toList, isWordChar c = true :=
    List.all_eq_true.mp (by decide)
  have hhex : ∀ c ∈ "0123456789abcdef".toList, isWordChar c = true :=
    List.all_eq_true.mp (by decide)
  intro c hc
  rcases List.mem_append.mp hc with hc | hc
  · exact hprefix c hc
  · have hdigest := isSha256Digest_digestText (hashInput indexNameDomain (modelDump spec))
    simp only [isSha256Digest, hexOfLength, Bool.and_eq_true] at hdigest
    have hdigit := List.all_eq_true.mp hdigest.2.2 c (List.mem_of_mem_take hc)
    exact hhex c (List.contains_iff_mem.mp hdigit)

/-- One column of the statement, as it is compiled. -/
def termText (term : ColumnTerm) : Text :=
  match term.order with
  | some .asc => quoteIdentifier term.name ++ ' ' :: "ASC".toList
  | some .desc => quoteIdentifier term.name ++ ' ' :: "DESC".toList
  | none => quoteIdentifier term.name

theorem columnTexts_eq (spec : IndexSpec) :
    columnTexts spec = (columnTerms spec).map termText := by
  have hkeys : ∀ item : IndexColumn,
      quoteIdentifier item.column.val ++ ' ' :: directionUpper item.direction =
        termText ⟨item.column.val, some (sortOrder item.direction)⟩ := by
    rintro ⟨column, direction⟩
    cases direction <;> rfl
  rw [columnTexts, columnTerms, List.map_append, List.map_map, List.map_map]
  congr 1
  exact List.map_congr_left fun item _ => hkeys item

theorem isWordChar_of_mem_columnTerms {spec : IndexSpec} {term : ColumnTerm}
    (h : term ∈ columnTerms spec) : ∀ c ∈ term.name, isWordChar c = true := by
  rcases List.mem_append.mp h with h | h
  · obtain ⟨item, _, rfl⟩ := List.mem_map.mp h
    exact isWordChar_of_mem_safeIdentifier item.column
  · obtain ⟨item, _, rfl⟩ := List.mem_map.mp h
    exact isWordChar_of_mem_safeIdentifier item

theorem lexes_termText (transparent : Transparent terminates) {term : ColumnTerm}
    (plain : ∀ c ∈ term.name, isWordChar c = true) :
    Lexes terminates (termText term) term.tokens := by
  have hname := lexes_quoteIdentifier transparent plain
  obtain ⟨name, order⟩ := term
  rcases order with _ | _ | _
  · exact hname
  · exact hname.append_space transparent
      (lexes_keyword transparent (c := 'A') rfl (by decide) (by decide))
  · exact hname.append_space transparent
      (lexes_keyword transparent (c := 'D') rfl (by decide) (by decide))

theorem lexes_intText (transparent : Transparent terminates) (i : Int) :
    Lexes terminates (intText i) (Value.integer i).tokens := by
  have digit : ∀ n, ∀ c ∈ Nat.toDigits 10 n, c.isDigit = true := fun n c hc =>
    Nat.isDigit_of_mem_toDigits (by decide) (by decide) hc
  cases i with
  | ofNat n => exact lexes_number transparent Nat.toDigits_ne_nil (digit n)
  | negSucc n => exact lexes_negative transparent Nat.toDigits_ne_nil (digit (n + 1))

theorem lexes_literalText (transparent : Transparent terminates) {value : PredicateLiteral}
    (present : value ≠ .null)
    (visible : ∀ v short, value = .text v short → ∀ c ∈ v, terminates c = false) :
    Lexes terminates (literalText value) (literalValue value).tokens := by
  cases value with
  | integer i => exact lexes_intText transparent i
  | boolean b =>
    cases b with
    | true => exact lexes_intText transparent 1
    | false => exact lexes_intText transparent 0
  | text v short => exact lexes_quoted transparent (.inl rfl) (visible v short rfl)
  | null => exact absurd rfl present

/-- A comparison operator is one token. -/
theorem lexes_comparison (transparent : Transparent terminates) (op : Comparison) :
    Lexes terminates op.symbol [.symbol op.symbol] := by
  have hspace : ∀ c, isOperatorStart c = true → terminates c = false := transparent.operator
  cases op with
  | eq =>
    refine lexes_operator transparent rfl (hspace '=' rfl) rfl ?_
    rintro d (rfl | rfl | rfl) <;> rfl
  | ne =>
    refine lexes_operator₂ transparent rfl rfl ⟨hspace '!' rfl, hspace '=' rfl⟩ rfl ?_
    rintro d (rfl | rfl | rfl) <;> rfl
  | lt =>
    refine lexes_operator transparent rfl (hspace '<' rfl) rfl ?_
    rintro d (rfl | rfl | rfl) <;> rfl
  | le =>
    refine lexes_operator₂ transparent rfl rfl ⟨hspace '<' rfl, hspace '=' rfl⟩ rfl ?_
    rintro d (rfl | rfl | rfl) <;> rfl
  | gt =>
    refine lexes_operator transparent rfl (hspace '>' rfl) rfl ?_
    rintro d (rfl | rfl | rfl) <;> rfl
  | ge =>
    refine lexes_operator₂ transparent rfl rfl ⟨hspace '>' rfl, hspace '=' rfl⟩ rfl ?_
    rintro d (rfl | rfl | rfl) <;> rfl

theorem lexes_is (transparent : Transparent terminates) :
    Lexes terminates "IS".toList [keyword "IS"] :=
  lexes_keyword transparent (c := 'I') rfl (by decide) (by decide)

theorem lexes_null (transparent : Transparent terminates) :
    Lexes terminates "NULL".toList [keyword "NULL"] :=
  lexes_keyword transparent (c := 'N') rfl (by decide) (by decide)

theorem lexes_not (transparent : Transparent terminates) :
    Lexes terminates "NOT".toList [keyword "NOT"] :=
  lexes_keyword transparent (c := 'N') rfl (by decide) (by decide)

theorem lexes_conjunctText (transparent : Transparent terminates) (atom : PredicateAtom)
    (visible : ∀ v ∈ atomTexts atom, ∀ c ∈ v, terminates c = false) :
    Lexes terminates (conjunctText atom) (atomCondition atom).tokens := by
  obtain ⟨column, operator, value, hnull⟩ := atom
  have hcolumn := lexes_quoteIdentifier transparent (isWordChar_of_mem_safeIdentifier column)
  have hcompare : ∀ op : Comparison, value ≠ .null →
      Lexes terminates
        (quoteIdentifier column.val ++ ' ' :: (op.symbol ++ ' ' :: literalText value))
        (Condition.compare column.val op (literalValue value)).tokens := by
    intro op present
    have hvalue := lexes_literalText transparent present fun v short he =>
      visible v (by simp [atomTexts, he])
    exact hcolumn.append_space transparent
      ((lexes_comparison transparent op).append_space transparent hvalue)
  cases operator with
  | isNull =>
    exact hcolumn.append_space transparent
      ((lexes_is transparent).append_space transparent (lexes_null transparent))
  | isNotNull =>
    exact hcolumn.append_space transparent ((lexes_is transparent).append_space transparent
      ((lexes_not transparent).append_space transparent (lexes_null transparent)))
  | eq => exact hcompare .eq (of_decide_eq_false hnull)
  | ne => exact hcompare .ne (of_decide_eq_false hnull)
  | lt => exact hcompare .lt (of_decide_eq_false hnull)
  | lte => exact hcompare .le (of_decide_eq_false hnull)
  | gt => exact hcompare .gt (of_decide_eq_false hnull)
  | gte => exact hcompare .ge (of_decide_eq_false hnull)

theorem columnTerms_ne_nil (spec : IndexSpec) : columnTerms spec ≠ [] := by
  intro h
  have hlength := congrArg List.length h
  have hkeys := spec.keyBounds.1
  simp only [columnTerms, List.length_append, List.length_map, List.length_nil] at hlength
  omega

theorem lexes_whereClause (transparent : Transparent terminates) {atoms : List PredicateAtom}
    (nonempty : atoms ≠ [])
    (visible : ∀ atom ∈ atoms, ∀ v ∈ atomTexts atom, ∀ c ∈ v, terminates c = false) :
    Lexes terminates ("WHERE".toList ++ ' ' :: joinWith " AND ".toList (atoms.map conjunctText))
      (predicateTokens (some (atoms.map atomCondition))) := by
  have hand : Lexes terminates "AND".toList [keyword "AND"] :=
    lexes_keyword transparent (c := 'A') rfl (by decide) (by decide)
  have hwhere : Lexes terminates "WHERE".toList [keyword "WHERE"] :=
    lexes_keyword transparent (c := 'W') rfl (by decide) (by decide)
  have hconjuncts := Lexes.joinWord transparent hand
    (fun atom hatom => lexes_conjunctText transparent atom (visible atom hatom)) nonempty
  have hjoined := hwhere.append_space transparent hconjuncts
  rw [predicateTokens, List.map_map]
  exact hjoined

/-- The statement from its `INDEX` keyword on. -/
theorem lexes_target (transparent : Transparent terminates) {name : Text}
    (plain : ∀ c ∈ name, isWordChar c = true) (spec : IndexSpec) :
    Lexes terminates
      ("INDEX".toList ++ ' ' :: (quoteIdentifier name ++ ' ' :: ("ON".toList ++ ' ' ::
        (quoteIdentifier spec.table.val ++ ' ' ::
          ('(' :: (joinWith ", ".toList (columnTexts spec) ++ [')']))))))
      (keyword "INDEX" :: .identifier name :: keyword "ON" :: .identifier spec.table.val ::
        .symbol ['('] :: (joinWith [comma] ((columnTerms spec).map ColumnTerm.tokens) ++
          [closing])) := by
  have hindex : Lexes terminates "INDEX".toList [keyword "INDEX"] :=
    lexes_keyword transparent (c := 'I') rfl (by decide) (by decide)
  have hon : Lexes terminates "ON".toList [keyword "ON"] :=
    lexes_keyword transparent (c := 'O') rfl (by decide) (by decide)
  have hname := lexes_quoteIdentifier transparent plain
  have htable := lexes_quoteIdentifier transparent (isWordChar_of_mem_safeIdentifier spec.table)
  have hcolumns := Lexes.joinComma transparent
    (fun term hterm => lexes_termText transparent (isWordChar_of_mem_columnTerms hterm))
    (columnTerms_ne_nil spec)
  rw [columnTexts_eq]
  exact hindex.append_space transparent (hname.append_space transparent
    (hon.append_space transparent (htable.append_space transparent
      (hcolumns.parenthesized transparent))))

/-- The statement with its filter, from its `INDEX` keyword on. -/
theorem lexes_filteredTarget (transparent : Transparent terminates) {name : Text}
    (plain : ∀ c ∈ name, isWordChar c = true) (spec : IndexSpec)
    {atoms : Option (List PredicateAtom)} (nonempty : atoms ≠ some [])
    (visible : ∀ atom ∈ atoms.getD [], ∀ v ∈ atomTexts atom, ∀ c ∈ v, terminates c = false) :
    Lexes terminates
      ("INDEX".toList ++ ' ' :: (quoteIdentifier name ++ ' ' :: ("ON".toList ++ ' ' ::
        (quoteIdentifier spec.table.val ++ ' ' ::
          ('(' :: (joinWith ", ".toList (columnTexts spec) ++ [')']))))) ++
        whereClause (atoms.map (List.map conjunctText)))
      (keyword "INDEX" :: .identifier name :: keyword "ON" :: .identifier spec.table.val ::
        .symbol ['('] :: (joinWith [comma] ((columnTerms spec).map ColumnTerm.tokens) ++
          [closing]) ++ predicateTokens (atoms.map (List.map atomCondition))) := by
  have htarget := lexes_target transparent plain spec
  cases atoms with
  | none =>
    have hwhere : whereClause none = [] := rfl
    have htokens : predicateTokens none = [] := rfl
    rw [Option.map_none, Option.map_none, hwhere, htokens, List.append_nil, List.append_nil]
    exact htarget
  | some atoms =>
    have hne : atoms ≠ [] := fun h => nonempty (congrArg some h)
    have hwhere : whereClause (some (atoms.map conjunctText)) =
        ' ' :: ("WHERE".toList ++ ' ' :: joinWith " AND ".toList (atoms.map conjunctText)) := rfl
    rw [Option.map_some, Option.map_some, hwhere]
    exact htarget.append_space transparent (lexes_whereClause transparent hne visible)

/-- A statement lexes to the tokens of its contents. -/
theorem lexes_statementText (transparent : Transparent terminates) {name : Text}
    (plain : ∀ c ∈ name, isWordChar c = true) (spec : IndexSpec)
    {atoms : Option (List PredicateAtom)} (nonempty : atoms ≠ some [])
    (visible : ∀ atom ∈ atoms.getD [], ∀ v ∈ atomTexts atom, ∀ c ∈ v, terminates c = false) :
    Lexes terminates (statementText name spec (atoms.map (List.map conjunctText)))
      (statementOf name spec atoms).tokens := by
  have hcreate : Lexes terminates "CREATE".toList [keyword "CREATE"] :=
    lexes_keyword transparent (c := 'C') rfl (by decide) (by decide)
  have hunique : Lexes terminates "UNIQUE".toList [keyword "UNIQUE"] :=
    lexes_keyword transparent (c := 'U') rfl (by decide) (by decide)
  have htarget := lexes_filteredTarget transparent plain spec nonempty visible
  unfold statementText statementOf CreateIndex.tokens
  cases spec.unique with
  | false =>
    have hhead := hcreate.append_space transparent htarget
    simp only [List.append_assoc, List.cons_append, List.nil_append] at hhead
    exact hhead
  | true =>
    have hhead := hcreate.append_space transparent (hunique.append_space transparent htarget)
    have htext : uniqueText true = "UNIQUE".toList ++ [' '] := if_pos rfl
    rw [htext]
    simp only [List.append_assoc, List.cons_append, List.nil_append] at hhead ⊢
    exact hhead

/-- A statement reads back as its contents. -/
theorem readScript_statementText (transparent : Transparent terminates) {name : Text}
    (plain : ∀ c ∈ name, isWordChar c = true) (spec : IndexSpec)
    {atoms : Option (List PredicateAtom)} (nonempty : atoms ≠ some [])
    (visible : ∀ atom ∈ atoms.getD [], ∀ v ∈ atomTexts atom, ∀ c ∈ v, terminates c = false) :
    readScript terminates (statementText name spec (atoms.map (List.map conjunctText))) =
      some [statementOf name spec atoms] := by
  refine readScript_of_lexes (lexes_statementText transparent plain spec nonempty visible)
    (columnTerms_ne_nil spec) ?_
  cases atoms with
  | none => simp [statementOf]
  | some atoms => simpa [statementOf] using nonempty

theorem specAtoms_ne_nil (spec : IndexSpec) : specAtoms spec ≠ some [] := by
  intro h
  obtain ⟨predicate, _, hatoms⟩ := Option.map_eq_some_iff.mp h
  have hbound := predicate.bounds.1
  rw [hatoms] at hbound
  cases hbound

end Lexing

section Injection

/-- The NUL character ends a C string. -/
def isNul (c : Char) : Bool := c == '\x00'

theorem transparent_of_nul_free {terminates : Char → Bool}
    (only : ∀ c, terminates c = true → c = '\x00') : Transparent terminates := by
  have visible : ∀ c, c ≠ '\x00' → terminates c = false := fun c hne =>
    Bool.eq_false_iff.mpr fun h => hne (only c h)
  constructor
  · exact visible ' ' (by decide)
  all_goals
    intro c hc
    refine visible c ?_
    rintro rfl
    exact absurd hc (by decide)

theorem isNul_eq_true {c : Char} (h : isNul c = true) : c = '\x00' := beq_iff_eq.mp h

theorem transparent_isNul : Transparent isNul := transparent_of_nul_free fun _ => isNul_eq_true

/-- Compiled index SQL holds one statement with the contents of the
specification, and no part of a text literal leaves its string token. -/
theorem compileIndexSql_readBack (spec : IndexSpec)
    (clean : ∀ v ∈ textLiterals spec, '\x00' ∉ v) :
    (∃ sql, compileIndexSql spec = .ok sql ∧ readScript isNul sql = some [readBack spec]) ∧
      ∀ v ∈ textLiterals spec, ∀ before after, v = before ++ after → ∀ rest,
        lexFrom isNul .start ('\'' :: (escapeQuotes before ++ rest)) =
          lexFrom isNul (.quoted '\'' before.reverse) rest := by
  have visible : ∀ v ∈ textLiterals spec, ∀ c ∈ v, isNul c = false := by
    intro v hv c hc
    refine Bool.eq_false_iff.mpr fun h => clean v hv ?_
    rwa [← isNul_eq_true h]
  constructor
  · refine ⟨_, compileIndexSql_eq spec, ?_⟩
    refine readScript_statementText transparent_isNul (isWordChar_of_mem_validatorIndexName spec)
      spec (specAtoms_ne_nil spec) ?_
    intro atom hatom v hv
    exact visible v (List.mem_flatMap.mpr ⟨atom, hatom, hv⟩)
  · rintro v hv before after rfl rest
    have hbefore : ∀ c ∈ before, isNul c = false := fun c hc =>
      visible _ hv c (List.mem_append_left after hc)
    have hmark : isNul '\'' = false := rfl
    have hinside := lexFrom_doubled hmark hbefore [] rest
    rw [List.append_nil] at hinside
    rw [lexFrom_open rfl rfl]
    exact hinside

/-! A partial index whose text literal tries to leave its string. -/
namespace Sample

def column (name : Text) (safe : isSafeIdentifier name = true) : SafeIdentifier := ⟨name, safe⟩

def hostile : Text := "it's; DROP TABLE events --".toList

def hostileAtom : PredicateAtom :=
  ⟨column "city".toList (by decide), .ne, .text hostile (by decide), by decide⟩

def hostileSpec : IndexSpec where
  table := column "events".toList (by decide)
  keyColumns := [⟨column "city".toList (by decide), .desc⟩]
  includeColumns := [column "day".toList (by decide)]
  unique := false
  predicate := some ⟨[hostileAtom], by decide⟩
  keyBounds := by decide
  includeBounds := by decide
  rejectDuplicateColumns := by decide
  rejectUniqueCovering := by decide

end Sample

theorem hostileSpec_readBack :
    (∃ sql, compileIndexSql Sample.hostileSpec = .ok sql ∧
      readScript isNul sql = some [readBack Sample.hostileSpec]) ∧
      ∀ v ∈ textLiterals Sample.hostileSpec, ∀ before after, v = before ++ after → ∀ rest,
        lexFrom isNul .start ('\'' :: (escapeQuotes before ++ rest)) =
          lexFrom isNul (.quoted '\'' before.reverse) rest :=
  compileIndexSql_readBack Sample.hostileSpec (by decide)

end Injection

end IndexSql
