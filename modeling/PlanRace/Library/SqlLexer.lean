import PlanRace.Library.JsonText

/-!
# The lexical rules of SQLite

A word of characters is read one character at a time. Quoted names and strings
end at a quote that is not doubled, comments are skipped, and the longest
operator is taken. A terminator ends the input wherever it stands, as the NUL
character does in a C string. Blob literals, bracketed names, parameters and
numbers that are not plain digits are outside this fragment and are refused.
-/

namespace SqlLexer

open JsonText UniqueReadability

inductive Token where
  /-- A name between double quotes or backticks. -/
  | identifier (name : Text)
  | string (value : Text)
  | number (digits : Text)
  /-- A keyword or a bare name, in upper case. -/
  | word (letters : Text)
  | symbol (text : Text)
deriving DecidableEq

/-- Where the lexer stands inside the input; what was read of the current
token is kept in reverse. -/
inductive Mode where
  | start
  | word (read : Text)
  | digits (read : Text)
  | quoted (mark : Char) (read : Text)
  /-- Just behind a quote mark, which a second one would turn into a letter. -/
  | closing (mark : Char) (read : Text)
  | pending (operator : Text)
  | lineComment
  | blockComment (star : Bool)
deriving DecidableEq

def isSpace (c : Char) : Bool := c == ' ' || c == '\t' || c == '\n' || c == '\x0c' || c == '\r'

def isMark (c : Char) : Bool := c == '\'' || c == '"' || c == '\x60'

def isWordStart (c : Char) : Bool :=
  c.isUpper || c.isLower || c == '_' || decide (128 ≤ c.toNat)

def isWordChar (c : Char) : Bool := isWordStart c || c.isDigit || c == '$'

def isSingle (c : Char) : Bool := "(),;+*%&~".toList.contains c

def isOperatorStart (c : Char) : Bool := "-<>=!|/".toList.contains c

def longOperators : List Text :=
  ["<=".toList, "<>".toList, "<<".toList, ">=".toList, ">>".toList, "==".toList, "!=".toList,
    "||".toList, "->".toList, "->>".toList]

/-- The token finished by the end of the input or by an unrelated character. -/
def finish : Mode → Option (List Token)
  | .start => some []
  | .word read => some [.word (read.reverse.map Char.toUpper)]
  | .digits read => some [.number read.reverse]
  | .quoted _ _ => none
  | .closing mark read =>
    some [if mark = '\'' then .string read.reverse else .identifier read.reverse]
  | .pending operator => if operator = ['!'] then none else some [.symbol operator]
  | .lineComment => some []
  | .blockComment _ => some []

/-- The first character of a token. -/
def begin (c : Char) : Option (List Token × Mode) :=
  if isSpace c then some ([], .start)
  else if isMark c then some ([], .quoted c [])
  else if isWordStart c then some ([], .word [c])
  else if c.isDigit then some ([], .digits [c])
  else if isSingle c then some ([.symbol [c]], .start)
  else if isOperatorStart c then some ([], .pending [c])
  else none

/-- The current token ends and another one begins. -/
def next (m : Mode) (c : Char) : Option (List Token × Mode) :=
  (finish m).bind fun done => (begin c).map fun out => (done ++ out.1, out.2)

def step : Mode → Char → Option (List Token × Mode)
  | .start, c => begin c
  | .word read, c =>
    if isWordChar c then some ([], .word (c :: read))
    else if c = '\'' ∧ (read = ['x'] ∨ read = ['X']) then none
    else next (.word read) c
  | .digits read, c =>
    if c.isDigit then some ([], .digits (c :: read))
    else if isWordChar c ∨ c = '.' then none
    else next (.digits read) c
  | .quoted mark read, c =>
    if c = mark then some ([], .closing mark read) else some ([], .quoted mark (c :: read))
  | .closing mark read, c =>
    if c = mark then some ([], .quoted mark (c :: read)) else next (.closing mark read) c
  | .pending operator, c =>
    if operator ++ [c] = "--".toList then some ([], .lineComment)
    else if operator ++ [c] = "/*".toList then some ([], .blockComment false)
    else if operator ++ [c] ∈ longOperators then some ([], .pending (operator ++ [c]))
    else next (.pending operator) c
  | .lineComment, c => some ([], if c = '\n' then .start else .lineComment)
  | .blockComment star, c =>
    some ([], if star = true ∧ c = '/' then .start else .blockComment (c == '*'))

variable (terminates : Char → Bool)

/-- The tokens of the rest of the input, from a given mode. -/
def lexFrom : Mode → Text → Option (List Token)
  | m, [] => finish m
  | m, c :: rest =>
    if terminates c then finish m
    else (step m c).bind fun out => (lexFrom out.2 rest).map (out.1 ++ ·)

def lex (text : Text) : Option (List Token) := lexFrom terminates .start text

/-- The end of the input, a space, a comma or a closing parenthesis: what may
follow any finished token. -/
def Boundary (rest : Text) : Prop :=
  ∀ c r, rest = c :: r → c = ' ' ∨ c = ',' ∨ c = ')'

/-- The text is read as exactly these tokens in front of any boundary. -/
def Lexes (text : Text) (tokens : List Token) : Prop :=
  ∀ rest, Boundary rest →
    lexFrom terminates .start (text ++ rest) = (lexFrom terminates .start rest).map (tokens ++ ·)

/-- No character that a token is made of is a terminator; a quoted text may
still hold one. -/
structure Transparent : Prop where
  space : terminates ' ' = false
  single : ∀ c, isSingle c = true → terminates c = false
  mark : ∀ c, isMark c = true → terminates c = false
  word : ∀ c, isWordChar c = true → terminates c = false
  operator : ∀ c, isOperatorStart c = true → terminates c = false

variable {terminates}

theorem boundary_nil : Boundary [] := by
  intro c r h
  cases h

theorem boundary_space (rest : Text) : Boundary (' ' :: rest) := by
  rintro c r ⟨⟩
  exact .inl rfl

theorem boundary_comma (rest : Text) : Boundary (',' :: rest) := by
  rintro c r ⟨⟩
  exact .inr (.inl rfl)

theorem boundary_closing (rest : Text) : Boundary (')' :: rest) := by
  rintro c r ⟨⟩
  exact .inr (.inr rfl)

theorem lexFrom_nil (m : Mode) : lexFrom terminates m [] = finish m := by
  cases m <;> rfl

theorem lexFrom_cons {m : Mode} {c : Char} {rest : Text} (hc : terminates c = false) :
    lexFrom terminates m (c :: rest) =
      (step m c).bind fun out => (lexFrom terminates out.2 rest).map (out.1 ++ ·) := by
  rw [lexFrom, if_neg (by simp [hc])]

/-- A character that only changes the mode. -/
theorem lexFrom_step {m m' : Mode} {c : Char} {rest : Text} (hc : terminates c = false)
    (hstep : step m c = some ([], m')) :
    lexFrom terminates m (c :: rest) = lexFrom terminates m' rest := by
  rw [lexFrom_cons hc, hstep]
  simp

/-- A finished token is emitted before a boundary. -/
theorem lexFrom_boundary {m : Mode} {tokens : List Token} {rest : Text}
    (transparent : Transparent terminates) (done : finish m = some tokens)
    (ends : ∀ c, c = ' ' ∨ c = ',' ∨ c = ')' → step m c = next m c) (hrest : Boundary rest) :
    lexFrom terminates m rest = (lexFrom terminates .start rest).map (tokens ++ ·) := by
  cases rest with
  | nil =>
    rw [lexFrom_nil, lexFrom_nil, done]
    simp [finish]
  | cons c r =>
    have hboundary := hrest c r rfl
    have hc : terminates c = false := by
      rcases hboundary with rfl | rfl | rfl
      · exact transparent.space
      · exact transparent.single ',' rfl
      · exact transparent.single ')' rfl
    rw [lexFrom_cons hc, lexFrom_cons hc, ends c hboundary, next, done]
    cases hbegin : begin c with
    | none => simp [step, hbegin]
    | some out => simp [step, hbegin, Function.comp_def]

theorem lexFrom_space (transparent : Transparent terminates) (rest : Text) :
    lexFrom terminates .start (' ' :: rest) = lexFrom terminates .start rest :=
  lexFrom_step transparent.space rfl

theorem lexFrom_symbol {c : Char} (hc : terminates c = false)
    (hstep : begin c = some ([.symbol [c]], .start)) (rest : Text) :
    lexFrom terminates .start (c :: rest) =
      (lexFrom terminates .start rest).map ([.symbol [c]] ++ ·) := by
  rw [lexFrom_cons hc, step, hstep]
  rfl

namespace Lexes

variable {a b : Text} {ts us : List Token}

theorem lex_eq (h : Lexes terminates a ts) : lex terminates a = some ts := by
  have hnil := h [] boundary_nil
  simpa [lex, lexFrom, finish] using hnil

theorem append_space (transparent : Transparent terminates) (ha : Lexes terminates a ts)
    (hb : Lexes terminates b us) : Lexes terminates (a ++ ' ' :: b) (ts ++ us) := by
  intro rest hrest
  rw [List.append_assoc, List.cons_append, ha _ (boundary_space _), lexFrom_space transparent,
    hb rest hrest, Option.map_map]
  simp [Function.comp_def]

theorem append_comma (transparent : Transparent terminates) (ha : Lexes terminates a ts)
    (hb : Lexes terminates b us) :
    Lexes terminates (a ++ ", ".toList ++ b) (ts ++ .symbol [','] :: us) := by
  intro rest hrest
  have hsplit : a ++ ", ".toList ++ b ++ rest = a ++ ',' :: ' ' :: (b ++ rest) := by simp
  rw [hsplit, ha _ (boundary_comma _), lexFrom_symbol (transparent.single ',' rfl) rfl,
    lexFrom_space transparent, hb rest hrest, Option.map_map, Option.map_map]
  simp [Function.comp_def]

theorem parenthesized (transparent : Transparent terminates) (ha : Lexes terminates a ts) :
    Lexes terminates ('(' :: (a ++ [')'])) (.symbol ['('] :: (ts ++ [.symbol [')']])) := by
  intro rest hrest
  have hsplit : '(' :: (a ++ [')']) ++ rest = '(' :: (a ++ ')' :: rest) := by simp
  rw [hsplit, lexFrom_symbol (transparent.single '(' rfl) rfl, ha _ (boundary_closing _),
    lexFrom_symbol (transparent.single ')' rfl) rfl, Option.map_map, Option.map_map]
  simp [Function.comp_def]

/-- Items separated by commas. -/
theorem joinComma {α : Type} (transparent : Transparent terminates) {text : α → Text}
    {tokens : α → List Token} {items : List α}
    (each : ∀ x ∈ items, Lexes terminates (text x) (tokens x)) (nonempty : items ≠ []) :
    Lexes terminates (joinWith ", ".toList (items.map text))
      (joinWith [.symbol [',']] (items.map tokens)) := by
  induction items with
  | nil => exact absurd rfl nonempty
  | cons x items ih =>
    have hx := each x List.mem_cons_self
    cases items with
    | nil => simpa using hx
    | cons y items =>
      have hrest := ih (fun z hz => each z (List.mem_cons_of_mem _ hz)) (List.cons_ne_nil _ _)
      simpa [List.append_assoc] using hx.append_comma transparent hrest

/-- Items separated by a keyword between spaces. -/
theorem joinWord {α : Type} (transparent : Transparent terminates) {text : α → Text}
    {tokens : α → List Token} {items : List α} {keyword : Text} {t : Token}
    (hkeyword : Lexes terminates keyword [t])
    (each : ∀ x ∈ items, Lexes terminates (text x) (tokens x)) (nonempty : items ≠ []) :
    Lexes terminates (joinWith (' ' :: (keyword ++ [' '])) (items.map text))
      (joinWith [t] (items.map tokens)) := by
  induction items with
  | nil => exact absurd rfl nonempty
  | cons x items ih =>
    have hx := each x List.mem_cons_self
    cases items with
    | nil => simpa using hx
    | cons y items =>
      have hrest := ih (fun z hz => each z (List.mem_cons_of_mem _ hz)) (List.cons_ne_nil _ _)
      have hjoined := (hx.append_space transparent hkeyword).append_space transparent hrest
      simpa [List.append_assoc] using hjoined

end Lexes

/-- A word of letters is one token. -/
theorem lexes_word (transparent : Transparent terminates) {c : Char} {rest : Text}
    (first : begin c = some ([], .word [c])) (word : ∀ d ∈ c :: rest, isWordChar d = true) :
    Lexes terminates (c :: rest) [.word ((c :: rest).map Char.toUpper)] := by
  have inside : ∀ (ds read after : Text), (∀ d ∈ ds, isWordChar d = true) →
      lexFrom terminates (.word read) (ds ++ after) =
        lexFrom terminates (.word (ds.reverse ++ read)) after := by
    intro ds
    induction ds with
    | nil =>
      intro read after _
      rfl
    | cons d ds ih =>
      intro read after hword
      have hd := hword d List.mem_cons_self
      rw [List.cons_append, lexFrom_step (transparent.word d hd) (by rw [step, if_pos hd]),
        ih _ _ fun e he => hword e (List.mem_cons_of_mem _ he)]
      simp
  intro after hafter
  have hc := transparent.word c (word c List.mem_cons_self)
  rw [List.cons_append, lexFrom_step hc (show step .start c = _ from first),
    inside rest [c] after fun d hd => word d (List.mem_cons_of_mem _ hd)]
  refine lexFrom_boundary transparent (by simp [finish]) ?_ hafter
  rintro d (rfl | rfl | rfl) <;> rfl

theorem isWordChar_of_isDigit {c : Char} (hc : c.isDigit = true) : isWordChar c = true := by
  simp [isWordChar, hc]

theorem lexFrom_digits (transparent : Transparent terminates) {ds : Text}
    (digits : ∀ d ∈ ds, d.isDigit = true) (read after : Text) :
    lexFrom terminates (.digits read) (ds ++ after) =
      lexFrom terminates (.digits (ds.reverse ++ read)) after := by
  induction ds generalizing read with
  | nil => rfl
  | cons d ds ih =>
    have hd := digits d List.mem_cons_self
    rw [List.cons_append, lexFrom_step (transparent.word d (isWordChar_of_isDigit hd))
        (by rw [step, if_pos hd]),
      ih fun e he => digits e (List.mem_cons_of_mem _ he)]
    simp

/-- A digit begins a number, also behind an operator it does not extend. -/
theorem begin_digit {c : Char} (hc : c.isDigit = true) : begin c = some ([], .digits [c]) := by
  have hrange : 48 ≤ c.toNat ∧ c.toNat ≤ 57 := Char.isDigit_iff_toNat.mp hc
  rw [← Char.ofNat_toNat c]
  generalize c.toNat = n at hrange
  obtain ⟨hlow, hhigh⟩ := hrange
  interval_cases n <;> rfl

theorem lexes_number (transparent : Transparent terminates) {ds : Text} (nonempty : ds ≠ [])
    (digits : ∀ d ∈ ds, d.isDigit = true) : Lexes terminates ds [.number ds] := by
  intro rest hrest
  cases ds with
  | nil => exact absurd rfl nonempty
  | cons d ds =>
    have hd := digits d List.mem_cons_self
    rw [List.cons_append, lexFrom_step (transparent.word d (isWordChar_of_isDigit hd))
        (show step .start d = _ from begin_digit hd),
      lexFrom_digits transparent fun e he => digits e (List.mem_cons_of_mem _ he)]
    refine lexFrom_boundary transparent (by simp [finish]) ?_ hrest
    rintro c (rfl | rfl | rfl) <;> rfl

/-- A minus sign in front of a number is a token of its own. -/
theorem lexes_negative (transparent : Transparent terminates) {ds : Text} (nonempty : ds ≠ [])
    (digits : ∀ d ∈ ds, d.isDigit = true) :
    Lexes terminates ('-' :: ds) [.symbol ['-'], .number ds] := by
  intro rest hrest
  cases ds with
  | nil => exact absurd rfl nonempty
  | cons d ds =>
    have hd := digits d List.mem_cons_self
    have hplain : d ≠ '-' ∧ d ≠ '>' := by
      constructor <;>
        · rintro rfl
          exact absurd hd (by decide)
    have hstep : step (.pending ['-']) d = some ([.symbol ['-']], .digits [d]) := by
      rw [step, if_neg, if_neg, if_neg]
      · simp [next, finish, begin_digit hd]
      · simp [longOperators, hplain.2]
      · simp
      · simp [hplain.1]
    have hbody := lexFrom_digits transparent
      (fun e he => digits e (List.mem_cons_of_mem _ he)) [d] rest
    have hend : lexFrom terminates (.digits (ds.reverse ++ [d])) rest =
        (lexFrom terminates .start rest).map ([.number (d :: ds)] ++ ·) := by
      refine lexFrom_boundary transparent (by simp [finish]) ?_ hrest
      rintro c (rfl | rfl | rfl) <;> rfl
    rw [List.cons_append, List.cons_append, lexFrom_step (transparent.operator '-' rfl) rfl,
      lexFrom_cons (transparent.word d (isWordChar_of_isDigit hd)), hstep]
    simp [hbody, hend, Function.comp_def]

/-- An operator of one character. -/
theorem lexes_operator (transparent : Transparent terminates) {c : Char}
    (first : begin c = some ([], .pending [c])) (visible : terminates c = false)
    (done : finish (.pending [c]) = some [.symbol [c]])
    (ends : ∀ d, d = ' ' ∨ d = ',' ∨ d = ')' → step (.pending [c]) d = next (.pending [c]) d) :
    Lexes terminates [c] [.symbol [c]] := by
  intro rest hrest
  rw [List.singleton_append, lexFrom_step visible (show step .start c = _ from first)]
  exact lexFrom_boundary transparent done ends hrest

/-- An operator of two characters. -/
theorem lexes_operator₂ (transparent : Transparent terminates) {c d : Char}
    (first : begin c = some ([], .pending [c]))
    (second : step (.pending [c]) d = some ([], .pending [c, d]))
    (visible : terminates c = false ∧ terminates d = false)
    (done : finish (.pending [c, d]) = some [.symbol [c, d]])
    (ends : ∀ e, e = ' ' ∨ e = ',' ∨ e = ')' →
      step (.pending [c, d]) e = next (.pending [c, d]) e) :
    Lexes terminates [c, d] [.symbol [c, d]] := by
  intro rest hrest
  rw [List.cons_append, List.singleton_append,
    lexFrom_step visible.1 (show step .start c = _ from first), lexFrom_step visible.2 second]
  exact lexFrom_boundary transparent done ends hrest

/-- A text between quote marks, its own marks doubled. -/
def doubled (mark : Char) (value : Text) : Text :=
  value.flatMap fun c => if c = mark then [mark, mark] else [c]

theorem doubled_of_not_mem {mark : Char} {value : Text} (h : mark ∉ value) :
    doubled mark value = value := by
  induction value with
  | nil => rfl
  | cons c value ih =>
    have hc : c ≠ mark := fun he => h (he ▸ List.mem_cons_self)
    have hrest := ih fun hm => h (List.mem_cons_of_mem c hm)
    rw [doubled, List.flatMap_cons, if_neg hc]
    exact congrArg (c :: ·) hrest

/-- After any part of a quoted text the lexer is still inside the token. -/
theorem lexFrom_doubled {mark : Char} {value : Text} (hmark : terminates mark = false)
    (visible : ∀ c ∈ value, terminates c = false) (read rest : Text) :
    lexFrom terminates (.quoted mark read) (doubled mark value ++ rest) =
      lexFrom terminates (.quoted mark (value.reverse ++ read)) rest := by
  induction value generalizing read with
  | nil => rfl
  | cons c value ih =>
    have ih := fun read => ih (fun d hd => visible d (List.mem_cons_of_mem _ hd)) read
    by_cases hc : c = mark
    · subst hc
      have hsplit : doubled c (c :: value) ++ rest = c :: c :: (doubled c value ++ rest) := by
        simp [doubled]
      rw [hsplit, lexFrom_step hmark (by rw [step, if_pos rfl]),
        lexFrom_step hmark (by rw [step, if_pos rfl]), ih]
      simp
    · have hsplit : doubled mark (c :: value) ++ rest = c :: (doubled mark value ++ rest) := by
        simp [doubled, hc]
      rw [hsplit, lexFrom_step (visible c List.mem_cons_self) (by rw [step, if_neg hc]), ih]
      simp

/-- The opening mark enters the token. -/
theorem lexFrom_open {mark : Char} (hmark : terminates mark = false)
    (opens : begin mark = some ([], .quoted mark [])) (rest : Text) :
    lexFrom terminates .start (mark :: rest) = lexFrom terminates (.quoted mark []) rest :=
  lexFrom_step hmark opens

theorem lexes_quoted (transparent : Transparent terminates) {mark : Char}
    (hmark : mark = '\'' ∨ mark = '"') {value : Text}
    (visible : ∀ c ∈ value, terminates c = false) :
    Lexes terminates (mark :: (doubled mark value ++ [mark]))
      [if mark = '\'' then .string value else .identifier value] := by
  intro rest hrest
  have hvisible : terminates mark = false := by
    rcases hmark with rfl | rfl <;> exact transparent.mark _ rfl
  have hopen : begin mark = some ([], .quoted mark []) := by
    rcases hmark with rfl | rfl <;> rfl
  have hsplit : mark :: (doubled mark value ++ [mark]) ++ rest =
      mark :: (doubled mark value ++ mark :: rest) := by simp
  rw [hsplit, lexFrom_open hvisible hopen, lexFrom_doubled hvisible visible,
    lexFrom_step hvisible (by rw [step, if_pos rfl])]
  refine lexFrom_boundary transparent (by simp [finish]) ?_ hrest
  intro c hc
  rcases hmark with rfl | rfl <;> rcases hc with rfl | rfl | rfl <;> rfl

example : lex (fun _ => false) "x='it''s -- ok' -- no".toList =
    some [.word ['X'], .symbol ['='], .string "it's -- ok".toList] := by decide

end SqlLexer
