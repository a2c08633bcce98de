import Mathlib.Tactic.IntervalCases
import PlanRace.Library.LexOrder
import PlanRace.Library.UniqueReadability

/-!
# JSON documents without fractional numbers and their compact text

The text is the one `json.dumps` prints with `ensure_ascii=False` and the
separators `","` and `":"`; with `sortKeys` the members of every object are
printed in code-point order of their names. Two documents print alike with
sorted keys exactly when they agree up to the order of object members.
-/

namespace JsonText

open UniqueReadability LexOrder

abbrev Text := List Char

instance lawfulBEq_text : LawfulBEq Text := inferInstance

/-- A character that does not start a decimal digit, or the end of the text. -/
def NotDigit (s : Text) : Prop := ∀ c r, s = c :: r → c.isDigit = false

section Numerals

/-- `str(n)` for integers of any size. -/
def intText : Int → Text
  | .ofNat n => Nat.toDigits 10 n
  | .negSucc n => '-' :: Nat.toDigits 10 (n + 1)

theorem takeWhile_digits {ds s : Text} (digits : ∀ c ∈ ds, c.isDigit = true)
    (hs : NotDigit s) : (ds ++ s).takeWhile Char.isDigit = ds := by
  rw [List.takeWhile_append_of_pos digits]
  cases s with
  | nil => simp
  | cons c r => simp [hs c r rfl]

theorem digits_readable (n m : Nat) (s t : Text) (hs : NotDigit s) (ht : NotDigit t)
    (he : Nat.toDigits 10 n ++ s = Nat.toDigits 10 m ++ t) : n = m ∧ s = t := by
  have digit : ∀ k, ∀ c ∈ Nat.toDigits 10 k, c.isDigit = true := fun k c hc =>
    Nat.isDigit_of_mem_toDigits (by decide) (by decide) hc
  have hdigits : Nat.toDigits 10 n = Nat.toDigits 10 m := by
    rw [← takeWhile_digits (digit n) hs, he, takeWhile_digits (digit m) ht]
  refine ⟨?_, List.append_cancel_left (hdigits ▸ he)⟩
  rw [← Nat.ofDigitChars_ten_toDigits (n := n), hdigits, Nat.ofDigitChars_ten_toDigits]

theorem digits_ne_minus (n : Nat) (s t : Text) :
    Nat.toDigits 10 n ++ s ≠ '-' :: t := by
  intro he
  cases hd : Nat.toDigits 10 n with
  | nil => exact Nat.toDigits_ne_nil hd
  | cons c r =>
    have hc : c.isDigit = true :=
      Nat.isDigit_of_mem_toDigits (b := 10) (n := n) (by decide) (by decide) (by simp [hd])
    rw [hd] at he
    obtain ⟨rfl, _⟩ := List.cons.inj he
    exact absurd hc (by decide)

theorem intText_readable (i : Int) : ReadableAt NotDigit Eq intText i := by
  intro j s t hs ht he
  cases i with
  | ofNat n =>
    cases j with
    | ofNat m =>
      obtain ⟨hnm, hst⟩ := digits_readable n m s t hs ht he
      exact ⟨congrArg Int.ofNat hnm, hst⟩
    | negSucc m => exact absurd he (digits_ne_minus n s _)
  | negSucc n =>
    cases j with
    | ofNat m => exact absurd he.symm (digits_ne_minus m t _)
    | negSucc m =>
      obtain ⟨hnm, hst⟩ := digits_readable (n + 1) (m + 1) s t hs ht (List.cons.inj he).2
      exact ⟨by rw [Nat.succ.inj hnm], hst⟩

theorem intText_injective : Function.Injective intText := fun i j he =>
  (intText_readable i).same_of_eq (fun c r h => by cases h) he

end Numerals

section Strings

/-- Lower-case hexadecimal digit of a value below sixteen. -/
def hexDigit (n : Nat) : Char := "0123456789abcdef".toList.getD n '0'

/-- The escape table of `json.encoder` with `ensure_ascii=False`. -/
def escapeChar (c : Char) : Text :=
  if c = '"' then ['\\', '"']
  else if c = '\\' then ['\\', '\\']
  else if c = '\n' then ['\\', 'n']
  else if c = '\r' then ['\\', 'r']
  else if c = '\t' then ['\\', 't']
  else if c = '\x0c' then ['\\', 'f']
  else if c = '\x08' then ['\\', 'b']
  else if c.toNat < 32 then
    ['\\', 'u', '0', '0', hexDigit (c.toNat / 16), hexDigit (c.toNat % 16)]
  else [c]

def quote (s : Text) : Text := '"' :: (s.flatMap escapeChar ++ ['"'])

def hexValue (c : Char) : Nat := "0123456789abcdef".toList.idxOf c

/-- Reads one escaped character back; used only to show the escapes readable. -/
def unescape : Text → Option (Char × Text)
  | '\\' :: '"' :: r => some ('"', r)
  | '\\' :: '\\' :: r => some ('\\', r)
  | '\\' :: 'n' :: r => some ('\n', r)
  | '\\' :: 'r' :: r => some ('\r', r)
  | '\\' :: 't' :: r => some ('\t', r)
  | '\\' :: 'f' :: r => some ('\x0c', r)
  | '\\' :: 'b' :: r => some ('\x08', r)
  | '\\' :: 'u' :: '0' :: '0' :: h :: l :: r =>
    some (Char.ofNat (hexValue h * 16 + hexValue l), r)
  | '"' :: _ => none
  | c :: r => some (c, r)
  | [] => none

theorem unescape_control (n : Nat) (hn : n < 32) (r : Text) :
    unescape ('\\' :: 'u' :: '0' :: '0' :: hexDigit (n / 16) :: hexDigit (n % 16) :: r) =
      some (Char.ofNat n, r) := by
  interval_cases n <;> rfl

theorem unescape_escapeChar (c : Char) (r : Text) :
    unescape (escapeChar c ++ r) = some (c, r) := by
  unfold escapeChar
  split_ifs with h1 h2 h3 h4 h5 h6 h7 h8
  all_goals try (subst c; rfl)
  · exact (unescape_control c.toNat h8 r).trans (by rw [Char.ofNat_toNat])
  · simp only [List.cons_append, List.nil_append, unescape]
    split <;> simp_all

theorem escapeChar_prefixFree : PrefixFree escapeChar := by
  intro a b s t he
  have h := congrArg unescape he
  rw [unescape_escapeChar, unescape_escapeChar] at h
  obtain ⟨hab, hst⟩ := Prod.mk.inj (Option.some.inj h)
  exact ⟨hab, hst⟩

theorem quote_prefixFree : PrefixFree quote := by
  intro a b s t he
  have hbody : a.flatMap escapeChar ++ '"' :: s = b.flatMap escapeChar ++ '"' :: t := by
    simpa [quote] using he
  have fresh : ∀ c r, ¬ unescape (escapeChar c ++ r) = none := by
    intro c r h
    rw [unescape_escapeChar] at h
    cases h
  obtain ⟨hab, hst⟩ := escapeChar_prefixFree.flatMap_append
    (fun w => unescape w = none) fresh a b _ _ rfl rfl hbody
  exact ⟨hab, (List.cons.inj hst).2⟩

end Strings

inductive Json where
  | null
  | bool (b : Bool)
  | int (i : Int)
  | str (s : Text)
  | arr (items : List Json)
  | obj (members : List (Text × Json))

/-- Induction over documents, with the hypothesis for every item and member. -/
@[elab_as_elim, induction_eliminator]
theorem Json.induct {P : Json → Prop} (null : P .null) (bool : ∀ b, P (.bool b))
    (int : ∀ i, P (.int i)) (str : ∀ s, P (.str s))
    (arr : ∀ items, (∀ x ∈ items, P x) → P (.arr items))
    (obj : ∀ members, (∀ m ∈ members, P m.2) → P (.obj members)) : ∀ j, P j
  | .null => null
  | .bool b => bool b
  | .int i => int i
  | .str s => str s
  | .arr items => arr items fun x _ => Json.induct null bool int str arr obj x
  | .obj members => obj members fun m _ => Json.induct null bool int str arr obj m.2
termination_by j => sizeOf j
decreasing_by
  · have := List.sizeOf_lt_of_mem ‹x ∈ items›
    simp
    omega
  · have := List.sizeOf_lt_of_mem ‹m ∈ members›
    obtain ⟨k, v⟩ := m
    simp at this ⊢
    omega

/-- Object members in code-point order of their names, or in document order. -/
def orderMembers {β : Type} (sortKeys : Bool) (members : List (Text × β)) : List (Text × β) :=
  if sortKeys then sortBy Char.toNat Prod.fst members else members

def memberText (m : Text × Text) : Text := quote m.1 ++ ':' :: m.2

mutual

def dumps (sortKeys : Bool) : Json → Text
  | .null => "null".toList
  | .bool true => "true".toList
  | .bool false => "false".toList
  | .int i => intText i
  | .str s => quote s
  | .arr items => '[' :: (joinWith [','] (dumpsItems sortKeys items) ++ [']'])
  | .obj members =>
    '{' :: (joinWith [','] ((orderMembers sortKeys (dumpsMembers sortKeys members)).map memberText)
      ++ ['}'])

def dumpsItems (sortKeys : Bool) : List Json → List Text
  | [] => []
  | x :: items => dumps sortKeys x :: dumpsItems sortKeys items

def dumpsMembers (sortKeys : Bool) : List (Text × Json) → List (Text × Text)
  | [] => []
  | (k, v) :: members => (k, dumps sortKeys v) :: dumpsMembers sortKeys members

end

mutual

/-- The document with the members of every object in code-point order. -/
def Json.normalize : Json → Json
  | .null => .null
  | .bool b => .bool b
  | .int i => .int i
  | .str s => .str s
  | .arr items => .arr (normalizeItems items)
  | .obj members => .obj (sortBy Char.toNat Prod.fst (normalizeMembers members))

def Json.normalizeItems : List Json → List Json
  | [] => []
  | x :: items => x.normalize :: normalizeItems items

def Json.normalizeMembers : List (Text × Json) → List (Text × Json)
  | [] => []
  | (k, v) :: members => (k, v.normalize) :: normalizeMembers members

end

/-- Equality of documents up to the order of object members. -/
def Json.Same (a b : Json) : Prop := a.normalize = b.normalize

section Rendering

theorem dumpsItems_eq_map (sortKeys : Bool) (items : List Json) :
    dumpsItems sortKeys items = items.map (dumps sortKeys) := by
  induction items with
  | nil => rfl
  | cons x items ih => rw [dumpsItems, ih, List.map_cons]

theorem dumpsMembers_eq_map (sortKeys : Bool) (members : List (Text × Json)) :
    dumpsMembers sortKeys members = members.map fun m => (m.1, dumps sortKeys m.2) := by
  induction members with
  | nil => rfl
  | cons m members ih => rw [dumpsMembers, ih, List.map_cons]

theorem normalizeItems_eq_map (items : List Json) :
    Json.normalizeItems items = items.map Json.normalize := by
  induction items with
  | nil => rfl
  | cons x items ih => rw [Json.normalizeItems, ih, List.map_cons]

theorem normalizeMembers_eq_map (members : List (Text × Json)) :
    Json.normalizeMembers members = members.map fun m => (m.1, m.2.normalize) := by
  induction members with
  | nil => rfl
  | cons m members ih => rw [Json.normalizeMembers, ih, List.map_cons]

@[simp] theorem normalize_null : Json.null.normalize = .null := rfl

@[simp] theorem normalize_bool (b : Bool) : (Json.bool b).normalize = .bool b := rfl

@[simp] theorem normalize_int (i : Int) : (Json.int i).normalize = .int i := rfl

@[simp] theorem normalize_str (s : Text) : (Json.str s).normalize = .str s := rfl

@[simp] theorem normalize_arr (items : List Json) :
    (Json.arr items).normalize = .arr (items.map Json.normalize) := by
  rw [Json.normalize, normalizeItems_eq_map]

theorem normalize_obj (members : List (Text × Json)) :
    (Json.obj members).normalize =
      .obj ((sortBy Char.toNat Prod.fst members).map fun m => (m.1, m.2.normalize)) := by
  rw [Json.normalize, normalizeMembers_eq_map]
  exact congrArg Json.obj (map_sortBy _ _ _ _ _ fun _ _ => rfl).symm

/-- One member as it is printed: its quoted name, a colon and its value. -/
def memberDumps (sortKeys : Bool) (m : Text × Json) : Text := quote m.1 ++ ':' :: dumps sortKeys m.2

theorem dumps_arr {sortKeys : Bool} (items : List Json) :
    dumps sortKeys (.arr items) =
      '[' :: (joinWith [','] (items.map (dumps sortKeys)) ++ [']']) := by
  rw [dumps, dumpsItems_eq_map]

theorem dumps_obj (members : List (Text × Json)) :
    dumps true (.obj members) =
      '{' :: (joinWith [','] ((sortBy Char.toNat Prod.fst members).map (memberDumps true))
        ++ ['}']) := by
  have hsort := map_sortBy Char.toNat Prod.fst Prod.fst
    (fun m : Text × Json => (m.1, dumps true m.2)) members (fun _ _ => rfl)
  rw [dumps, dumpsMembers_eq_map, orderMembers, if_pos rfl, ← hsort, List.map_map]
  rfl

theorem dumps_obj_unsorted (members : List (Text × Json)) :
    dumps false (.obj members) =
      '{' :: (joinWith [','] (members.map (memberDumps false)) ++ ['}']) := by
  rw [dumps, dumpsMembers_eq_map, orderMembers, if_neg Bool.false_ne_true, List.map_map]
  rfl

/-- A document is printed with the print of each of its members. -/
theorem infix_dumps_obj {m : Text × Json} {members : List (Text × Json)} (h : m ∈ members) :
    dumps false m.2 <:+: dumps false (.obj members) := by
  have printed : memberText (m.1, dumps false m.2) ∈
      (orderMembers false (dumpsMembers false members)).map memberText := by
    rw [dumpsMembers_eq_map]
    exact List.mem_map_of_mem (List.mem_map_of_mem (f := fun m => (m.1, dumps false m.2)) h)
  have value : dumps false m.2 <:+: memberText (m.1, dumps false m.2) :=
    ((List.suffix_cons _ _).trans (List.suffix_append _ _)).isInfix
  have joined : dumps false m.2 <:+: joinWith [',']
      ((orderMembers false (dumpsMembers false members)).map memberText) :=
    value.trans (infix_joinWith printed)
  exact (joined.trans (List.prefix_append _ _).isInfix).trans (List.suffix_cons _ _).isInfix

/-- A string is printed with its plain characters. -/
theorem infix_dumps_str {s : Text} (plain : ∀ c ∈ s, escapeChar c = [c]) :
    s <:+: dumps false (.str s) := by
  have escaped : s.flatMap escapeChar = s := by
    rw [List.flatMap_congr plain, List.flatMap_singleton']
  have quoted : dumps false (.str s) = '"' :: (s ++ ['"']) := by
    rw [dumps, quote, escaped]
  rw [quoted]
  exact (List.prefix_append _ _).isInfix.trans (List.suffix_cons _ _).isInfix

/-- Sorting while printing is printing what was sorted first. -/
theorem dumps_eq_dumps_normalize (j : Json) : dumps true j = dumps false j.normalize := by
  induction j with
  | null => rfl
  | bool b => cases b <;> rfl
  | int i => rfl
  | str s => rfl
  | arr items ih =>
    have hitems : (items.map Json.normalize).map (dumps false) = items.map (dumps true) := by
      rw [List.map_map]
      exact List.map_congr_left fun x hx => (ih x hx).symm
    rw [normalize_arr, dumps_arr, dumps_arr, hitems]
  | obj members ih =>
    have hmembers : ((sortBy Char.toNat Prod.fst members).map fun m => (m.1, m.2.normalize)).map
        (memberDumps false) = (sortBy Char.toNat Prod.fst members).map (memberDumps true) := by
      rw [List.map_map]
      refine List.map_congr_left fun m hm => ?_
      simp only [Function.comp_apply, memberDumps, ih m (mem_sortBy.mp hm)]
    rw [normalize_obj, dumps_obj, dumps_obj_unsorted, hmembers]

end Rendering

section Reading

/-- The kind of document announced by its first character. -/
def headTag (c : Char) : Nat :=
  if c = 'n' then 0
  else if c = 't' ∨ c = 'f' then 1
  else if c = '-' ∨ c.isDigit = true then 2
  else if c = '"' then 3
  else if c = '[' then 4
  else if c = '{' then 5
  else 6

def Json.tag : Json → Nat
  | .null => 0
  | .bool _ => 1
  | .int _ => 2
  | .str _ => 3
  | .arr _ => 4
  | .obj _ => 5

theorem headTag_of_isDigit {c : Char} (hc : c.isDigit = true) : headTag c = 2 := by
  have hn : c ≠ 'n' := by rintro rfl; exact absurd hc (by decide)
  have ht : c ≠ 't' := by rintro rfl; exact absurd hc (by decide)
  have hf : c ≠ 'f' := by rintro rfl; exact absurd hc (by decide)
  simp [headTag, hn, ht, hf, hc]

theorem dumps_head (j : Json) : ∃ c r, dumps false j = c :: r ∧ headTag c = j.tag := by
  cases j with
  | null => exact ⟨_, _, rfl, rfl⟩
  | bool b => cases b <;> exact ⟨_, _, rfl, rfl⟩
  | int i =>
    cases i with
    | ofNat n =>
      cases hd : Nat.toDigits 10 n with
      | nil => exact absurd hd Nat.toDigits_ne_nil
      | cons c r =>
        refine ⟨c, r, hd, headTag_of_isDigit ?_⟩
        exact Nat.isDigit_of_mem_toDigits (b := 10) (n := n) (by decide) (by decide) (by simp [hd])
    | negSucc n => exact ⟨_, _, rfl, rfl⟩
  | str s => exact ⟨_, _, rfl, rfl⟩
  | arr items => exact ⟨_, _, rfl, rfl⟩
  | obj members => exact ⟨_, _, rfl, rfl⟩

theorem tag_eq_of_dumps {a b : Json} {s t : Text}
    (he : dumps false a ++ s = dumps false b ++ t) : a.tag = b.tag := by
  obtain ⟨c, r, hc, htag⟩ := dumps_head a
  obtain ⟨d, r', hd, htag'⟩ := dumps_head b
  rw [hc, hd] at he
  obtain ⟨hcd, _⟩ := List.cons.inj he
  rw [← htag, ← htag', hcd]

theorem dumps_ne_of_headTag (j : Json) (c : Char) (s r : Text) (hc : headTag c = 6) :
    c :: s ≠ dumps false j ++ r := by
  obtain ⟨d, r', hd, htag⟩ := dumps_head j
  rw [hd]
  intro he
  obtain ⟨rfl, _⟩ := List.cons.inj he
  rw [hc] at htag
  cases j <;> cases htag

theorem notDigit_cons {c : Char} (hc : c.isDigit = false) (r : Text) : NotDigit (c :: r) := by
  intro d r' he
  obtain ⟨rfl, _⟩ := List.cons.inj he
  exact hc

theorem notDigit_nil : NotDigit [] := by
  intro c r he
  cases he

theorem items_delimiters :
    Delimiters NotDigit (fun s => ∃ r, s = ']' :: r) [','] (dumps false) where
  sepFollows r := notDigit_cons rfl r
  closeFollows := by
    rintro s ⟨r, rfl⟩
    exact notDigit_cons rfl r
  closeNeSep := by
    rintro s r ⟨r', rfl⟩ he
    cases he
  closeNeItem := by
    rintro j s r ⟨r', rfl⟩
    exact dumps_ne_of_headTag j ']' r' r rfl

theorem members_delimiters :
    Delimiters NotDigit (fun s => ∃ r, s = '}' :: r) [','] (memberDumps false) where
  sepFollows r := notDigit_cons rfl r
  closeFollows := by
    rintro s ⟨r, rfl⟩
    exact notDigit_cons rfl r
  closeNeSep := by
    rintro s r ⟨r', rfl⟩ he
    cases he
  closeNeItem := by
    rintro m s r ⟨r', rfl⟩ he
    cases he

theorem memberDumps_readable {m : Text × Json}
    (hv : ReadableAt NotDigit Eq (dumps false) m.2) :
    ReadableAt NotDigit Eq (memberDumps false) m := by
  intro n s t hs ht he
  simp only [memberDumps, List.append_assoc, List.cons_append] at he
  obtain ⟨hname, hrest⟩ := quote_prefixFree _ _ _ _ he
  obtain ⟨hvalue, hst⟩ := hv n.2 s t hs ht (List.cons.inj hrest).2
  exact ⟨Prod.ext hname hvalue, hst⟩

/-- Unique readability: a printed document ends where it ends, and determines
the document. -/
theorem dumps_readable (j : Json) : ReadableAt NotDigit Eq (dumps false) j := by
  induction j with
  | null =>
    intro b s t _ _ he
    cases b <;> cases tag_eq_of_dumps he
    exact ⟨rfl, List.append_cancel_left he⟩
  | bool b =>
    intro c s t _ _ he
    cases c <;> cases tag_eq_of_dumps he
    rename_i c
    cases b <;> cases c
    · exact ⟨rfl, List.append_cancel_left he⟩
    · cases he
    · cases he
    · exact ⟨rfl, List.append_cancel_left he⟩
  | int i =>
    intro b s t hs ht he
    cases b <;> cases tag_eq_of_dumps he
    obtain ⟨hi, hst⟩ := intText_readable i _ s t hs ht he
    exact ⟨congrArg Json.int hi, hst⟩
  | str w =>
    intro b s t _ _ he
    cases b <;> cases tag_eq_of_dumps he
    obtain ⟨hw, hst⟩ := quote_prefixFree w _ s t he
    exact ⟨congrArg Json.str hw, hst⟩
  | arr items ih =>
    intro b s t _ _ he
    cases b <;> cases tag_eq_of_dumps he
    rename_i items'
    rw [dumps_arr, dumps_arr] at he
    simp only [List.cons_append, List.append_assoc, List.cons.injEq, true_and] at he
    obtain ⟨hitems, hst⟩ :=
      joinWith_readable items_delimiters items ih items' _ _ ⟨_, rfl⟩ ⟨_, rfl⟩ he
    exact ⟨congrArg Json.arr (List.forall₂_eq_eq_eq ▸ hitems), (List.cons.inj hst).2⟩
  | obj members ih =>
    intro b s t _ _ he
    cases b <;> cases tag_eq_of_dumps he
    rename_i members'
    rw [dumps_obj_unsorted, dumps_obj_unsorted] at he
    simp only [List.cons_append, List.append_assoc, List.cons.injEq, true_and] at he
    obtain ⟨hmembers, hst⟩ := joinWith_readable members_delimiters _
      (fun m hm => memberDumps_readable (ih m hm)) _ _ _ ⟨_, rfl⟩ ⟨_, rfl⟩ he
    exact ⟨congrArg Json.obj (List.forall₂_eq_eq_eq ▸ hmembers), (List.cons.inj hst).2⟩

theorem dumps_injective : Function.Injective (dumps false) :=
  fun a _ he => (dumps_readable a).same_of_eq notDigit_nil he

/-- The sorted compact text identifies a document up to member order. -/
theorem dumps_eq_iff (a b : Json) : dumps true a = dumps true b ↔ a.Same b := by
  rw [dumps_eq_dumps_normalize, dumps_eq_dumps_normalize, dumps_injective.eq_iff]
  rfl

end Reading

section Objects

/-- Records with the same distinct member names, written in the same order,
agree up to member order only when they agree member by member. -/
theorem eq_of_perm_of_keys {β : Type} {ms ns : List (Text × β)}
    (keys : ms.map Prod.fst = ns.map Prod.fst) (distinct : (ms.map Prod.fst).Nodup)
    (hp : ms.Perm ns) : ms = ns := by
  induction ms generalizing ns with
  | nil => exact (List.perm_nil.mp hp.symm).symm
  | cons m ms ih =>
    cases ns with
    | nil => cases keys
    | cons n ns =>
      obtain ⟨hkey, hkeys⟩ := List.cons.inj keys
      obtain ⟨hfresh, hnodup⟩ := List.nodup_cons.mp distinct
      have hmn : m = n := by
        rcases List.mem_cons.mp (hp.subset List.mem_cons_self) with heq | hmem
        · exact heq
        · exact absurd (hkeys ▸ List.mem_map_of_mem hmem) hfresh
      subst hmn
      rw [ih hkeys hnodup ((List.perm_cons m).mp hp)]

theorem normalize_obj_eq_iff {ms ns : List (Text × Json)}
    (keys : ms.map Prod.fst = ns.map Prod.fst) (distinct : (ms.map Prod.fst).Nodup) :
    (Json.obj ms).normalize = (Json.obj ns).normalize ↔
      ms.map (fun m => m.2.normalize) = ns.map (fun m => m.2.normalize) := by
  simp only [Json.normalize, normalizeMembers_eq_map, Json.obj.injEq]
  constructor
  · intro he
    have hkeys : (ms.map fun m => (m.1, m.2.normalize)).map Prod.fst =
        (ns.map fun m => (m.1, m.2.normalize)).map Prod.fst := by
      simpa [List.map_map, Function.comp_def] using keys
    have hdistinct : ((ms.map fun m => (m.1, m.2.normalize)).map Prod.fst).Nodup := by
      simpa [List.map_map, Function.comp_def] using distinct
    have heq := eq_of_perm_of_keys hkeys hdistinct (perm_of_sortBy_eq he)
    simpa [List.map_map, Function.comp_def] using congrArg (List.map Prod.snd) heq
  · intro he
    congr 1
    induction ms generalizing ns with
    | nil =>
      cases ns with
      | nil => rfl
      | cons n ns => cases keys
    | cons m ms ih =>
      cases ns with
      | nil => cases keys
      | cons n ns =>
        obtain ⟨hkey, hkeys⟩ := List.cons.inj keys
        obtain ⟨hvalue, hvalues⟩ := List.cons.inj he
        rw [List.map_cons, List.map_cons, hkey, show m.2.normalize = n.2.normalize from hvalue,
          ih hkeys (List.nodup_cons.mp distinct).2 hvalues]

theorem length_eq_of_normalize_obj_eq {ms ns : List (Text × Json)}
    (he : (Json.obj ms).normalize = (Json.obj ns).normalize) : ms.length = ns.length := by
  rw [normalize_obj, normalize_obj] at he
  simpa using congrArg List.length (Json.obj.inj he)

end Objects

/-- Comparing two objects with one list of member names. -/
theorem same_obj_iff {ms ns : List (Text × Json)} (keys : ms.map Prod.fst = ns.map Prod.fst)
    (distinct : (ms.map Prod.fst).Nodup) :
    (Json.obj ms).Same (Json.obj ns) ↔
      ms.map (fun m => m.2.normalize) = ns.map (fun m => m.2.normalize) :=
  normalize_obj_eq_iff keys distinct

theorem values_of_same {ms ns : List (Text × Json)} (h : (Json.obj ms).Same (Json.obj ns))
    (keys : ms.map Prod.fst = ns.map Prod.fst) (distinct : (ms.map Prod.fst).Nodup) :
    ms.map (fun m => m.2.normalize) = ns.map (fun m => m.2.normalize) :=
  (normalize_obj_eq_iff keys distinct).mp h

end JsonText
