import PlanRace.Library.ByteStrings
import PlanRace.Library.JsonText

/-!
# JSON texts in ASCII

`json.dumps` escapes every character outside printable ASCII unless it is told
not to. Objects and arrays are also printed from the texts of their parts, for
parts that are no `Json` document.
-/

namespace AsciiJson

open JsonText LexOrder ByteStrings UniqueReadability

/-- A UTF-16 code unit as an escape. -/
def unitEscape (unit : Nat) : Text :=
  ['\\', 'u', hexDigit (unit / 4096), hexDigit (unit / 256 % 16), hexDigit (unit / 16 % 16),
    hexDigit (unit % 16)]

/-- The ASCII text of a character; one beyond the first plane is a pair of units. -/
def asciiChar (c : Char) : Text :=
  if ' ' ≤ c ∧ c ≤ '~' then [c]
  else if c.toNat < 65536 then unitEscape c.toNat
  else unitEscape (55296 + (c.toNat - 65536) / 1024) ++ unitEscape (56320 + (c.toNat - 65536) % 1024)

/-- The text with `ensure_ascii=True` of a document printed without. -/
def asciiText (text : Text) : Text := text.flatMap asciiChar

/-- An object with sorted keys, from the texts of its values. -/
def objectText (members : List (Text × Text)) : Text :=
  '{' :: (joinWith [','] ((orderMembers true members).map memberText) ++ ['}'])

def arrayText (items : List Text) : Text := '[' :: (joinWith [','] items ++ [']'])

theorem objectText_eq_dumps (members : List (Text × Json)) :
    objectText (members.map fun m => (m.1, dumps true m.2)) = dumps true (.obj members) := by
  rw [dumps, dumpsMembers_eq_map, objectText]

theorem arrayText_eq_dumps (items : List Json) :
    arrayText (items.map (dumps true)) = dumps true (.arr items) := by
  rw [dumps, dumpsItems_eq_map, arrayText]

theorem asciiText_append (s t : Text) : asciiText (s ++ t) = asciiText s ++ asciiText t :=
  List.flatMap_append

theorem asciiText_intText (i : Int) : asciiText (intText i) = intText i := by
  have plain : ∀ c ∈ intText i, asciiChar c = [c] := by
    have digit : ∀ n, ∀ c ∈ Nat.toDigits 10 n, asciiChar c = [c] := by
      intro n c hc
      have hd := Nat.isDigit_of_mem_toDigits (by decide) (by decide) hc
      simp only [Char.isDigit, Bool.and_eq_true, decide_eq_true_eq] at hd
      have low : ' ' ≤ c := Char.le_trans (show ' ' ≤ '0' by decide) hd.1
      have high : c ≤ '~' := Char.le_trans hd.2 (show '9' ≤ '~' by decide)
      exact if_pos ⟨low, high⟩
    intro c hc
    cases i with
    | ofNat n => exact digit n c hc
    | negSucc n =>
      rcases List.mem_cons.mp hc with rfl | hc
      · decide
      · exact digit _ c hc
  rw [asciiText, List.flatMap_congr plain, List.flatMap_singleton']

section Context

/-- The text of a list with one open place surrounds what stands there. -/
theorem joinWith_context (sep : Text) (before after : List Text) :
    ∃ head tail, ∀ x, joinWith sep (before ++ x :: after) = head ++ x ++ tail := by
  induction before with
  | nil =>
    cases after with
    | nil => exact ⟨[], [], fun x => by simp⟩
    | cons y after => exact ⟨[], sep ++ joinWith sep (y :: after), fun x => by simp⟩
  | cons y before ih =>
    obtain ⟨head, tail, context⟩ := ih
    refine ⟨y ++ (sep ++ head), tail, fun x => ?_⟩
    have step : joinWith sep (y :: (before ++ x :: after)) =
        y ++ (sep ++ joinWith sep (before ++ x :: after)) := by
      cases before <;> rfl
    rw [List.cons_append, step, context]
    simp only [List.append_assoc]

/-- A member whose value is left open. -/
def fill (x : Text) (member : Text × Option Text) : Text × Text :=
  (member.1, member.2.getD x)

theorem map_fill_some (x : Text) (members : List (Text × Text)) :
    (members.map fun m => (m.1, some m.2)).map (fill x) = members := by
  rw [List.map_map]
  exact List.map_id _

/-- The value of one member stands at one place of an object's text, whatever it is. -/
theorem objectText_context (before after : List (Text × Text)) (key : Text) :
    ∃ head tail, ∀ x, objectText (before ++ (key, x) :: after) = head ++ x ++ tail := by
  let opened : List (Text × Option Text) :=
    before.map (fun m => (m.1, some m.2)) ++ (key, none) :: after.map fun m => (m.1, some m.2)
  have filled : ∀ x, opened.map (fill x) = before ++ (key, x) :: after := by
    intro x
    rw [List.map_append, map_fill_some, List.map_cons, map_fill_some]
    rfl
  have perm := sortBy_perm Char.toNat Prod.fst opened
  obtain ⟨left, right, split⟩ := List.append_of_mem
    (perm.mem_iff.mpr (List.mem_append_right _ List.mem_cons_self))
  have closed : ∀ m ∈ left ++ right, m.2.isSome := by
    have rest : (left ++ right).Perm (before.map (fun m => (m.1, some m.2)) ++
        after.map fun m => (m.1, some m.2)) := by
      rw [split] at perm
      exact (List.perm_middle.symm.trans (perm.trans List.perm_middle)).cons_inv
    intro m hm
    rcases List.mem_append.mp (rest.mem_iff.mp hm) with h | h
    · obtain ⟨_, -, rfl⟩ := List.mem_map.mp h
      rfl
    · obtain ⟨_, -, rfl⟩ := List.mem_map.mp h
      rfl
  have same : ∀ x, ∀ m ∈ left ++ right, fill x m = fill [] m := by
    intro x m hm
    obtain ⟨value, hvalue⟩ := Option.isSome_iff_exists.mp (closed m hm)
    rw [fill, fill, hvalue]
    rfl
  have ordered : ∀ x, orderMembers true (before ++ (key, x) :: after) =
      left.map (fill []) ++ (key, x) :: right.map (fill []) := by
    intro x
    have sorted := map_sortBy Char.toNat Prod.fst Prod.fst (fill x) opened fun _ _ => rfl
    rw [← filled, orderMembers, if_pos rfl, ← sorted, split, List.map_append, List.map_cons]
    rw [List.map_congr_left fun m hm => same x m (List.mem_append_left _ hm),
      List.map_congr_left fun m hm => same x m (List.mem_append_right _ hm)]
    rfl
  obtain ⟨head, tail, context⟩ := joinWith_context [','] ((left.map (fill [])).map memberText)
    ((right.map (fill [])).map memberText)
  refine ⟨'{' :: (head ++ (quote key ++ [':'])), tail ++ ['}'], fun x => ?_⟩
  rw [objectText, ordered, List.map_append, List.map_cons, context, memberText]
  simp only [List.append_assoc, List.cons_append, List.nil_append]

end Context

section Injectivity

/-- What stands at one place of a printed text: a character, or an escape. -/
inductive Token : Text → Prop
  | plain {c : Char} (visible : ' ' ≤ c) (unescaped : c ≠ '\\') : Token [c]
  | short {c : Char} (printable : ' ' ≤ c ∧ c ≤ '~') (other : c ≠ 'u') : Token ['\\', c]
  | control {n : Nat} (low : n < 32) : Token (unitEscape n)

/-- A text in which every backslash begins an escape. -/
inductive Escaped : Text → Prop
  | nil : Escaped []
  | cons {token rest : Text} (first : Token token) (later : Escaped rest) : Escaped (token ++ rest)

theorem Escaped.append {s t : Text} (hs : Escaped s) (ht : Escaped t) : Escaped (s ++ t) := by
  induction hs with
  | nil => exact ht
  | cons first _ ih =>
    rw [List.append_assoc]
    exact .cons first ih

theorem hexValue_hexDigit {n : Nat} (h : n < 16) : hexValue (hexDigit n) = n := by
  interval_cases n <;> rfl

end Injectivity

end AsciiJson
