import Mathlib.Data.List.Forall2

/-!
# Unique readability of concatenated renderings

A rendering is read back from the front of a longer word as soon as what
follows it is an admissible continuation. Fixed-width and self-delimiting
renderings admit every continuation; a decimal numeral admits those that do
not start with a digit. Separated lists inherit the property of their items.
-/

namespace UniqueReadability

universe u v
variable {α : Type u} {σ : Type v}

/-- `f a` can be split off the front of a word whose remainder satisfies
`follow`, and the part split off determines the value up to `same`. -/
def ReadableAt (follow : List σ → Prop) (same : α → α → Prop) (f : α → List σ)
    (a : α) : Prop :=
  ∀ b s t, follow s → follow t → f a ++ s = f b ++ t → same a b ∧ s = t

/-- The self-delimiting case: any continuation is allowed. -/
def PrefixFree (f : α → List σ) : Prop :=
  ∀ a b s t, f a ++ s = f b ++ t → a = b ∧ s = t

theorem PrefixFree.injective {f : α → List σ} (h : PrefixFree f) :
    Function.Injective f := fun a b he => (h a b [] [] (by simp [he])).1

theorem prefixFree_of_length {f : α → List σ} (n : Nat) (width : ∀ a, (f a).length = n)
    (inj : Function.Injective f) : PrefixFree f := by
  intro a b s t he
  obtain ⟨hab, hst⟩ := List.append_inj he ((width a).trans (width b).symm)
  exact ⟨inj hab, hst⟩

theorem ReadableAt.same_of_eq {follow : List σ → Prop} {same : α → α → Prop}
    {f : α → List σ} {a b : α} (h : ReadableAt follow same f a) (hnil : follow [])
    (he : f a = f b) : same a b :=
  (h b [] [] hnil hnil (by rw [he])).1

/-- Items rendered one after the other are read back up to a closing word that
does not start like an item. -/
theorem PrefixFree.flatMap_append {f : α → List σ} (h : PrefixFree f)
    (stop : List σ → Prop) (fresh : ∀ a r, ¬ stop (f a ++ r)) (xs ys : List α)
    (s t : List σ) (hs : stop s) (ht : stop t)
    (he : xs.flatMap f ++ s = ys.flatMap f ++ t) : xs = ys ∧ s = t := by
  induction xs generalizing ys with
  | nil =>
    cases ys with
    | nil => exact ⟨rfl, by simpa using he⟩
    | cons y ys =>
      have hstart : s = f y ++ (ys.flatMap f ++ t) := by simpa using he
      exact absurd (hstart ▸ hs) (fresh _ _)
  | cons x xs ih =>
    cases ys with
    | nil =>
      have hstart : t = f x ++ (xs.flatMap f ++ s) := by simpa using he.symm
      exact absurd (hstart ▸ ht) (fresh _ _)
    | cons y ys =>
      simp only [List.flatMap_cons, List.append_assoc] at he
      obtain ⟨hxy, htail⟩ := h _ _ _ _ he
      obtain ⟨hrest, hst⟩ := ih ys htail
      exact ⟨by rw [hxy, hrest], hst⟩

/-- `sep.join(words)` of the usual string libraries. -/
def joinWith (sep : List σ) : List (List σ) → List σ
  | [] => []
  | [x] => x
  | x :: y :: rest => x ++ (sep ++ joinWith sep (y :: rest))

@[simp] theorem joinWith_nil (sep : List σ) : joinWith sep [] = [] := rfl

@[simp] theorem joinWith_singleton (sep x : List σ) : joinWith sep [x] = x := rfl

@[simp] theorem joinWith_cons_cons (sep x y : List σ) (rest : List (List σ)) :
    joinWith sep (x :: y :: rest) = x ++ (sep ++ joinWith sep (y :: rest)) := rfl

/-- A nonempty separated list starts with its first item. -/
theorem joinWith_map_cons (sep : List σ) (f : α → List σ) (x : α) (xs : List α) :
    ∃ r, joinWith sep ((x :: xs).map f) = f x ++ r := by
  cases xs with
  | nil => exact ⟨[], by simp⟩
  | cons y ys => exact ⟨_, rfl⟩

theorem joinWith_eq_intercalate (sep : List σ) (items : List (List σ)) :
    joinWith sep items = sep.intercalate items := by
  induction items with
  | nil => rfl
  | cons x items ih =>
    cases items with
    | nil => simp
    | cons y items =>
      rw [joinWith_cons_cons, ih, List.intercalate_cons_cons, List.append_assoc]

/-- Splitting at the separator undoes joining. -/
theorem splitOn_joinWith [BEq σ] [LawfulBEq σ] (sep : σ) (items : List (List σ))
    (fresh : ∀ x ∈ items, sep ∉ x) (nonempty : items ≠ []) :
    (joinWith [sep] items).splitOn sep = items := by
  rw [joinWith_eq_intercalate]
  exact List.splitOn_intercalate sep fresh nonempty

theorem infix_joinWith {sep x : List σ} {items : List (List σ)} (h : x ∈ items) :
    x <:+: joinWith sep items := by
  induction items with
  | nil => cases h
  | cons y items ih =>
    cases items with
    | nil =>
      obtain rfl := List.mem_singleton.mp h
      exact List.infix_refl _
    | cons z items =>
      rw [joinWith_cons_cons]
      rcases List.mem_cons.mp h with rfl | h
      · exact (List.prefix_append _ _).isInfix
      · exact ((ih h).trans (List.suffix_append _ _).isInfix).trans (List.suffix_append _ _).isInfix

theorem mem_joinWith {sep : List σ} {items : List (List σ)} {t : σ}
    (h : t ∈ joinWith sep items) : t ∈ sep ∨ ∃ x ∈ items, t ∈ x := by
  induction items with
  | nil => cases h
  | cons x items ih =>
    cases items with
    | nil => exact .inr ⟨x, List.mem_cons_self, h⟩
    | cons y items =>
      rw [joinWith_cons_cons, List.mem_append, List.mem_append] at h
      rcases h with h | h | h
      · exact .inr ⟨x, List.mem_cons_self, h⟩
      · exact .inl h
      · exact (ih h).imp id fun ⟨z, hz, ht⟩ => ⟨z, List.mem_cons_of_mem x hz, ht⟩

/-- What a separated list needs from its delimiters: the separator is an
admissible continuation of an item, and so is a closing word; a closing word
starts neither like a separator nor like an item. -/
structure Delimiters (follow close : List σ → Prop) (sep : List σ) (f : α → List σ) :
    Prop where
  sepFollows : ∀ r, follow (sep ++ r)
  closeFollows : ∀ s, close s → follow s
  closeNeSep : ∀ s r, close s → s ≠ sep ++ r
  closeNeItem : ∀ a s r, close s → s ≠ f a ++ r

theorem joinWith_readable {follow close : List σ → Prop} {sep : List σ}
    {same : α → α → Prop} {f : α → List σ} (delim : Delimiters follow close sep f)
    (xs : List α) (hf : ∀ a ∈ xs, ReadableAt follow same f a) :
    ReadableAt close (List.Forall₂ same) (fun l => joinWith sep (l.map f)) xs := by
  intro ys s t hs ht he
  induction xs generalizing ys with
  | nil =>
    cases ys with
    | nil => exact ⟨.nil, by simpa using he⟩
    | cons y ys =>
      have hstart : s = joinWith sep ((y :: ys).map f) ++ t := by simpa using he
      obtain ⟨r, hr⟩ := joinWith_map_cons sep f y ys
      rw [hr, List.append_assoc] at hstart
      exact absurd hstart (delim.closeNeItem y s (r ++ t) hs)
  | cons x xs ih =>
    have hx := hf x List.mem_cons_self
    have hxs := fun a ha => hf a (List.mem_cons_of_mem x ha)
    cases ys with
    | nil =>
      have hstart : t = joinWith sep ((x :: xs).map f) ++ s := by simpa using he.symm
      obtain ⟨r, hr⟩ := joinWith_map_cons sep f x xs
      rw [hr, List.append_assoc] at hstart
      exact absurd hstart (delim.closeNeItem x t (r ++ s) ht)
    | cons y ys =>
      cases xs with
      | nil =>
        cases ys with
        | nil =>
          obtain ⟨hxy, hst⟩ := hx y s t (delim.closeFollows s hs) (delim.closeFollows t ht)
            (by simpa using he)
          exact ⟨.cons hxy .nil, hst⟩
        | cons z ys =>
          have hsep := (hx y s _ (delim.closeFollows s hs) (delim.sepFollows _)
            (by simpa using he)).2
          exact absurd hsep (delim.closeNeSep s _ hs)
      | cons w xs =>
        cases ys with
        | nil =>
          have hsep := (hx y _ t (delim.sepFollows _) (delim.closeFollows t ht)
            (by simpa using he)).2
          exact absurd hsep.symm (delim.closeNeSep t _ ht)
        | cons z ys =>
          simp only [List.map_cons, joinWith_cons_cons, List.append_assoc] at he
          obtain ⟨hxy, htail⟩ := hx y _ _ (delim.sepFollows _) (delim.sepFollows _) he
          obtain ⟨hrest, hst⟩ := ih hxs (z :: ys) (List.append_cancel_left htail)
          exact ⟨.cons hxy hrest, hst⟩

end UniqueReadability
