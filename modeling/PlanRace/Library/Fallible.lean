import Mathlib.Data.List.Forall2

/-!
# Computations that may fail

What the success of a bind and of a `mapM` says about their parts.
-/

namespace Fallible

universe u v
variable {ε : Type u} {α β : Type v}

theorem bind_ok {x : Except ε α} {f : α → Except ε β} {b : β} (h : (x >>= f) = .ok b) :
    ∃ a, x = .ok a ∧ f a = .ok b := by
  cases x with
  | error e => cases h
  | ok a => exact ⟨a, rfl, h⟩

theorem bind_ok_iff {x : Except ε α} {f : α → Except ε β} {b : β} :
    (x >>= f) = .ok b ↔ ∃ a, x = .ok a ∧ f a = .ok b := by
  constructor
  · exact bind_ok
  · rintro ⟨a, rfl, h⟩
    exact h

/-- A check that raises when its condition fails. -/
def require (c : Prop) [Decidable c] (e : ε) : Except ε PUnit := if c then .ok ⟨⟩ else .error e

@[simp] theorem require_ok_iff {c : Prop} [Decidable c] {e : ε} {u : PUnit} :
    require c e = .ok u ↔ c := by
  unfold require
  split_ifs with h
  · exact iff_of_true rfl h
  · exact iff_of_false (fun he => by cases he) h

theorem mapError_ok_iff {δ : Type u} {f : ε → δ} {x : Except ε α} {a : α} :
    x.mapError f = .ok a ↔ x = .ok a := by
  cases x <;> simp [Except.mapError]

/-- A check whose both outcomes succeed. -/
theorem ok_ite {P : α → Prop} {c : Prop} [Decidable c] {x y : Except ε α}
    (hx : ∃ a, x = .ok a ∧ P a) (hy : ¬ c → ∃ a, y = .ok a ∧ P a) :
    ∃ a, (if c then x else y) = .ok a ∧ P a := by
  by_cases h : c
  · rwa [if_pos h]
  · rw [if_neg h]
    exact hy h

theorem mapM_ok_iff {f : α → Except ε β} {xs : List α} {ys : List β} :
    xs.mapM f = .ok ys ↔ List.Forall₂ (fun x y => f x = .ok y) xs ys := by
  induction xs generalizing ys with
  | nil =>
    constructor
    · intro h
      cases h
      exact .nil
    · intro h
      cases h
      rfl
  | cons x xs ih =>
    rw [List.mapM_cons]
    constructor
    · intro h
      obtain ⟨y, hy, h⟩ := bind_ok h
      obtain ⟨rest, hrest, h⟩ := bind_ok h
      cases h
      exact .cons hy (ih.mp hrest)
    · intro h
      cases h with
      | cons hy hrest =>
        rw [hy, ih.mpr hrest]
        rfl

theorem mapM_eq_map {f : α → Except ε β} {g : α → β} {xs : List α}
    (h : ∀ x ∈ xs, f x = .ok (g x)) : xs.mapM f = .ok (xs.map g) := by
  refine mapM_ok_iff.mpr ?_
  induction xs with
  | nil => exact .nil
  | cons x xs ih =>
    exact .cons (h x List.mem_cons_self) (ih fun y hy => h y (List.mem_cons_of_mem _ hy))

/-- A `mapM` whose parts succeed with a property. -/
theorem exists_mapM {f : α → Except ε β} {P : β → Prop} {xs : List α}
    (h : ∀ x ∈ xs, ∃ y, f x = .ok y ∧ P y) : ∃ ys, xs.mapM f = .ok ys ∧ ∀ y ∈ ys, P y := by
  induction xs with
  | nil => exact ⟨[], rfl, by simp⟩
  | cons x xs ih =>
    obtain ⟨y, hy, hP⟩ := h x List.mem_cons_self
    obtain ⟨ys, hys, all⟩ := ih fun z hz => h z (List.mem_cons_of_mem _ hz)
    refine ⟨y :: ys, ?_, List.forall_mem_cons.mpr ⟨hP, all⟩⟩
    rw [List.mapM_cons, hy, hys]
    rfl

theorem ok_of_mapM {f : α → Except ε β} {xs : List α} {ys : List β} (h : xs.mapM f = .ok ys) :
    ∀ x ∈ xs, ∃ y ∈ ys, f x = .ok y := by
  have hall := mapM_ok_iff.mp h
  clear h
  induction hall with
  | nil => simp
  | cons hy _ ih =>
    intro x hx
    rcases List.mem_cons.mp hx with rfl | hx
    · exact ⟨_, List.mem_cons_self, hy⟩
    · obtain ⟨y, hin, hok⟩ := ih x hx
      exact ⟨y, List.mem_cons_of_mem _ hin, hok⟩

theorem exists_of_forall₂ {γ : Type u} {R : γ → β → Prop} {xs : List γ} {ys : List β}
    (related : List.Forall₂ R xs ys) {y : β} (hy : y ∈ ys) : ∃ x ∈ xs, R x y := by
  induction related with
  | nil => cases hy
  | cons first _ ih =>
    rcases List.mem_cons.mp hy with rfl | hy
    · exact ⟨_, List.mem_cons_self, first⟩
    · obtain ⟨x, hx, holds⟩ := ih hy
      exact ⟨x, List.mem_cons_of_mem _ hx, holds⟩

theorem map_eq_map_of_forall₂ {γ δ : Type u} {R : γ → β → Prop} {f : γ → δ} {g : β → δ}
    {xs : List γ} {ys : List β} (related : List.Forall₂ R xs ys)
    (same : ∀ x y, R x y → f x = g y) : xs.map f = ys.map g := by
  rw [← List.forall₂_eq_eq_eq, List.forall₂_map_left_iff, List.forall₂_map_right_iff]
  exact related.imp same

theorem exists_of_mem_mapM {f : α → Except ε β} {xs : List α} {ys : List β}
    (h : xs.mapM f = .ok ys) {y : β} (hy : y ∈ ys) : ∃ x ∈ xs, f x = .ok y :=
  exists_of_forall₂ (mapM_ok_iff.mp h) hy

/-- Results of two `mapM` over one list, related part by part. -/
theorem forall₂_of_mapM {γ : Type v} {f : α → Except ε β} {g : α → Except ε γ} {xs : List α}
    {ys : List β} {zs : List γ} (hf : xs.mapM f = .ok ys) (hg : xs.mapM g = .ok zs)
    {R : β → γ → Prop} (h : ∀ x ∈ xs, ∀ y z, f x = .ok y → g x = .ok z → R y z) :
    List.Forall₂ R ys zs := by
  have first := mapM_ok_iff.mp hf
  have second := mapM_ok_iff.mp hg
  clear hf hg
  induction first generalizing zs with
  | nil =>
    cases second
    exact .nil
  | cons hy _ ih =>
    cases second with
    | cons hz rest =>
      exact .cons (h _ List.mem_cons_self _ _ hy hz)
        (ih (fun x hx => h x (List.mem_cons_of_mem _ hx)) rest)

/-- A successful `mapM` whose results are known is a `map`. -/
theorem eq_map_of_mapM {f : α → Except ε β} {g : α → β} {xs : List α} {ys : List β}
    (h : xs.mapM f = .ok ys) (known : ∀ x ∈ xs, ∀ y, f x = .ok y → y = g x) : ys = xs.map g := by
  have hall := mapM_ok_iff.mp h
  clear h
  induction hall with
  | nil => rfl
  | cons hy _ ih =>
    rw [List.map_cons, known _ List.mem_cons_self _ hy,
      ih fun x hx => known x (List.mem_cons_of_mem _ hx)]

end Fallible
