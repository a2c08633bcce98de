import PlanRace.Library.Draws

/-!
# Two computations on the same draws

Two computations are coupled when, from every state of the source, they fail
with one error or succeed, draw alike and end in results that are related. A
coupled pair cannot be told apart by what it draws, and the relation of the
results goes through sequencing and loops.
-/

namespace Draws

universe u v w

variable {S ε : Type u} {α β γ δ : Type u}

/-- From every state the two computations fail alike, or draw alike and end in
related results. -/
def Coupled (R : α → β → Prop) (m : Draw S ε α) (n : Draw S ε β) : Prop :=
  ∀ s, (∃ e, m s = .error e ∧ n s = .error e) ∨
    ∃ a b t, m s = .ok (a, t) ∧ n s = .ok (b, t) ∧ R a b

theorem coupled_pure {R : α → β → Prop} {a : α} {b : β} (h : R a b) :
    Coupled R (pure a : Draw S ε α) (pure b) :=
  fun s => .inr ⟨a, b, s, rfl, rfl, h⟩

theorem coupled_refl (m : Draw S ε α) : Coupled Eq m m := by
  intro s
  cases h : m s with
  | error e => exact .inl ⟨e, rfl, rfl⟩
  | ok p => exact .inr ⟨p.1, p.1, p.2, rfl, rfl, rfl⟩

theorem Coupled.imp {R Q : α → β → Prop} {m : Draw S ε α} {n : Draw S ε β} (h : Coupled R m n)
    (weaker : ∀ a b, R a b → Q a b) : Coupled Q m n := by
  intro s
  rcases h s with failed | ⟨a, b, t, hm, hn, hab⟩
  · exact .inl failed
  · exact .inr ⟨a, b, t, hm, hn, weaker a b hab⟩

theorem Coupled.bind {R : α → β → Prop} {Q : γ → δ → Prop} {m : Draw S ε α} {n : Draw S ε β}
    {f : α → Draw S ε γ} {g : β → Draw S ε δ} (first : Coupled R m n)
    (next : ∀ a b, R a b → Coupled Q (f a) (g b)) : Coupled Q (m >>= f) (n >>= g) := by
  intro s
  rcases first s with ⟨e, hm, hn⟩ | ⟨a, b, t, hm, hn, hab⟩
  · refine .inl ⟨e, ?_, ?_⟩
    · change (m s >>= fun p => f p.1 p.2) = _
      rw [hm]
      rfl
    · change (n s >>= fun p => g p.1 p.2) = _
      rw [hn]
      rfl
  · have left : (m >>= f) s = f a t := by
      change (m s >>= fun p => f p.1 p.2) = _
      rw [hm]
      rfl
    have right : (n >>= g) s = g b t := by
      change (n s >>= fun p => g p.1 p.2) = _
      rw [hn]
      rfl
    rw [left, right]
    exact next a b hab t

/-- Steps that do not draw are coupled when their results are. -/
theorem coupled_lift {R : α → β → Prop} {x : Except ε α} {y : Except ε β}
    (h : (∃ e, x = .error e ∧ y = .error e) ∨ ∃ a b, x = .ok a ∧ y = .ok b ∧ R a b) :
    Coupled R (liftM x : Draw S ε α) (liftM y) := by
  rcases h with ⟨e, rfl, rfl⟩ | ⟨a, b, rfl, rfl, hab⟩
  · exact fun s => .inl ⟨e, rfl, rfl⟩
  · exact fun s => .inr ⟨a, b, s, rfl, rfl, hab⟩

theorem coupled_ite {R : α → β → Prop} {c d : Prop} [Decidable c] [Decidable d] (same : c ↔ d)
    {m m' : Draw S ε α} {n n' : Draw S ε β} (yes : c → Coupled R m n) (no : ¬ c → Coupled R m' n') :
    Coupled R (if c then m else m') (if d then n else n') := by
  by_cases h : c
  · rw [if_pos h, if_pos (same.mp h)]
    exact yes h
  · rw [if_neg h, if_neg fun hd => h (same.mpr hd)]
    exact no h

/-- Loops over related bodies keep the relation of their accumulators. -/
theorem coupled_foldlM {ι : Type v} {R : α → β → Prop} {f : α → ι → Draw S ε α}
    {g : β → ι → Draw S ε β} (items : List ι)
    (step : ∀ i ∈ items, ∀ a b, R a b → Coupled R (f a i) (g b i)) {a : α} {b : β} (start : R a b) :
    Coupled R (items.foldlM f a) (items.foldlM g b) := by
  induction items generalizing a b with
  | nil => exact coupled_pure start
  | cons i rest ih =>
    rw [List.foldlM_cons, List.foldlM_cons]
    refine (step i List.mem_cons_self a b start).bind fun a' b' h => ?_
    exact ih (fun j hj => step j (List.mem_cons_of_mem _ hj)) h

theorem coupled_mapM {ι : Type v} {R : α → β → Prop} {f : ι → Draw S ε α} {g : ι → Draw S ε β}
    (items : List ι) (each : ∀ i ∈ items, Coupled R (f i) (g i)) :
    Coupled (List.Forall₂ R) (items.mapM f) (items.mapM g) := by
  induction items with
  | nil => exact coupled_pure .nil
  | cons i rest ih =>
    rw [List.mapM_cons, List.mapM_cons]
    refine (each i List.mem_cons_self).bind fun a b h => ?_
    refine (ih fun j hj => each j (List.mem_cons_of_mem _ hj)).bind fun as bs hs => ?_
    exact coupled_pure (.cons h hs)

section Normal

/-- A source that also hands out normal deviates. `gauss` may keep a second
deviate in its state. -/
structure NormalSource (K S : Type) [Zero K] [One K] [LE K] [LT K] extends RandomSource K S where
  gauss : K → K → S → K × S

variable {K S ε : Type} [Zero K] [One K] [LE K] [LT K]

def gauss (source : NormalSource K S) (mu sigma : K) : Draw S ε K :=
  fun s => .ok (source.gauss mu sigma s)

theorem ensures_gauss (source : NormalSource K S) (mu sigma : K) :
    Ensures (gauss source mu sigma : Draw S ε K) fun _ => True :=
  fun _ => ⟨_, _, rfl, trivial⟩

end Normal

end Draws
