import Mathlib.Data.List.Forall2
import Mathlib.Tactic.Common

/-!
# Computations that draw from a stream and may fail

A source hands out numbers and moves on. What a computation ensures holds from
every state of the source, so it never fails and its result has the property
whatever is drawn.
-/

namespace Draws

universe u v

variable {S ε : Type u} {α β : Type u}

/-- A computation over the states of a source. -/
abbrev Draw (S ε : Type u) := StateT S (Except ε)

/-- From every state the computation succeeds, with a result that has the property. -/
def Ensures (m : Draw S ε α) (P : α → Prop) : Prop :=
  ∀ s, ∃ a s', m s = .ok (a, s') ∧ P a

theorem Ensures.imp {m : Draw S ε α} {P Q : α → Prop} (h : Ensures m P) (weaker : ∀ a, P a → Q a) :
    Ensures m Q := by
  intro s
  obtain ⟨a, s', hm, ha⟩ := h s
  exact ⟨a, s', hm, weaker a ha⟩

theorem ensures_pure {P : α → Prop} {a : α} (h : P a) : Ensures (pure a : Draw S ε α) P :=
  fun s => ⟨a, s, rfl, h⟩

theorem Ensures.bind {m : Draw S ε α} {f : α → Draw S ε β} {P : α → Prop} {Q : β → Prop}
    (first : Ensures m P) (next : ∀ a, P a → Ensures (f a) Q) : Ensures (m >>= f) Q := by
  intro s
  obtain ⟨a, t, hm, ha⟩ := first s
  obtain ⟨b, t', hf, hb⟩ := next a ha t
  refine ⟨b, t', ?_, hb⟩
  change (m s >>= fun p => f p.1 p.2) = _
  rw [hm]
  exact hf

/-- A step that does not draw. -/
theorem ensures_lift {x : Except ε α} {P : α → Prop} {a : α} (known : x = .ok a) (h : P a) :
    Ensures (liftM x : Draw S ε α) P := by
  subst known
  exact fun s => ⟨a, s, rfl, h⟩

theorem ensures_ite {c : Prop} [Decidable c] {x y : Draw S ε α} {P : α → Prop}
    (hx : c → Ensures x P) (hy : ¬ c → Ensures y P) : Ensures (if c then x else y) P := by
  by_cases h : c
  · rw [if_pos h]
    exact hx h
  · rw [if_neg h]
    exact hy h

/-- A loop keeps what its body keeps of the elements it has run through. -/
theorem ensures_foldlM {f : β → α → Draw S ε β} {I : List α → β → Prop} {xs : List α}
    (step : ∀ done x b, x ∈ xs → I done b → Ensures (f b x) (I (done ++ [x]))) {b : β}
    (start : I [] b) : Ensures (xs.foldlM f b) (I xs) := by
  have run : ∀ (rest : List α), (∀ x ∈ rest, x ∈ xs) → ∀ done b, I done b →
      Ensures (rest.foldlM f b) (I (done ++ rest)) := by
    intro rest
    induction rest with
    | nil =>
      intro _ done b h
      rw [List.append_nil]
      exact ensures_pure h
    | cons x rest ih =>
      intro inside done b h
      rw [List.foldlM_cons]
      refine (step done x b (inside x List.mem_cons_self) h).bind fun b' h' => ?_
      have later := ih (fun y hy => inside y (List.mem_cons_of_mem _ hy)) (done ++ [x]) b' h'
      rwa [List.append_assoc] at later
  exact run xs (fun _ hx => hx) [] b start

theorem ensures_mapM {f : α → Draw S ε β} {R : α → β → Prop} {xs : List α}
    (each : ∀ x ∈ xs, Ensures (f x) (R x)) : Ensures (xs.mapM f) (List.Forall₂ R xs) := by
  induction xs with
  | nil => exact ensures_pure .nil
  | cons x xs ih =>
    rw [List.mapM_cons]
    refine (each x List.mem_cons_self).bind fun y hy => ?_
    refine (ih fun z hz => each z (List.mem_cons_of_mem _ hz)).bind fun ys hys => ?_
    exact ensures_pure (.cons hy hys)

section Sources

/-- What a source that keeps its promises hands out. `random` lies in `[0, 1)`,
`randrange` between its bounds and `choice` in its sequence, named by a position. -/
structure RandomSource (K S : Type) [Zero K] [One K] [LE K] [LT K] where
  seeded : Nat → S
  random : S → K × S
  randrange : Int → Int → S → Int × S
  choice : Nat → S → Nat × S
  random_mem : ∀ s, 0 ≤ (random s).1 ∧ (random s).1 < 1
  randrange_mem : ∀ start stop s, start < stop →
    start ≤ (randrange start stop s).1 ∧ (randrange start stop s).1 < stop
  choice_lt : ∀ n s, 0 < n → (choice n s).1 < n

variable {K S ε : Type} [Zero K] [One K] [LE K] [LT K] (source : RandomSource K S)

def random : Draw S ε K := fun s => .ok (source.random s)

def randrange (start stop : Int) : Draw S ε Int := fun s => .ok (source.randrange start stop s)

theorem ensures_random : Ensures (random source : Draw S ε K) fun x => 0 ≤ x ∧ x < 1 :=
  fun s => ⟨_, _, rfl, source.random_mem s⟩

theorem ensures_randrange {start stop : Int} (some : start < stop) :
    Ensures (randrange source start stop : Draw S ε Int) fun n => start ≤ n ∧ n < stop :=
  fun s => ⟨_, _, rfl, source.randrange_mem start stop s some⟩

variable {α : Type}

/-- `xs[i]`, where a negative position counts from the end. -/
def index (outside : ε) (xs : List α) (i : Int) : Except ε α :=
  let position := if i < 0 then i + xs.length else i
  match xs[position.toNat]? with
  | some x => if 0 ≤ position then .ok x else .error outside
  | none => .error outside

theorem index_of_lt {outside : ε} {xs : List α} {i : Nat} (inside : i < xs.length) :
    index outside xs i = .ok xs[i] := by
  have nonnegative : ¬ (i : Int) < 0 := by omega
  have whole : (0 : Int) ≤ i := by omega
  rw [index, if_neg nonnegative]
  simp only [Int.toNat_natCast, List.getElem?_eq_getElem inside, if_pos whole]

theorem index_mem {outside : ε} {xs : List α} {i : Int} (low : 0 ≤ i) (high : i < xs.length) :
    ∃ x ∈ xs, index outside xs i = .ok x := by
  obtain ⟨n, rfl⟩ := Int.eq_ofNat_of_zero_le low
  have inside : n < xs.length := by exact_mod_cast high
  exact ⟨xs[n], List.getElem_mem inside, index_of_lt inside⟩

/-- `xs[rng.randrange(len(xs))]`. -/
def pick (outside : ε) (xs : List α) : Draw S ε α := do
  let i ← randrange source 0 xs.length
  liftM (index outside xs i)

theorem ensures_index {outside : ε} {xs : List α} {i : Int} (low : 0 ≤ i)
    (high : i < xs.length) : Ensures (liftM (index outside xs i) : Draw S ε α) (· ∈ xs) := by
  obtain ⟨x, hx, known⟩ : ∃ x ∈ xs, index outside xs i = .ok x := index_mem low high
  exact ensures_lift known hx

theorem ensures_pick {outside : ε} {xs : List α} (some : xs ≠ []) :
    Ensures (pick source outside xs) (· ∈ xs) := by
  have positive : (0 : Int) < xs.length := by exact_mod_cast List.length_pos_iff.mpr some
  exact (ensures_randrange source positive).bind fun i hi => ensures_index hi.1 hi.2

/-- `rng.choice(xs)`. -/
def choice (outside : ε) (xs : List α) : Draw S ε α := fun s =>
  match xs[(source.choice xs.length s).1]? with
  | some x => .ok (x, (source.choice xs.length s).2)
  | none => .error outside

theorem ensures_choice {outside : ε} {xs : List α} (some : xs ≠ []) :
    Ensures (choice source outside xs) (· ∈ xs) := by
  intro s
  have inside := source.choice_lt xs.length s (List.length_pos_iff.mpr some)
  have drawn : choice source outside xs s =
      .ok (xs[(source.choice xs.length s).1], (source.choice xs.length s).2) := by
    simp only [choice, List.getElem?_eq_getElem inside]
  exact ⟨_, _, drawn, List.getElem_mem inside⟩

/-- `xs.index(x)`. -/
def position [DecidableEq α] (absent : ε) (xs : List α) (x : α) : Except ε Int :=
  if xs.idxOf x < xs.length then .ok (xs.idxOf x) else .error absent

theorem position_of_mem [DecidableEq α] {absent : ε} {xs : List α} {x : α} (h : x ∈ xs) :
    ∃ i, position absent xs x = .ok i ∧ 0 ≤ i ∧ i < xs.length := by
  have inside := List.idxOf_lt_length_of_mem h
  exact ⟨xs.idxOf x, if_pos inside, by omega, by omega⟩

end Sources

end Draws
