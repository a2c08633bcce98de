import Mathlib.Data.List.Induction

/-!
# Runs of a deterministic machine

A step reads a state and an input and yields an answer and a new state. A run
is recorded as the list of its events, and properties of an event that speak
about the events before it follow from an invariant of history and state.
-/

namespace Runs

variable {σ ι ο : Type}

structure Event (σ ι ο : Type) where
  before : σ
  input : ι
  answer : ο
  after : σ

/-- `P` holds of each event together with the events before it. -/
def EachEvent (P : List (Event σ ι ο) → Event σ ι ο → Prop) (events : List (Event σ ι ο)) : Prop :=
  ∀ past e future, events = past ++ e :: future → P past e

theorem eachEvent_nil (P : List (Event σ ι ο) → Event σ ι ο → Prop) : EachEvent P [] := by
  intro past e future h
  cases past <;> cases h

theorem eachEvent_concat (P : List (Event σ ι ο) → Event σ ι ο → Prop)
    (events : List (Event σ ι ο)) (last : Event σ ι ο) :
    EachEvent P (events ++ [last]) ↔ EachEvent P events ∧ P events last := by
  constructor
  · intro h
    refine ⟨fun past e future he => h past e (future ++ [last]) (by simp [he]), ?_⟩
    exact h events last [] rfl
  · rintro ⟨hevents, hlast⟩ past e future he
    rcases List.eq_nil_or_concat future with rfl | ⟨init, final, rfl⟩
    · obtain ⟨rfl, hsingle⟩ := List.append_inj' he rfl
      cases hsingle
      exact hlast
    · rw [List.concat_eq_append, ← List.cons_append, ← List.append_assoc] at he
      obtain ⟨rfl, -⟩ := List.append_inj' he rfl
      exact hevents past e init rfl

section Trace

variable (step : σ → ι → ο × σ)

def event (s : σ) (i : ι) : Event σ ι ο := ⟨s, i, (step s i).1, (step s i).2⟩

def trace : σ → List ι → List (Event σ ι ο)
  | _, [] => []
  | s, i :: rest => event step s i :: trace (step s i).2 rest

def stateAfter : σ → List ι → σ
  | s, [] => s
  | s, i :: rest => stateAfter (step s i).2 rest

theorem trace_append (s : σ) (xs ys : List ι) :
    trace step s (xs ++ ys) = trace step s xs ++ trace step (stateAfter step s xs) ys := by
  induction xs generalizing s with
  | nil => rfl
  | cons i xs ih => simp [trace, stateAfter, ih]

theorem stateAfter_append (s : σ) (xs ys : List ι) :
    stateAfter step s (xs ++ ys) = stateAfter step (stateAfter step s xs) ys := by
  induction xs generalizing s with
  | nil => rfl
  | cons i xs ih => simp [stateAfter, ih]

theorem trace_concat (s : σ) (inputs : List ι) (i : ι) :
    trace step s (inputs ++ [i]) =
      trace step s inputs ++ [event step (stateAfter step s inputs) i] :=
  trace_append step s inputs [i]

theorem stateAfter_concat (s : σ) (inputs : List ι) (i : ι) :
    stateAfter step s (inputs ++ [i]) = (step (stateAfter step s inputs) i).2 :=
  stateAfter_append step s inputs [i]

theorem trace_inputs (s : σ) (inputs : List ι) : (trace step s inputs).map Event.input = inputs := by
  induction inputs generalizing s with
  | nil => rfl
  | cons i rest ih => rw [trace, List.map_cons, ih, event]

theorem input_mem_of_trace {s : σ} {inputs : List ι} {e : Event σ ι ο}
    (h : e ∈ trace step s inputs) : e.input ∈ inputs := by
  induction inputs generalizing s with
  | nil => cases h
  | cons i rest ih =>
    rcases List.mem_cons.mp h with rfl | hrest
    · exact List.mem_cons_self
    · exact List.mem_cons_of_mem _ (ih hrest)

/-- The rule of history invariants. -/
theorem history_invariant (inv : List (Event σ ι ο) → σ → Prop) {s : σ} (start : inv [] s)
    (preserved : ∀ past t i, inv past t → inv (past ++ [event step t i]) (step t i).2)
    (inputs : List ι) : inv (trace step s inputs) (stateAfter step s inputs) := by
  induction inputs using List.reverseRecOn with
  | nil => exact start
  | append_singleton inputs i ih =>
    rw [trace_concat, stateAfter_concat]
    exact preserved _ _ i ih

/-- What a history invariant makes true of an event is true of every event. -/
theorem eachEvent_of_invariant (inv : List (Event σ ι ο) → σ → Prop)
    (P : List (Event σ ι ο) → Event σ ι ο → Prop) {s : σ} (start : inv [] s)
    (preserved : ∀ past t i, inv past t → inv (past ++ [event step t i]) (step t i).2)
    (holds : ∀ past t i, inv past t → P past (event step t i)) (inputs : List ι) :
    EachEvent P (trace step s inputs) := by
  induction inputs using List.reverseRecOn with
  | nil => exact eachEvent_nil P
  | append_singleton inputs i ih =>
    rw [trace_concat, eachEvent_concat]
    exact ⟨ih, holds _ _ i (history_invariant step inv start preserved inputs)⟩

end Trace

end Runs
