import PlanRace.Library.JsonText
import PlanRace.Library.Runs
import PlanRace.Library.Semaphore

/-!
# The strategy executions of the miner service

`execute_strategy` of `create_miner_app_v2` as a machine whose inputs are what
the event loop and the worker threads can do next. A task of the loop runs
without interruption between two suspensions, so one input moves one task to
its next suspension. A thread that was started runs until its strategy returns,
whatever becomes of the task that awaits it.
-/

namespace ApiV2

open JsonText Runs

def defaultMaxConcurrentStrategies : Nat := 4

def defaultMaxPendingStrategies : Nat := 16

/-- The arguments of `create_miner_app_v2` that `execute_strategy` reads. -/
structure MinerAppV2 where
  maxConcurrentStrategies : Nat
  maxPendingStrategies : Nat
  /-- `inspect.iscoroutinefunction(strategy)`. -/
  coroutineFunction : Bool
  positive : 1 ≤ maxConcurrentStrategies
  covered : maxConcurrentStrategies ≤ maxPendingStrategies

def createMinerAppV2 (maxConcurrentStrategies maxPendingStrategies : Int)
    (coroutineFunction : Bool) : Except Text MinerAppV2 :=
  if hpositive : maxConcurrentStrategies < 1 then
    .error "max_concurrent_strategies must be positive".toList
  else if hcovered : maxPendingStrategies < maxConcurrentStrategies then
    .error "max_pending_strategies must cover concurrent strategies".toList
  else
    .ok {
      maxConcurrentStrategies := maxConcurrentStrategies.toNat
      maxPendingStrategies := maxPendingStrategies.toNat
      coroutineFunction := coroutineFunction
      positive := by omega
      covered := by omega }

def strategyQueueFull : Text := "strategy_queue_full".toList

def requestExpired : Text := "request_expired".toList

def strategyDeadlineElapsed : Text := "strategy_deadline_elapsed".toList

variable {β : Type}

/-- How the body of the `timeout` block ends. -/
inductive Ending (β : Type) where
  | artifact (bundle : β)
  | timeoutError
  | cancelledError
  | raised

/-- What a call of the strategy comes to: an end, or another awaitable. -/
inductive Outcome (β : Type) where
  | ended (e : Ending β)
  | awaitable

inductive Phase (β : Type) where
  /-- `async with strategy_slots` awaits the future of a slot. -/
  | acquiring
  /-- `asyncio.to_thread` has submitted the call to the pool. -/
  | submitted
  /-- A worker thread executes the call. -/
  | running
  /-- The thread is done and the task has not run since. -/
  | returned (o : Outcome β)
  /-- A coroutine of the strategy executes in the event loop. -/
  | awaiting

structure InFlight (β : Type) where
  id : Nat
  phase : Phase β
  /-- The deadline of `asyncio.timeout` has cancelled the task. -/
  expired : Bool
  /-- Somebody else has cancelled the task. -/
  cancelled : Bool

namespace InFlight

def interrupted (r : InFlight β) : Bool := r.expired || r.cancelled

def isRunning (r : InFlight β) : Bool :=
  match r.phase with
  | .running => true
  | _ => false

/-- The strategy called for this request executes now. -/
def isExecuting (r : InFlight β) : Bool :=
  match r.phase with
  | .running | .awaiting => true
  | _ => false

/-- The task is inside `async with strategy_slots`. -/
def holdsSlot (r : InFlight β) : Bool :=
  match r.phase with
  | .acquiring => false
  | _ => true

def enter (r : InFlight β) (phase : Phase β) : InFlight β := { r with phase := phase }

@[simp] theorem enter_id (r : InFlight β) (phase : Phase β) : (r.enter phase).id = r.id := rfl

@[simp] theorem enter_phase (r : InFlight β) (phase : Phase β) :
    (r.enter phase).phase = phase := rfl

end InFlight

inductive Reply (β : Type) where
  | artifact (bundle : β)
  | httpError (status : Nat) (code : Text)
  | cancelledError
  | raised

/-- `asyncio.timeout` turns its own cancellation, and no other, into a `TimeoutError`. -/
def InFlight.reply (r : InFlight β) : Ending β → Reply β
  | .artifact bundle => .artifact bundle
  | .timeoutError => .httpError 408 strategyDeadlineElapsed
  | .cancelledError =>
    if r.expired && !r.cancelled then .httpError 408 strategyDeadlineElapsed else .cancelledError
  | .raised => .raised

inductive Effect (β : Type) where
  | incremented (id : Nat)
  | decremented (id : Nat)
  | answered (id : Nat) (reply : Reply β)

def Effect.increments (id : Nat) : Effect β → Bool
  | .incremented i => i == id
  | _ => false

def Effect.decrements (id : Nat) : Effect β → Bool
  | .decremented i => i == id
  | _ => false

/-- The service between two steps of the event loop. Requests are numbered in
the order of their arrival. -/
structure State (β : Type) where
  pendingStrategies : Int
  strategySlots : Semaphore Nat
  requests : List (InFlight β)
  /-- The threads that still execute the strategy of a request that has left. -/
  abandoned : List Nat
  arrivals : Nat

def init (app : MinerAppV2) : State β :=
  ⟨0, Semaphore.init app.maxConcurrentStrategies, [], [], 0⟩

/-- The strategy invocations that execute. -/
def State.executing (s : State β) : Nat :=
  s.requests.countP InFlight.isExecuting + s.abandoned.length

/-- The threads at work in the pool. -/
def State.threads (s : State β) : Nat :=
  s.requests.countP InFlight.isRunning + s.abandoned.length

inductive Input (β : Type) where
  | arrive (deadlineUnixMs clockUnixMs : Int)
  /-- The deadline of `asyncio.timeout` passes and cancels the task. -/
  | expire (id : Nat)
  /-- The task is cancelled from outside. -/
  | cancel (id : Nat)
  /-- A worker thread takes the submitted call. -/
  | threadStarts (id : Nat)
  | threadReturns (id : Nat) (o : Outcome β)
  /-- The event loop runs the task on, if what it awaits is done. -/
  | resume (id : Nat)
  | coroutineEnds (id : Nat) (o : Outcome β)

/-- The request with this id and the others. -/
def detach (id : Nat) : List (InFlight β) → Option (InFlight β × List (InFlight β))
  | [] => none
  | r :: rs =>
    if r.id = id then some (r, rs) else (detach id rs).map fun found => (found.1, r :: found.2)

section Step

variable (app : MinerAppV2)

/-- The call of the strategy inside the slot, up to its suspension. -/
def firstPhase : Phase β := if app.coroutineFunction then .awaiting else .submitted

/-- The task leaves the `try`, and the `finally` block decrements the counter.
Nothing is awaited under `pending_lock`, so acquiring it never suspends. -/
def leave (s : State β) (r : InFlight β) (others : List (InFlight β)) (slots : Semaphore Nat)
    (e : Ending β) : List (Effect β) × State β :=
  ([.decremented r.id, .answered r.id (r.reply e)],
    { s with
      pendingStrategies := s.pendingStrategies - 1
      strategySlots := slots
      requests := others })

/-- From the call of `execute_strategy` to its first suspension. -/
def arrive (deadlineUnixMs clockUnixMs : Int) (s : State β) : List (Effect β) × State β :=
  let id := s.arrivals
  if s.pendingStrategies ≥ app.maxPendingStrategies then
    ([.answered id (.httpError 503 strategyQueueFull)], { s with arrivals := id + 1 })
  else if deadlineUnixMs - clockUnixMs ≤ 0 then
    ([.incremented id, .decremented id, .answered id (.httpError 408 requestExpired)],
      { s with pendingStrategies := s.pendingStrategies + 1 - 1, arrivals := id + 1 })
  else
    let (acquired, slots) := s.strategySlots.acquire id
    let phase := if acquired then firstPhase app else .acquiring
    ([.incremented id],
      { s with
        pendingStrategies := s.pendingStrategies + 1
        strategySlots := slots
        requests := ⟨id, phase, false, false⟩ :: s.requests
        arrivals := id + 1 })

/-- The task runs on from the `await` of its slot. -/
def resumeAcquiring (s : State β) (r : InFlight β) (others : List (InFlight β)) :
    List (Effect β) × State β :=
  match s.strategySlots.future? r.id with
  | some .granted =>
    if r.interrupted then
      leave s r others (s.strategySlots.abandon r.id) .cancelledError
    else
      ([], { s with
        strategySlots := s.strategySlots.takeGranted r.id
        requests := r.enter (firstPhase app) :: others })
  | some .cancelled => leave s r others (s.strategySlots.abandon r.id) .cancelledError
  | _ => ([], s)

def resume (s : State β) (r : InFlight β) (others : List (InFlight β)) :
    List (Effect β) × State β :=
  match r.phase with
  | .acquiring => resumeAcquiring app s r others
  | .submitted =>
    -- a call that no thread has taken is cancelled with the task
    if r.interrupted then leave s r others s.strategySlots.release .cancelledError else ([], s)
  | .running =>
    -- the slot is released and the thread executes on
    if r.interrupted then
      leave { s with abandoned := r.id :: s.abandoned } r others s.strategySlots.release
        .cancelledError
    else ([], s)
  | .returned o =>
    if r.interrupted then leave s r others s.strategySlots.release .cancelledError
    else
      match o with
      | .ended e => leave s r others s.strategySlots.release e
      | .awaitable => ([], { s with requests := r.enter .awaiting :: others })
  | .awaiting => ([], s)

/-- `task.cancel()`. A coroutine of the strategy gets the exception where it
awaits, and ends when it ends. -/
def interrupt (s : State β) (r marked : InFlight β) (others : List (InFlight β)) : State β :=
  let slots :=
    match r.phase with
    | .acquiring => s.strategySlots.cancel r.id
    | _ => s.strategySlots
  { s with strategySlots := slots, requests := marked :: others }

def threadStarts (workers : Nat) (s : State β) (r : InFlight β) (others : List (InFlight β)) :
    State β :=
  match r.phase with
  | .submitted => if s.threads < workers then { s with requests := r.enter .running :: others } else s
  | _ => s

def threadReturns (o : Outcome β) (s : State β) (r : InFlight β) (others : List (InFlight β)) :
    State β :=
  match r.phase with
  | .running => { s with requests := r.enter (.returned o) :: others }
  | _ => s

def coroutineEnds (o : Outcome β) (s : State β) (r : InFlight β) (others : List (InFlight β)) :
    List (Effect β) × State β :=
  match r.phase, o with
  | .awaiting, .ended e => leave s r others s.strategySlots.release e
  | _, _ => ([], s)

/-- One input, with `workers` threads in the pool of the event loop. -/
def step (workers : Nat) (s : State β) : Input β → List (Effect β) × State β
  | .arrive deadlineUnixMs clockUnixMs => arrive app deadlineUnixMs clockUnixMs s
  | .expire id =>
    match detach id s.requests with
    | some (r, others) => ([], interrupt s r { r with expired := true } others)
    | none => ([], s)
  | .cancel id =>
    match detach id s.requests with
    | some (r, others) => ([], interrupt s r { r with cancelled := true } others)
    | none => ([], s)
  | .threadStarts id =>
    match detach id s.requests with
    | some (r, others) => ([], threadStarts workers s r others)
    | none => ([], s)
  | .threadReturns id o =>
    match detach id s.requests with
    | some (r, others) => ([], threadReturns o s r others)
    | none => ([], { s with abandoned := s.abandoned.erase id })
  | .resume id =>
    match detach id s.requests with
    | some (r, others) => resume app s r others
    | none => ([], s)
  | .coroutineEnds id o =>
    match detach id s.requests with
    | some (r, others) => coroutineEnds o s r others
    | none => ([], s)

end Step

theorem detach_perm {id : Nat} {rs others : List (InFlight β)} {r : InFlight β}
    (h : detach id rs = some (r, others)) : rs.Perm (r :: others) := by
  induction rs generalizing others with
  | nil => cases h
  | cons q rs ih =>
    by_cases hq : q.id = id
    · obtain ⟨rfl, rfl⟩ : q = r ∧ rs = others := by simpa [detach, hq] using h
      exact List.Perm.refl _
    · obtain ⟨rest, hrest, rfl⟩ : ∃ rest, detach id rs = some (r, rest) ∧ q :: rest = others := by
        simpa [detach, hq] using h
      exact ((ih hrest).cons q).trans (List.Perm.swap r q rest)

/-- A slot for each request that is inside `async with strategy_slots`. -/
def slotOf (r : InFlight β) : Nat := if r.holdsSlot then 1 else 0

/-- Everything that one input can do to the counter, the slots and the requests. -/
inductive Transition (app : MinerAppV2) (s : State β) : List (Effect β) → State β → Prop where
  | idle : Transition app s [] s
  | refused (reply : Reply β) :
      Transition app s [.answered s.arrivals reply] { s with arrivals := s.arrivals + 1 }
  | passed (reply : Reply β) (room : s.pendingStrategies < app.maxPendingStrategies) :
      Transition app s [.incremented s.arrivals, .decremented s.arrivals, .answered s.arrivals reply]
        { s with
          pendingStrategies := s.pendingStrategies + 1 - 1
          arrivals := s.arrivals + 1 }
  | admitted (r : InFlight β) (slots : Semaphore Nat)
      (room : s.pendingStrategies < app.maxPendingStrategies) (numbered : r.id = s.arrivals)
      (kept : slots.available + slotOf r = s.strategySlots.available) :
      Transition app s [.incremented s.arrivals]
        { s with
          pendingStrategies := s.pendingStrategies + 1
          strategySlots := slots
          requests := r :: s.requests
          arrivals := s.arrivals + 1 }
  | moved (r r' : InFlight β) (others : List (InFlight β)) (slots : Semaphore Nat)
      (present : s.requests.Perm (r :: others)) (same : r'.id = r.id)
      (kept : slots.available + slotOf r' = s.strategySlots.available + slotOf r) :
      Transition app s [] { s with strategySlots := slots, requests := r' :: others }
  | left (r : InFlight β) (others : List (InFlight β)) (slots : Semaphore Nat) (reply : Reply β)
      (abandoned : List Nat) (present : s.requests.Perm (r :: others))
      (returned : slots.available = s.strategySlots.available + slotOf r) :
      Transition app s [.decremented r.id, .answered r.id reply]
        { s with
          pendingStrategies := s.pendingStrategies - 1
          strategySlots := slots
          requests := others
          abandoned := abandoned }
  | threadEnded (id : Nat) :
      Transition app s [] { s with abandoned := s.abandoned.erase id }

section Inversion

variable {app : MinerAppV2} {s : State β} {r : InFlight β} {others : List (InFlight β)}

@[simp] theorem slotOf_firstPhase (r : InFlight β) :
    slotOf (r.enter (firstPhase app)) = 1 := by
  by_cases h : app.coroutineFunction <;> simp [slotOf, InFlight.holdsSlot, firstPhase, h]

theorem arrive_transition (deadlineUnixMs clockUnixMs : Int) :
    Transition app s (arrive app deadlineUnixMs clockUnixMs s).1
      (arrive app deadlineUnixMs clockUnixMs s).2 := by
  unfold arrive
  by_cases hfull : s.pendingStrategies ≥ app.maxPendingStrategies
  · simp only [hfull, if_true]
    exact .refused _
  · simp only [hfull, if_false]
    by_cases hlate : deadlineUnixMs - clockUnixMs ≤ 0
    · simp only [hlate, if_true]
      exact .passed _ (by omega)
    · simp only [hlate, if_false]
      refine .admitted _ _ (by omega) rfl ?_
      have hacquire := Semaphore.available_acquire s.arrivals s.strategySlots
      cases hslot : (s.strategySlots.acquire s.arrivals).1 with
      | true =>
        let arrival : InFlight β := ⟨s.arrivals, .acquiring, false, false⟩
        have hphase : slotOf (arrival.enter (firstPhase app)) = 1 := slotOf_firstPhase arrival
        simp only [arrival, InFlight.enter] at hphase
        simpa [hslot, hphase] using hacquire
      | false => simpa [hslot, slotOf, InFlight.holdsSlot] using hacquire

theorem leave_transition (present : s.requests.Perm (r :: others)) {slots : Semaphore Nat}
    (returned : slots.available = s.strategySlots.available + slotOf r) (e : Ending β) :
    Transition app s (leave s r others slots e).1 (leave s r others slots e).2 :=
  .left r others slots (r.reply e) s.abandoned present returned

theorem release_returns (hslot : r.holdsSlot = true) :
    s.strategySlots.release.available = s.strategySlots.available + slotOf r := by
  rw [Semaphore.available_release, slotOf, if_pos hslot]

theorem resumeAcquiring_transition (present : s.requests.Perm (r :: others))
    (hphase : r.phase = .acquiring) :
    Transition app s (resumeAcquiring app s r others).1 (resumeAcquiring app s r others).2 := by
  have hslot : slotOf r = 0 := by simp [slotOf, InFlight.holdsSlot, hphase]
  unfold resumeAcquiring
  cases hfuture : s.strategySlots.future? r.id with
  | none => exact .idle
  | some f =>
    have habandon := Semaphore.available_abandon hfuture
    cases f with
    | pending => exact .idle
    | cancelled => exact leave_transition present (by omega) _
    | granted =>
      by_cases hint : r.interrupted
      · simp only [hint, if_true]
        exact leave_transition present (by omega) _
      · simp only [hint, Bool.false_eq_true, if_false]
        have htake := Semaphore.available_takeGranted hfuture
        refine .moved r _ others _ present rfl ?_
        rw [slotOf_firstPhase]
        omega

theorem resume_transition (present : s.requests.Perm (r :: others)) :
    Transition app s (resume app s r others).1 (resume app s r others).2 := by
  unfold resume
  cases hphase : r.phase with
  | acquiring => exact resumeAcquiring_transition present hphase
  | submitted =>
    have hslot : r.holdsSlot = true := by simp [InFlight.holdsSlot, hphase]
    by_cases hint : r.interrupted
    · simp only [hint, if_true]
      exact leave_transition present (release_returns hslot) _
    · simp only [hint, Bool.false_eq_true, if_false]
      exact .idle
  | running =>
    have hslot : r.holdsSlot = true := by simp [InFlight.holdsSlot, hphase]
    by_cases hint : r.interrupted
    · simp only [hint, if_true]
      exact .left r others _ _ (r.id :: s.abandoned) present (release_returns hslot)
    · simp only [hint, Bool.false_eq_true, if_false]
      exact .idle
  | returned o =>
    have hslot : r.holdsSlot = true := by simp [InFlight.holdsSlot, hphase]
    by_cases hint : r.interrupted
    · simp only [hint, if_true]
      exact leave_transition present (release_returns hslot) _
    · simp only [hint, Bool.false_eq_true, if_false]
      cases o with
      | ended e => exact leave_transition present (release_returns hslot) _
      | awaitable =>
        refine .moved r _ others _ present rfl ?_
        simp [slotOf, InFlight.holdsSlot, hphase]
  | awaiting => exact .idle

/-- A cancelled waiter keeps its place, and nobody's slot changes hands. -/
theorem interrupt_transition (present : s.requests.Perm (r :: others)) {marked : InFlight β}
    (same : marked.id = r.id) (phase : marked.phase = r.phase) :
    Transition app s [] (interrupt s r marked others) := by
  unfold interrupt
  refine .moved r marked others _ present same ?_
  have hslot : slotOf marked = slotOf r := by
    rw [slotOf, slotOf, InFlight.holdsSlot, InFlight.holdsSlot, phase]
  cases hphase : r.phase <;> simp [hslot]

theorem threadStarts_transition (present : s.requests.Perm (r :: others)) (workers : Nat) :
    Transition app s [] (threadStarts workers s r others) := by
  unfold threadStarts
  cases hphase : r.phase with
  | submitted =>
    by_cases hfree : s.threads < workers
    · simp only [hfree, if_true]
      refine .moved r _ others _ present rfl ?_
      simp [slotOf, InFlight.holdsSlot, hphase]
    · simp only [hfree, if_false]
      exact .idle
  | acquiring => exact .idle
  | running => exact .idle
  | returned => exact .idle
  | awaiting => exact .idle

theorem threadReturns_transition (present : s.requests.Perm (r :: others)) (o : Outcome β) :
    Transition app s [] (threadReturns o s r others) := by
  unfold threadReturns
  cases hphase : r.phase with
  | running =>
    refine .moved r _ others _ present rfl ?_
    simp [slotOf, InFlight.holdsSlot, hphase]
  | acquiring => exact .idle
  | submitted => exact .idle
  | returned => exact .idle
  | awaiting => exact .idle

theorem coroutineEnds_transition (present : s.requests.Perm (r :: others)) (o : Outcome β) :
    Transition app s (coroutineEnds o s r others).1 (coroutineEnds o s r others).2 := by
  unfold coroutineEnds
  cases hphase : r.phase with
  | awaiting =>
    have hslot : r.holdsSlot = true := by simp [InFlight.holdsSlot, hphase]
    cases o with
    | ended e => exact leave_transition present (release_returns hslot) _
    | awaitable => exact .idle
  | acquiring => exact .idle
  | submitted => exact .idle
  | running => exact .idle
  | returned => exact .idle

theorem step_transition (workers : Nat) (i : Input β) :
    Transition app s (step app workers s i).1 (step app workers s i).2 := by
  cases i with
  | arrive deadlineUnixMs clockUnixMs => exact arrive_transition deadlineUnixMs clockUnixMs
  | expire id =>
    cases h : detach id s.requests with
    | none => simpa only [step, h] using .idle
    | some found =>
      simp only [step, h]
      exact interrupt_transition (detach_perm h) rfl rfl
  | cancel id =>
    cases h : detach id s.requests with
    | none => simpa only [step, h] using .idle
    | some found =>
      simp only [step, h]
      exact interrupt_transition (detach_perm h) rfl rfl
  | threadStarts id =>
    cases h : detach id s.requests with
    | none => simpa only [step, h] using .idle
    | some found => simpa only [step, h] using threadStarts_transition (detach_perm h) workers
  | threadReturns id o =>
    cases h : detach id s.requests with
    | none => simpa only [step, h] using .threadEnded id
    | some found => simpa only [step, h] using threadReturns_transition (detach_perm h) o
  | resume id =>
    cases h : detach id s.requests with
    | none => simpa only [step, h] using .idle
    | some found => simpa only [step, h] using resume_transition (detach_perm h)
  | coroutineEnds id o =>
    cases h : detach id s.requests with
    | none => simpa only [step, h] using .idle
    | some found => simpa only [step, h] using coroutineEnds_transition (detach_perm h) o

end Inversion

/-- The counter counts the requests in flight, and each slot is free, handed to
a waiter or held by one request. -/
structure Inv (app : MinerAppV2) (s : State β) : Prop where
  pending : s.pendingStrategies = s.requests.length
  bounded : s.requests.length ≤ app.maxPendingStrategies
  slots : s.strategySlots.available + s.requests.countP InFlight.holdsSlot =
    app.maxConcurrentStrategies

theorem inv_init (app : MinerAppV2) : Inv app (init app : State β) where
  pending := rfl
  bounded := Nat.zero_le _
  slots := rfl

theorem countP_holdsSlot_cons (r : InFlight β) (rs : List (InFlight β)) :
    (r :: rs).countP InFlight.holdsSlot = rs.countP InFlight.holdsSlot + slotOf r :=
  List.countP_cons

theorem Inv.preserved {app : MinerAppV2} {s s' : State β} {effects : List (Effect β)}
    (h : Transition app s effects s') (inv : Inv app s) : Inv app s' := by
  obtain ⟨pending, bounded, slots⟩ := inv
  cases h with
  | idle => exact ⟨pending, bounded, slots⟩
  | refused reply => exact ⟨pending, bounded, slots⟩
  | passed reply room => exact ⟨by simpa using pending, bounded, slots⟩
  | admitted r free room numbered kept =>
    refine ⟨?_, ?_, ?_⟩
    · simp only [List.length_cons, Nat.cast_add, Nat.cast_one, pending]
    · simp only [List.length_cons]
      omega
    · simp only [countP_holdsSlot_cons]
      omega
  | moved r r' others free present same kept =>
    have hlength := present.length_eq
    have hcount := present.countP_eq InFlight.holdsSlot
    rw [countP_holdsSlot_cons] at hcount
    refine ⟨?_, ?_, ?_⟩
    · simpa [hlength] using pending
    · simpa [hlength] using bounded
    · simp only [countP_holdsSlot_cons]
      omega
  | left r others free reply abandoned present returned =>
    have hlength := present.length_eq
    have hcount := present.countP_eq InFlight.holdsSlot
    rw [countP_holdsSlot_cons] at hcount
    rw [List.length_cons] at hlength
    refine ⟨?_, ?_, ?_⟩
    · simp only [pending, hlength]
      omega
    · simp only
      omega
    · simp only
      omega
  | threadEnded id => exact ⟨pending, bounded, slots⟩

/-- Whoever executes in a request holds its slot. -/
theorem Inv.executing_le {app : MinerAppV2} {s : State β} (inv : Inv app s) :
    s.executing ≤ app.maxConcurrentStrategies + s.abandoned.length := by
  have hholds : s.requests.countP InFlight.isExecuting ≤ s.requests.countP InFlight.holdsSlot := by
    refine List.countP_mono_left fun r _ hr => ?_
    unfold InFlight.isExecuting at hr
    unfold InFlight.holdsSlot
    cases hphase : r.phase with
    | acquiring => simp [hphase] at hr
    | submitted => rfl
    | running => rfl
    | returned => rfl
    | awaiting => rfl
  have hslots := inv.slots
  unfold State.executing
  omega

/-- Among the effects so far each number was counted up at most once, and it was
counted down as often, unless its request is in flight. -/
structure Accounted (log : List (Effect β)) (s : State β) : Prop where
  fresh : ∀ id, s.arrivals ≤ id → log.countP (Effect.increments id) = 0
  once : ∀ id, log.countP (Effect.increments id) ≤ 1
  balance : ∀ id, log.countP (Effect.increments id) =
    log.countP (Effect.decrements id) + s.requests.countP fun r => r.id == id

theorem Accounted.preserved {app : MinerAppV2} {s s' : State β} {log effects : List (Effect β)}
    (h : Transition app s effects s') (acc : Accounted log s) : Accounted (log ++ effects) s' := by
  obtain ⟨fresh, once, balance⟩ := acc
  cases h with
  | idle => simpa using (⟨fresh, once, balance⟩ : Accounted log s)
  | refused reply =>
    refine ⟨fun id hid => ?_, fun id => ?_, fun id => ?_⟩
    · have hfresh := fresh id (by simp only at hid; omega)
      simpa [Effect.increments] using hfresh
    · simpa [Effect.increments] using once id
    · simpa [Effect.increments, Effect.decrements] using balance id
  | passed reply room =>
    refine ⟨fun id hid => ?_, fun id => ?_, fun id => ?_⟩
    · simp only at hid
      have hfresh := fresh id (by omega)
      have hne : s.arrivals ≠ id := by omega
      simpa [Effect.increments, hne] using hfresh
    · by_cases hid : s.arrivals = id
      · simp [Effect.increments, hid, fresh id hid.le]
      · simpa [Effect.increments, hid] using once id
    · have hbalance := balance id
      by_cases hid : s.arrivals = id
      · simp [Effect.increments, Effect.decrements, hid]
        omega
      · simpa [Effect.increments, Effect.decrements, hid] using hbalance
  | admitted r free room numbered kept =>
    refine ⟨fun id hid => ?_, fun id => ?_, fun id => ?_⟩
    · simp only at hid
      have hfresh := fresh id (by omega)
      have hne : s.arrivals ≠ id := by omega
      simpa [Effect.increments, hne] using hfresh
    · by_cases hid : s.arrivals = id
      · simp [Effect.increments, hid, fresh id hid.le]
      · simpa [Effect.increments, hid] using once id
    · have hbalance := balance id
      by_cases hid : s.arrivals = id
      · simp [Effect.increments, Effect.decrements, hid, numbered]
        omega
      · simpa [Effect.increments, Effect.decrements, hid, numbered, List.countP_cons] using hbalance
  | moved r r' others free present same kept =>
    refine ⟨fun id hid => ?_, fun id => ?_, fun id => ?_⟩
    · simpa using fresh id hid
    · simpa using once id
    · have hbalance := balance id
      rw [present.countP_eq, List.countP_cons] at hbalance
      simpa [List.countP_cons, same] using hbalance
  | left r others free reply abandoned present returned =>
    refine ⟨fun id hid => ?_, fun id => ?_, fun id => ?_⟩
    · simpa [Effect.increments] using fresh id hid
    · simpa [Effect.increments] using once id
    · have hbalance := balance id
      rw [present.countP_eq, List.countP_cons] at hbalance
      by_cases hid : r.id = id
      · simp [Effect.increments, Effect.decrements, hid] at hbalance ⊢
        omega
      · simpa [Effect.increments, Effect.decrements, hid] using hbalance
  | threadEnded id =>
    rw [List.append_nil]
    exact ⟨fresh, once, balance⟩

section Runs

abbrev StrategyEvent (β : Type) := Event (State β) (Input β) (List (Effect β))

def effects (events : List (StrategyEvent β)) : List (Effect β) := events.flatMap Event.answer

/-- The request that runs on was cancelled or timed out while a worker thread
executes the strategy for it. -/
def abandonsThread (s : State β) : Input β → Bool
  | .resume id =>
    match detach id s.requests with
    | some (r, _) => r.interrupted && r.isRunning
    | none => false
  | _ => false

variable (app : MinerAppV2) (workers : Nat)

theorem resume_abandoned {s : State β} {r : InFlight β} {others : List (InFlight β)}
    (h : (r.interrupted && r.isRunning) = false) :
    (resume app s r others).2.abandoned = s.abandoned := by
  unfold resume
  cases hphase : r.phase with
  | acquiring =>
    simp only [resumeAcquiring]
    cases s.strategySlots.future? r.id with
    | none => rfl
    | some f => cases f <;> cases r.interrupted <;> rfl
  | submitted => cases r.interrupted <;> rfl
  | running =>
    have hint : r.interrupted = false := by simpa [InFlight.isRunning, hphase] using h
    simp [hint]
  | returned o => cases r.interrupted <;> cases o <;> rfl
  | awaiting => rfl

/-- Only a request that leaves a running thread behind abandons it. -/
theorem step_abandoned {s : State β} {i : Input β} (h : abandonsThread s i = false) :
    (step app workers s i).2.abandoned.length ≤ s.abandoned.length := by
  cases i with
  | arrive deadlineUnixMs clockUnixMs =>
    simp only [step, arrive]
    split_ifs <;> exact le_rfl
  | expire id => cases hfind : detach id s.requests <;> simp [step, hfind, interrupt]
  | cancel id => cases hfind : detach id s.requests <;> simp [step, hfind, interrupt]
  | threadStarts id =>
    cases hfind : detach id s.requests with
    | none => simp [step, hfind]
    | some found =>
      simp only [step, hfind, threadStarts]
      cases found.1.phase with
      | submitted => split_ifs <;> exact le_rfl
      | _ => exact le_rfl
  | threadReturns id o =>
    cases hfind : detach id s.requests with
    | none => simpa [step, hfind] using List.length_erase_le
    | some found =>
      simp only [step, hfind, threadReturns]
      cases found.1.phase <;> exact le_rfl
  | resume id =>
    cases hfind : detach id s.requests with
    | none => simp [step, hfind]
    | some found =>
      simp only [abandonsThread, hfind] at h
      simp only [step, hfind, resume_abandoned app h, le_refl]
  | coroutineEnds id o =>
    cases hfind : detach id s.requests with
    | none => simp [step, hfind]
    | some found =>
      simp only [step, hfind, coroutineEnds]
      cases found.1.phase <;> cases o <;> exact le_rfl

theorem run_inv (inputs : List (Input β)) :
    Inv app (stateAfter (step app workers) (init app) inputs) :=
  history_invariant (step app workers) (fun _ s => Inv app s) (inv_init app)
    (fun _ _ i inv => inv.preserved (step_transition workers i)) inputs

theorem effects_concat (past : List (StrategyEvent β)) (e : StrategyEvent β) :
    effects (past ++ [e]) = effects past ++ e.answer := by
  simp [effects]

theorem run_accounted (inputs : List (Input β)) :
    Accounted (effects (trace (step app workers) (init app) inputs))
      (stateAfter (step app workers) (init app) inputs) := by
  apply history_invariant (step app workers) fun past s => Accounted (effects past) s
  · exact ⟨fun _ _ => rfl, fun _ => Nat.zero_le 1, fun _ => rfl⟩
  · intro past t i acc
    rw [effects_concat]
    exact acc.preserved (step_transition workers i)

theorem run_abandoned (inputs : List (Input β))
    (h : ∀ e ∈ trace (step app workers) (init app) inputs, abandonsThread e.before e.input = false) :
    (stateAfter (step app workers) (init app) inputs).abandoned.length = 0 := by
  induction inputs using List.reverseRecOn with
  | nil => rfl
  | append_singleton inputs i ih =>
    rw [trace_concat] at h
    rw [stateAfter_concat]
    have hbefore := ih fun e he => h e (List.mem_append_left _ he)
    have hlast := step_abandoned app workers (h _ (List.mem_append_right _ List.mem_cons_self))
    simp only [event] at hlast
    omega

/-- In every run the counter stays in its bounds and counts the requests in
flight, and each admitted request counts it down exactly once. As long as no
request leaves a running thread behind, the slots bound the executions. -/
theorem executeStrategy_bounded (inputs : List (Input β)) :
    let run := trace (step app workers) (init app) inputs
    let s := stateAfter (step app workers) (init app) inputs
    (0 ≤ s.pendingStrategies ∧ s.pendingStrategies ≤ app.maxPendingStrategies) ∧
    s.pendingStrategies = s.requests.length ∧
    (∀ id, (effects run).countP (Effect.increments id) ≤ 1 ∧
      (effects run).countP (Effect.increments id) =
        (effects run).countP (Effect.decrements id) + s.requests.countP fun r => r.id == id) ∧
    ((∀ e ∈ run, abandonsThread e.before e.input = false) →
      s.executing ≤ app.maxConcurrentStrategies) := by
  intro run s
  have inv : Inv app s := run_inv app workers inputs
  have acc : Accounted (effects run) s := run_accounted app workers inputs
  have hbounded := inv.bounded
  have hpending := inv.pending
  refine ⟨⟨by omega, by omega⟩, hpending, fun id => ⟨acc.once id, acc.balance id⟩, fun h => ?_⟩
  have habandoned : s.abandoned.length = 0 := run_abandoned app workers inputs h
  have hexecuting := inv.executing_le
  omega

def defaultApp : MinerAppV2 where
  maxConcurrentStrategies := defaultMaxConcurrentStrategies
  maxPendingStrategies := defaultMaxPendingStrategies
  coroutineFunction := false
  positive := by decide
  covered := by decide

/-- Five requests share four slots, and one deadline passes while its request
still waits. -/
def patientRun : List (Input Nat) :=
  (List.range 5).map (fun _ => .arrive 1000 0) ++
    [.threadStarts 0, .threadStarts 1, .threadStarts 2, .threadStarts 3, .expire 4, .resume 4,
      .threadReturns 0 (.ended (.artifact 7)), .resume 0, .arrive 2000 1000, .threadStarts 5]

theorem patientRun_bounded :
    (stateAfter (step defaultApp 5) (init defaultApp) patientRun).executing ≤ 4 :=
  (executeStrategy_bounded defaultApp 5 patientRun).2.2.2 (by decide)

/-- The deadline of a request passes while its thread executes. -/
def deadlineRun : List (Input Nat) :=
  [.arrive 1000 0, .threadStarts 0, .arrive 1000 0, .threadStarts 1, .arrive 1000 0,
    .threadStarts 2, .arrive 1000 0, .threadStarts 3, .expire 0, .resume 0, .arrive 2000 1000,
    .threadStarts 4]

theorem deadline_frees_running_slot :
    ¬ ∀ inputs : List (Input Nat), (stateAfter (step defaultApp 5) (init defaultApp) inputs).executing
      ≤ defaultApp.maxConcurrentStrategies := by
  intro h
  exact absurd (h deadlineRun) (by decide)

end Runs

end ApiV2
