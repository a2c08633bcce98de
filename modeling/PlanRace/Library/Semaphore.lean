import Mathlib.Data.List.Basic
import Mathlib.Tactic.Common

/-!
# A counting semaphore with first-in first-out waiters

The semaphore of a cooperative event loop. A free slot is handed to the first
waiter whose future is still pending, and from then on it belongs to that
waiter, which takes it when its task runs again or gives it back when the task
was cancelled in between. `available` counts the slots that no task holds.
-/

namespace Semaphore

inductive Future where
  | pending
  | granted
  | cancelled
deriving DecidableEq

end Semaphore

structure Semaphore (ι : Type) where
  value : Nat
  waiters : List (ι × Semaphore.Future)
deriving DecidableEq

namespace Semaphore

variable {ι : Type} [DecidableEq ι]

def init (slots : Nat) : Semaphore ι := ⟨slots, []⟩

/-- Nobody may overtake a waiter whose future is not cancelled. -/
def locked (s : Semaphore ι) : Bool :=
  s.value == 0 || s.waiters.any fun w => w.2 != .cancelled

/-- The first pending future gets its result. -/
def grantFirst : List (ι × Future) → Option (List (ι × Future))
  | [] => none
  | (i, .pending) :: ws => some ((i, .granted) :: ws)
  | w :: ws => (grantFirst ws).map (w :: ·)

def wakeUpNext (s : Semaphore ι) : Option (Semaphore ι) :=
  (grantFirst s.waiters).map fun ws => ⟨s.value - 1, ws⟩

/-- `while value > 0: if not wake_up_next(): break`. -/
def wakeUp : Nat → Semaphore ι → Semaphore ι
  | 0, s => s
  | rounds + 1, s => ((wakeUpNext s).map (wakeUp rounds)).getD s

def freed (s : Semaphore ι) : Semaphore ι := { s with value := s.value + 1 }

def release (s : Semaphore ι) : Semaphore ι := (wakeUpNext s.freed).getD s.freed

/-- `acquire` up to its first suspension: the slot is taken at once, or the
task waits on a new future. -/
def acquire (i : ι) (s : Semaphore ι) : Bool × Semaphore ι :=
  if s.locked then (false, { s with waiters := s.waiters ++ [(i, .pending)] })
  else (true, { s with value := s.value - 1 })

def future? (i : ι) (s : Semaphore ι) : Option Future :=
  (s.waiters.find? fun w => w.1 = i).map Prod.snd

def cancelFirst (i : ι) : List (ι × Future) → List (ι × Future)
  | [] => []
  | w :: ws =>
    if w.1 = i then (i, if w.2 = .pending then .cancelled else w.2) :: ws
    else w :: cancelFirst i ws

/-- The task of a waiter is cancelled: a future that is done stays as it is. -/
def cancel (i : ι) (s : Semaphore ι) : Semaphore ι :=
  { s with waiters := cancelFirst i s.waiters }

def removeFirst (i : ι) (s : Semaphore ι) : Semaphore ι :=
  { s with waiters := s.waiters.eraseP fun w => w.1 = i }

/-- The rest of `acquire` when the awaited future is granted and the task runs on. -/
def takeGranted (i : ι) (s : Semaphore ι) : Semaphore ι :=
  wakeUp (s.removeFirst i).value (s.removeFirst i)

/-- The rest of `acquire` when the task was cancelled: a granted slot goes back. -/
def abandon (i : ι) (s : Semaphore ι) : Semaphore ι :=
  let left := s.removeFirst i
  let restored := if s.future? i = some .granted then left.freed else left
  wakeUp restored.value restored

def granted (ws : List (ι × Future)) : Nat := ws.countP fun w => w.2 = .granted

/-- The slots that no task holds: free ones and those handed to a waiter. -/
def available (s : Semaphore ι) : Nat := s.value + granted s.waiters

omit [DecidableEq ι] in
@[simp] theorem available_init (slots : Nat) : available (init slots : Semaphore ι) = slots := rfl

omit [DecidableEq ι] in
theorem granted_cons (w : ι × Future) (ws : List (ι × Future)) :
    granted (w :: ws) = granted ws + if w.2 = .granted then 1 else 0 := by
  simp [granted, List.countP_cons]

omit [DecidableEq ι] in
theorem granted_grantFirst {ws ws' : List (ι × Future)} (h : grantFirst ws = some ws') :
    granted ws' = granted ws + 1 := by
  induction ws generalizing ws' with
  | nil => cases h
  | cons w ws ih =>
    obtain ⟨i, f⟩ := w
    cases f with
    | pending =>
      obtain rfl : (i, .granted) :: ws = ws' := Option.some.inj h
      simp [granted_cons]
    | granted =>
      obtain ⟨rest, hrest, rfl⟩ := Option.map_eq_some_iff.mp h
      simp only [granted_cons, ih hrest]
      omega
    | cancelled =>
      obtain ⟨rest, hrest, rfl⟩ := Option.map_eq_some_iff.mp h
      simp only [granted_cons, ih hrest]
      omega

omit [DecidableEq ι] in
/-- Handing a slot on moves it from the free ones to the granted ones. -/
theorem available_wakeUpNext {s s' : Semaphore ι} (free : 0 < s.value)
    (h : wakeUpNext s = some s') : s'.available = s.available := by
  obtain ⟨ws, hws, rfl⟩ := Option.map_eq_some_iff.mp h
  have hgrant := granted_grantFirst hws
  simp only [available, hgrant]
  omega

omit [DecidableEq ι] in
theorem value_wakeUpNext {s s' : Semaphore ι} (h : wakeUpNext s = some s') :
    s'.value = s.value - 1 := by
  obtain ⟨ws, -, rfl⟩ := Option.map_eq_some_iff.mp h
  rfl

omit [DecidableEq ι] in
theorem available_wakeUp (rounds : Nat) (s : Semaphore ι) (bound : rounds ≤ s.value) :
    (wakeUp rounds s).available = s.available := by
  induction rounds generalizing s with
  | zero => rfl
  | succ rounds ih =>
    cases h : wakeUpNext s with
    | none => simp [wakeUp, h]
    | some s' =>
      have hvalue := value_wakeUpNext h
      have hstep := available_wakeUpNext (by omega) h
      have hrest := ih s' (by omega)
      simpa [wakeUp, h] using hrest.trans hstep

omit [DecidableEq ι] in
@[simp] theorem available_freed (s : Semaphore ι) : s.freed.available = s.available + 1 := by
  simp only [available, freed]
  omega

omit [DecidableEq ι] in
theorem available_release (s : Semaphore ι) : (release s).available = s.available + 1 := by
  unfold release
  cases h : wakeUpNext s.freed with
  | none => exact available_freed s
  | some s' => exact (available_wakeUpNext (Nat.succ_pos _) h).trans (available_freed s)

omit [DecidableEq ι] in
theorem available_acquire (i : ι) (s : Semaphore ι) :
    (acquire i s).2.available + (if (acquire i s).1 then 1 else 0) = s.available := by
  unfold acquire
  by_cases h : s.locked
  · simp [h, available, granted]
  · have hvalue : s.value ≠ 0 := by
      intro hzero
      simp [locked, hzero] at h
    simp only [h, available, if_true, Bool.false_eq_true, if_false]
    omega

theorem granted_cancelFirst (i : ι) (ws : List (ι × Future)) :
    granted (cancelFirst i ws) = granted ws := by
  induction ws with
  | nil => rfl
  | cons w ws ih =>
    by_cases h : w.1 = i
    · obtain ⟨j, f⟩ := w
      obtain rfl : j = i := h
      cases f <;> simp [cancelFirst, granted_cons]
    · simp [cancelFirst, granted_cons, h, ih]

@[simp] theorem available_cancel (i : ι) (s : Semaphore ι) :
    (cancel i s).available = s.available := by
  simp [available, cancel, granted_cancelFirst]

theorem granted_eraseP {i : ι} {ws : List (ι × Future)} {w : ι × Future}
    (h : ws.find? (fun w => w.1 = i) = some w) :
    granted (ws.eraseP fun w => w.1 = i) + (if w.2 = .granted then 1 else 0) = granted ws := by
  induction ws with
  | nil => cases h
  | cons v ws ih =>
    by_cases hv : v.1 = i
    · obtain rfl : v = w := by simpa [List.find?_cons, hv] using h
      simp [hv, granted_cons]
    · have hrest := ih (by simpa [List.find?_cons, hv] using h)
      simp only [List.eraseP_cons, hv, decide_false, cond_false, granted_cons]
      omega

theorem available_removeFirst {i : ι} {s : Semaphore ι} {f : Future} (h : s.future? i = some f) :
    (s.removeFirst i).available + (if f = .granted then 1 else 0) = s.available := by
  obtain ⟨w, hw, rfl⟩ := Option.map_eq_some_iff.mp h
  have herase := granted_eraseP hw
  simp only [available, removeFirst]
  omega

/-- A task that was granted a slot and runs on holds it. -/
theorem available_takeGranted {i : ι} {s : Semaphore ι} (h : s.future? i = some .granted) :
    (s.takeGranted i).available + 1 = s.available := by
  unfold takeGranted
  rw [available_wakeUp _ _ (Nat.le_refl _)]
  exact available_removeFirst h

/-- A cancelled waiter leaves no slot behind. -/
theorem available_abandon {i : ι} {s : Semaphore ι} {f : Future} (h : s.future? i = some f) :
    (s.abandon i).available = s.available := by
  have hremove := available_removeFirst h
  unfold abandon
  rw [available_wakeUp _ _ (Nat.le_refl _), h]
  cases f with
  | pending => simpa using hremove
  | cancelled => simpa using hremove
  | granted => simpa using hremove

end Semaphore
