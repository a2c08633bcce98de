import PlanRace.TaskLifecycle
import PlanRace.ReplayProtection

/-!
# Submissions are atomic with replay protection

A lifecycle shares an in-memory replay store with other verifiers. A
submission either raises and changes neither, or stores its response and
consumes its replay key; so in every run the responses stored and the keys
consumed through the lifecycle correspond one to one.
-/

namespace SubmissionAtomicity

open TaskModels TaskgenV2 AuthV2 TaskLifecycle Runs

variable (signatureVerifies : SignatureCheck) (maxEntries : Nat)

/-- `(miner_hotkey, request_nonce, request_id)`. -/
def responseKey (response : SignedOptimizationResponse) : ReplayKey := (replayRow response).key

/-- The submission with the in-memory store as its replay store. -/
def onMemory (c : SubmitCall MemoryKeys) : SubmitCall MemoryKeys :=
  { c with replayStore := memoryCheckAndStore maxEntries }

def routed : Call MemoryKeys → Call MemoryKeys
  | .submitVerified c => .submitVerified (onMemory maxEntries c)
  | c => c

inductive SharedCall where
  /-- A call on the lifecycle. -/
  | lifecycle (c : Call MemoryKeys)
  /-- Another verifier asks the same store. -/
  | foreign (row : ReplayRow)

/-- One call on the lifecycle and the store it shares. -/
def sharedStep (s : TaskLifecycleV2 × MemoryKeys) :
    SharedCall → Option Outcome × TaskLifecycleV2 × MemoryKeys
  | .lifecycle c =>
    let (outcome, after) := step signatureVerifies s (routed maxEntries c)
    (some outcome, after)
  | .foreign row => (none, s.1, (memoryCheckAndStore maxEntries row s.2).2)

abbrev SharedEvent := Event (TaskLifecycleV2 × MemoryKeys) SharedCall (Option Outcome)

/-- The response that an event stored. -/
def storedIn (e : SharedEvent) : List SignedOptimizationResponse :=
  match e.input, e.answer with
  | .lifecycle (.submitVerified c), some (.ok .stored) => [c.response]
  | _, _ => []

/-- The keys that the store gained in a call on the lifecycle. -/
def consumedIn (e : SharedEvent) : List ReplayKey :=
  match e.input with
  | .lifecycle _ => e.after.2.keys.filter fun key => decide (key ∉ e.before.2.keys)
  | .foreign _ => []

def storedBy (events : List SharedEvent) : List SignedOptimizationResponse :=
  events.flatMap storedIn

def consumedBy (events : List SharedEvent) : List ReplayKey := events.flatMap consumedIn

section Submission

variable {signatureVerifies maxEntries}

/-- What the in-memory store can answer. -/
theorem memoryCheckAndStore_cases (row : ReplayRow) (m : MemoryKeys) :
    memoryCheckAndStore maxEntries row m = (.ok false, m) ∨
      row.key ∉ m.keys ∧ (memoryCheckAndStore maxEntries row m).1 = .ok true ∧
        (memoryCheckAndStore maxEntries row m).2.keys = row.key :: m.keys := by
  unfold memoryCheckAndStore
  split_ifs with known full
  · exact .inl rfl
  · exact .inl rfl
  · exact .inr ⟨known, rfl, rfl⟩

/-- Verification against the in-memory store: nothing changes, or one key is gained. -/
theorem verifySignedResponse_cases (response : SignedOptimizationResponse) (v : Verification)
    (m : MemoryKeys) :
    (∃ e, verifySignedResponse signatureVerifies (memoryCheckAndStore maxEntries) response v m =
      (.error e, m)) ∨
      ∃ m', verifySignedResponse signatureVerifies (memoryCheckAndStore maxEntries) response v m =
        (.ok response.artifact, m') ∧ responseKey response ∉ m.keys ∧
          m'.keys = responseKey response :: m.keys := by
  unfold verifySignedResponse
  cases checkResponse signatureVerifies response v with
  | error e => exact .inl ⟨e, rfl⟩
  | ok u =>
    rcases memoryCheckAndStore_cases (replayRow response) m with h | ⟨fresh, hanswer, hkeys⟩
    · rw [h]
      exact .inl ⟨_, rfl⟩
    · generalize memoryCheckAndStore maxEntries (replayRow response) m = answer at hanswer hkeys
      obtain ⟨outcome, m'⟩ := answer
      cases hanswer
      exact .inr ⟨m', rfl, fresh, hkeys⟩

/-- A submission changes nothing, or stores its response and consumes its key. -/
theorem submitVerified_cases (c : SubmitCall MemoryKeys) (l : TaskLifecycleV2) (m : MemoryKeys) :
    (∃ e, submitVerified signatureVerifies (onMemory maxEntries c) l m = (.error e, l, m)) ∨
      ∃ (fresh : c.response.requestId ∉ l.requestIds) (m' : MemoryKeys),
        submitVerified signatureVerifies (onMemory maxEntries c) l m =
            (.ok (), l.store c.response fresh, m') ∧
          responseKey c.response ∉ m.keys ∧ m'.keys = responseKey c.response :: m.keys := by
  unfold submitVerified onMemory
  dsimp only
  split_ifs with hopen hdeadline hown htask hfresh
  · exact .inl ⟨_, rfl⟩
  · exact .inl ⟨_, rfl⟩
  · exact .inl ⟨_, rfl⟩
  · exact .inl ⟨_, rfl⟩
  · exact .inl ⟨_, rfl⟩
  · rcases verifySignedResponse_cases c.response
        (SubmitCall.verification { c with replayStore := memoryCheckAndStore maxEntries }) m with
      ⟨e, h⟩ | ⟨m', h, fresh, hkeys⟩
    · rw [h]
      exact .inl ⟨_, rfl⟩
    · rw [h]
      exact .inr ⟨hfresh, m', rfl, fresh, hkeys⟩

end Submission

section Run

variable {signatureVerifies maxEntries}

/-- One event: the lifecycle gains what it stored, the store keeps its keys and
gains those of the stored responses. -/
structure Accounted (before after : TaskLifecycleV2 × MemoryKeys)
    (stored : List SignedOptimizationResponse) (consumed : List ReplayKey) : Prop where
  submissions : after.1.submissions = before.1.submissions ++ stored
  keys : consumed = stored.map responseKey
  distinct : consumed.Nodup
  fresh : ∀ key ∈ consumed, key ∉ before.2.keys
  kept : ∀ key ∈ consumed ++ before.2.keys, key ∈ after.2.keys

theorem filter_new_self (keys : List ReplayKey) :
    keys.filter (fun key => decide (key ∉ keys)) = [] := by
  simp

theorem filter_new_cons {key : ReplayKey} {keys : List ReplayKey} (fresh : key ∉ keys) :
    (key :: keys).filter (fun k => decide (k ∉ keys)) = [key] := by
  rw [List.filter_cons_of_pos (by simpa using fresh), filter_new_self]

/-- A call on the lifecycle that gains nothing. -/
theorem accounted_of_eq {before after : TaskLifecycleV2 × MemoryKeys}
    (submissions : after.1.submissions = before.1.submissions) (store : after.2 = before.2) :
    Accounted before after [] (after.2.keys.filter fun key => decide (key ∉ before.2.keys)) := by
  rw [store, filter_new_self]
  refine ⟨by rw [submissions, List.append_nil], rfl, List.nodup_nil, by simp, ?_⟩
  intro key hkey
  rw [store]
  exact hkey

theorem accounted_foreign (l : TaskLifecycleV2) (m : MemoryKeys) (row : ReplayRow) :
    Accounted (l, m) (l, (memoryCheckAndStore maxEntries row m).2) [] [] := by
  refine ⟨(List.append_nil _).symm, rfl, List.nodup_nil, by simp, ?_⟩
  intro key hkey
  rcases memoryCheckAndStore_cases row m with h | ⟨-, -, hkeys⟩
  · rw [h]
    exact hkey
  · rw [hkeys]
    exact List.mem_cons_of_mem _ hkey

variable (signatureVerifies maxEntries)

theorem accounted_submitVerified (c : SubmitCall MemoryKeys) (l : TaskLifecycleV2)
    (m : MemoryKeys) :
    Accounted (l, m) (submitVerified signatureVerifies (onMemory maxEntries c) l m).2
      (match (submitVerified signatureVerifies (onMemory maxEntries c) l m).1 with
        | .ok _ => [c.response]
        | .error _ => [])
      ((submitVerified signatureVerifies (onMemory maxEntries c) l m).2.2.keys.filter
        fun key => decide (key ∉ m.keys)) := by
  rcases submitVerified_cases c l m with ⟨e, h⟩ | ⟨fresh, m', h, new, hkeys⟩
  · rw [h]
    exact accounted_of_eq rfl rfl
  · rw [h]
    dsimp only
    rw [hkeys, filter_new_cons new]
    refine ⟨rfl, rfl, List.nodup_singleton _, ?_, ?_⟩
    · simpa using new
    · intro key hkey
      change key ∈ m'.keys
      rw [hkeys]
      exact hkey

theorem sealSubmissions_submissions (now : Int) (l : TaskLifecycleV2) :
    (sealSubmissions now l).2.submissions = l.submissions := by
  unfold sealSubmissions
  split_ifs <;> rfl

theorem reveal_submissions (now : Int) (l : TaskLifecycleV2) :
    (reveal now l).2.submissions = l.submissions := by
  unfold reveal
  split_ifs <;> rfl

/-- One step accounts for what it stores and consumes. -/
theorem accounted_step (s : TaskLifecycleV2 × MemoryKeys) (c : SharedCall) :
    Accounted s (sharedStep signatureVerifies maxEntries s c).2
      (storedIn (event (sharedStep signatureVerifies maxEntries) s c))
      (consumedIn (event (sharedStep signatureVerifies maxEntries) s c)) := by
  obtain ⟨l, m⟩ := s
  cases c with
  | foreign row => exact accounted_foreign l m row
  | lifecycle c =>
    cases c with
    | submitVerified c =>
      have haccounted : Accounted (l, m) _ _ _ :=
        accounted_submitVerified signatureVerifies maxEntries c l m
      unfold storedIn consumedIn event sharedStep step routed
      dsimp only
      generalize submitVerified signatureVerifies (onMemory maxEntries c) l m = out at haccounted
      obtain ⟨outcome, after⟩ := out
      cases outcome <;> exact haccounted
    | sealSubmissions now => exact accounted_of_eq (sealSubmissions_submissions now l) rfl
    | reveal now => exact accounted_of_eq (reveal_submissions now l) rfl
    | sealedBundles => exact accounted_of_eq rfl rfl

/-- What a run has stored and consumed so far. -/
theorem accounted_trans {s t u : TaskLifecycleV2 × MemoryKeys}
    {stored stored' : List SignedOptimizationResponse} {consumed consumed' : List ReplayKey}
    (past : Accounted s t stored consumed) (last : Accounted t u stored' consumed') :
    Accounted s u (stored ++ stored') (consumed ++ consumed') := by
  refine ⟨?_, ?_, ?_, ?_, ?_⟩
  · rw [last.submissions, past.submissions, List.append_assoc]
  · rw [past.keys, last.keys, List.map_append]
  · refine List.nodup_append.mpr ⟨past.distinct, last.distinct, ?_⟩
    rintro key hkey _ hkey' rfl
    exact last.fresh key hkey' (past.kept key (List.mem_append_left _ hkey))
  · intro key hkey hbefore
    rcases List.mem_append.mp hkey with hkey | hkey
    · exact past.fresh key hkey hbefore
    · exact last.fresh key hkey (past.kept key (List.mem_append_right _ hbefore))
  · intro key hkey
    apply last.kept
    rw [List.append_assoc] at hkey
    rcases List.mem_append.mp hkey with hkey | hkey
    · exact List.mem_append_right _ (past.kept key (List.mem_append_left _ hkey))
    · rcases List.mem_append.mp hkey with hkey | hkey
      · exact List.mem_append_left _ hkey
      · exact List.mem_append_right _ (past.kept key (List.mem_append_right _ hkey))

theorem accounted_run (s : TaskLifecycleV2 × MemoryKeys) (calls : List SharedCall) :
    Accounted s (stateAfter (sharedStep signatureVerifies maxEntries) s calls)
      (storedBy (trace (sharedStep signatureVerifies maxEntries) s calls))
      (consumedBy (trace (sharedStep signatureVerifies maxEntries) s calls)) := by
  refine history_invariant (sharedStep signatureVerifies maxEntries)
    (fun past t => Accounted s t (storedBy past) (consumedBy past)) ?_ ?_ calls
  · constructor <;> simp [storedBy, consumedBy]
  · intro past t c inv
    have hstep := accounted_trans inv (accounted_step signatureVerifies maxEntries t c)
    simpa [storedBy, consumedBy] using hstep

end Run

/-- A submission that raises leaves lifecycle and store exactly as they were,
and one that returns adds its response to the one and its absent key to the
other. Over every run with other users of the store, the responses stored and
the keys consumed correspond one to one. -/
theorem submitVerified_atomic :
    (∀ c l m, match submitVerified signatureVerifies (onMemory maxEntries c) l m with
      | (.error _, l', m') => l' = l ∧ m' = m
      | (.ok _, l', m') => l'.phase = l.phase ∧ l'.task = l.task ∧
          l'.submissions = l.submissions ++ [c.response] ∧
          responseKey c.response ∉ m.keys ∧ m'.keys = responseKey c.response :: m.keys) ∧
    ∀ s calls, Accounted s (stateAfter (sharedStep signatureVerifies maxEntries) s calls)
      (storedBy (trace (sharedStep signatureVerifies maxEntries) s calls))
      (consumedBy (trace (sharedStep signatureVerifies maxEntries) s calls)) := by
  constructor
  · intro c l m
    rcases submitVerified_cases c l m with ⟨e, h⟩ | ⟨fresh, m', h, new, hkeys⟩
    · rw [h]
      exact ⟨rfl, rfl⟩
    · rw [h]
      exact ⟨rfl, rfl, rfl, new, hkeys⟩
  · exact accounted_run signatureVerifies maxEntries

end SubmissionAtomicity
