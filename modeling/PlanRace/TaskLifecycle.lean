import PlanRace.AuthV2
import PlanRace.TaskgenV2

/-!
# The commit, seal and reveal lifecycle of a task

`TaskLifecycleV2` with its three phases and four operations, for arbitrary
clock arguments. Each submission brings its own replay store, an operation on
a world the lifecycle does not look into. `Transition` says once what a call
can do, and every result below is read off it.
-/

namespace TaskLifecycle

open CanonicalJson WireText IndexAst TaskModels TaskgenV2 AuthV2 Runs

inductive TaskPhase where
  | opened
  | sealed
  | revealed
deriving DecidableEq

/-- `_submissions` is a dict from request id to response, in insertion order. -/
structure TaskLifecycleV2 where
  task : PrivateTaskV2
  phase : TaskPhase
  submissions : List SignedOptimizationResponse
  distinct : (submissions.map SignedOptimizationResponse.requestId).Nodup

namespace TaskLifecycleV2

/-- `TaskLifecycleV2(task)`. -/
def init (task : PrivateTaskV2) : TaskLifecycleV2 := ⟨task, .opened, [], List.nodup_nil⟩

def requestIds (l : TaskLifecycleV2) : List OpaqueId :=
  l.submissions.map SignedOptimizationResponse.requestId

def deadline (l : TaskLifecycleV2) : Int := l.task.publicTask.deadlineUnixMs

def enter (l : TaskLifecycleV2) (phase : TaskPhase) : TaskLifecycleV2 := { l with phase := phase }

/-- `self._submissions[response.request_id] = response`, for an id not in the dict. -/
def store (l : TaskLifecycleV2) (response : SignedOptimizationResponse)
    (fresh : response.requestId ∉ l.requestIds) : TaskLifecycleV2 :=
  { l with
    submissions := l.submissions ++ [response]
    distinct := by
      rw [List.map_append, List.map_singleton, ← List.concat_eq_append, List.nodup_concat]
      exact ⟨fresh, l.distinct⟩ }

@[simp] theorem enter_submissions (l : TaskLifecycleV2) (phase : TaskPhase) :
    (l.enter phase).submissions = l.submissions := rfl

@[simp] theorem enter_phase (l : TaskLifecycleV2) (phase : TaskPhase) :
    (l.enter phase).phase = phase := rfl

@[simp] theorem enter_task (l : TaskLifecycleV2) (phase : TaskPhase) :
    (l.enter phase).task = l.task := rfl

@[simp] theorem store_submissions (l : TaskLifecycleV2) (response : SignedOptimizationResponse)
    (fresh : response.requestId ∉ l.requestIds) :
    (l.store response fresh).submissions = l.submissions ++ [response] := rfl

@[simp] theorem store_phase (l : TaskLifecycleV2) (response : SignedOptimizationResponse)
    (fresh : response.requestId ∉ l.requestIds) : (l.store response fresh).phase = l.phase := rfl

@[simp] theorem store_task (l : TaskLifecycleV2) (response : SignedOptimizationResponse)
    (fresh : response.requestId ∉ l.requestIds) : (l.store response fresh).task = l.task := rfl

end TaskLifecycleV2

inductive LifecycleError where
  | submissionsSealed
  | submissionAfterDeadline
  | requestNotForLifecycleTask
  | wrongTask
  | duplicateRequest
  | verification (error : VerificationError)
  | sealBeforeDeadline
  | alreadyRevealed
  | revealBeforeDeadline
  | submissionsNotSealed
deriving DecidableEq

/-- The code of a `LifecycleError`; other exceptions pass through. -/
def LifecycleError.text : LifecycleError → Option JsonText.Text
  | submissionsSealed => some "submissions_sealed".toList
  | submissionAfterDeadline => some "submission_after_deadline".toList
  | requestNotForLifecycleTask => some "request_not_for_lifecycle_task".toList
  | wrongTask => some "wrong_task".toList
  | duplicateRequest => some "duplicate_request".toList
  | verification _ => none
  | sealBeforeDeadline => some "seal_before_deadline".toList
  | alreadyRevealed => some "already_revealed".toList
  | revealBeforeDeadline => some "reveal_before_deadline".toList
  | submissionsNotSealed => some "submissions_not_sealed".toList

section Operations

variable {σ : Type} (signatureVerifies : SignatureCheck)

/-- The arguments of `submit_verified`. -/
structure SubmitCall (σ : Type) where
  response : SignedOptimizationResponse
  request : OptimizationRequestV2
  expectedMinerUid : Int
  metagraphHotkeys : Int → Option JsonText.Text
  replayStore : ReplayStore σ
  nowUnixMs : Int

/-- The call of `verify_signed_response`, with its default clock skew. -/
def SubmitCall.verification (c : SubmitCall σ) : Verification where
  request := c.request
  expectedMinerUid := c.expectedMinerUid
  metagraphHotkeys := c.metagraphHotkeys
  nowUnixMs := c.nowUnixMs

def submitVerified (c : SubmitCall σ) (l : TaskLifecycleV2) (world : σ) :
    Except LifecycleError Unit × TaskLifecycleV2 × σ :=
  if l.phase ≠ .opened then (.error .submissionsSealed, l, world)
  else if c.nowUnixMs ≥ l.deadline then (.error .submissionAfterDeadline, l, world)
  else if c.request.task ≠ l.task.publicTask then (.error .requestNotForLifecycleTask, l, world)
  else if c.response.taskId ≠ l.task.publicTask.taskId then (.error .wrongTask, l, world)
  else if fresh : c.response.requestId ∈ l.requestIds then (.error .duplicateRequest, l, world)
  else
    match verifySignedResponse signatureVerifies c.replayStore c.response c.verification world with
    | (.error e, world') => (.error (.verification e), l, world')
    | (.ok _, world') => (.ok (), l.store c.response fresh, world')

/-- `seal`. -/
def sealSubmissions (nowUnixMs : Int) (l : TaskLifecycleV2) :
    Except LifecycleError (List SignedOptimizationResponse) × TaskLifecycleV2 :=
  if nowUnixMs < l.deadline then (.error .sealBeforeDeadline, l)
  else if l.phase = .revealed then (.error .alreadyRevealed, l)
  else (.ok l.submissions, l.enter .sealed)

def reveal (nowUnixMs : Int) (l : TaskLifecycleV2) :
    Except LifecycleError TaskRevealV2 × TaskLifecycleV2 :=
  if nowUnixMs < l.deadline then (.error .revealBeforeDeadline, l)
  else if l.phase = .opened then (.error .submissionsNotSealed, l)
  else (.ok l.task.reveal, l.enter .revealed)

def sealedBundles (l : TaskLifecycleV2) : Except LifecycleError (List OptimizationBundle) :=
  if l.phase = .opened then .error .submissionsNotSealed
  else .ok (l.submissions.map SignedOptimizationResponse.artifact)

inductive Call (σ : Type) where
  | submitVerified (c : SubmitCall σ)
  | sealSubmissions (nowUnixMs : Int)
  | reveal (nowUnixMs : Int)
  | sealedBundles

inductive Answer where
  | stored
  | responses (all : List SignedOptimizationResponse)
  | secret (reveal : TaskRevealV2)
  | bundles (all : List OptimizationBundle)

abbrev Outcome := Except LifecycleError Answer

/-- One call on the lifecycle and the world of the replay stores. -/
def step (s : TaskLifecycleV2 × σ) : Call σ → Outcome × TaskLifecycleV2 × σ
  | .submitVerified c =>
    let (outcome, after) := submitVerified signatureVerifies c s.1 s.2
    (outcome.map fun _ => .stored, after)
  | .sealSubmissions now =>
    let (outcome, l) := sealSubmissions now s.1
    (outcome.map .responses, l, s.2)
  | .reveal now =>
    let (outcome, l) := reveal now s.1
    (outcome.map .secret, l, s.2)
  | .sealedBundles => ((sealedBundles s.1).map .bundles, s)

abbrev LifecycleEvent (σ : Type) := Event (TaskLifecycleV2 × σ) (Call σ) Outcome

/-- What a call can do to the lifecycle. -/
inductive Transition : TaskLifecycleV2 × σ → Call σ → Outcome → TaskLifecycleV2 × σ → Prop where
  | refuse {l w w' c e} : Transition (l, w) c (.error e) (l, w')
  | store {l w w' c bundle} (fresh : c.response.requestId ∉ l.requestIds)
      (open_ : l.phase = .opened) (early : c.nowUnixMs < l.deadline)
      (own : c.request.task = l.task.publicTask)
      (verified : (verifySignedResponse signatureVerifies c.replayStore c.response
        c.verification w).1 = .ok bundle) :
      Transition (l, w) (.submitVerified c) (.ok .stored) (l.store c.response fresh, w')
  | close {l w now} (due : l.deadline ≤ now) (secret : l.phase ≠ .revealed) :
      Transition (l, w) (.sealSubmissions now) (.ok (.responses l.submissions)) (l.enter .sealed, w)
  | disclose {l w now} (due : l.deadline ≤ now) (closed : l.phase ≠ .opened) :
      Transition (l, w) (.reveal now) (.ok (.secret l.task.reveal)) (l.enter .revealed, w)
  | list {l w} (closed : l.phase ≠ .opened) :
      Transition (l, w) .sealedBundles
        (.ok (.bundles (l.submissions.map SignedOptimizationResponse.artifact))) (l, w)

theorem step_transition (s : TaskLifecycleV2 × σ) (c : Call σ) :
    Transition signatureVerifies s c (step signatureVerifies s c).1
      (step signatureVerifies s c).2 := by
  obtain ⟨l, w⟩ := s
  cases c with
  | submitVerified c =>
    unfold step submitVerified
    dsimp only
    split_ifs with hopen hdeadline hown htask hfresh
    · exact .refuse
    · exact .refuse
    · exact .refuse
    · exact .refuse
    · exact .refuse
    · rcases hverify : verifySignedResponse signatureVerifies c.replayStore c.response
        c.verification w with ⟨outcome, w'⟩
      cases outcome with
      | error e => exact .refuse
      | ok bundle =>
        exact .store hfresh (not_ne_iff.mp hopen) (Int.not_le.mp hdeadline) (not_ne_iff.mp hown)
          (by rw [hverify])
  | sealSubmissions now =>
    unfold step sealSubmissions
    dsimp only
    split_ifs with hdue hsecret
    · exact .refuse
    · exact .refuse
    · exact .close (Int.not_lt.mp hdue) hsecret
  | reveal now =>
    unfold step reveal
    dsimp only
    split_ifs with hdue hclosed
    · exact .refuse
    · exact .refuse
    · exact .disclose (Int.not_lt.mp hdue) hclosed
  | sealedBundles =>
    unfold step sealedBundles
    dsimp only
    split_ifs with hclosed
    · exact .refuse
    · exact .list hclosed

end Operations

section Safety

variable {σ : Type} (signatureVerifies : SignatureCheck)

/-- The event is a successful `seal` that returned these responses. -/
def Sealed (e : LifecycleEvent σ) (responses : List SignedOptimizationResponse) : Prop :=
  ∃ now, e.input = .sealSubmissions now ∧ e.answer = .ok (.responses responses)

def Revealed (e : LifecycleEvent σ) : Prop :=
  ∃ now secret, e.input = .reveal now ∧ e.answer = .ok (.secret secret)

/-- The event stored this response: it was verified for this task before the deadline. -/
def VerifiedAt (task : PrivateTaskV2) (e : LifecycleEvent σ)
    (response : SignedOptimizationResponse) : Prop :=
  ∃ c, e.input = .submitVerified c ∧ e.answer = .ok .stored ∧ c.response = response ∧
    c.request.task = task.publicTask ∧ c.nowUnixMs < task.publicTask.deadlineUnixMs ∧
    ∃ bundle, (verifySignedResponse signatureVerifies c.replayStore c.response c.verification
      e.before.2).1 = .ok bundle

/-- The lifecycle after a history of calls on a task. -/
structure Follows (task : PrivateTaskV2) (past : List (LifecycleEvent σ))
    (s : TaskLifecycleV2 × σ) : Prop where
  own : s.1.task = task
  closed : s.1.phase ≠ .opened → ∃ f ∈ past, ∃ responses, Sealed f responses
  frozen : ∀ f ∈ past, ∀ responses, Sealed f responses →
    s.1.phase ≠ .opened ∧ s.1.submissions = responses
  final : (∃ f ∈ past, Revealed f) → s.1.phase = .revealed
  verified : ∀ r ∈ s.1.submissions, ∃ f ∈ past, VerifiedAt signatureVerifies task f r

variable {signatureVerifies}

theorem follows_init (task : PrivateTaskV2) (w : σ) :
    Follows signatureVerifies task [] (.init task, w) where
  own := rfl
  closed := by simp [TaskLifecycleV2.init]
  frozen := by simp
  final := by simp
  verified := by simp [TaskLifecycleV2.init]

theorem exists_mem_concat {P : LifecycleEvent σ → Prop} {past : List (LifecycleEvent σ)}
    {e : LifecycleEvent σ} : (∃ f ∈ past ++ [e], P f) ↔ (∃ f ∈ past, P f) ∨ P e := by
  simp [or_and_right, exists_or]

/-- What has to be shown of the last event. -/
theorem follows_concat {task : PrivateTaskV2} {past : List (LifecycleEvent σ)}
    {e : LifecycleEvent σ} (own : e.after.1.task = task)
    (closed : e.after.1.phase ≠ .opened →
      (∃ f ∈ past, ∃ responses, Sealed f responses) ∨ ∃ responses, Sealed e responses)
    (frozen : ∀ f ∈ past, ∀ responses, Sealed f responses →
      e.after.1.phase ≠ .opened ∧ e.after.1.submissions = responses)
    (frozenNow : ∀ responses, Sealed e responses →
      e.after.1.phase ≠ .opened ∧ e.after.1.submissions = responses)
    (final : (∃ f ∈ past, Revealed f) ∨ Revealed e → e.after.1.phase = .revealed)
    (verified : ∀ r ∈ e.after.1.submissions,
      (∃ f ∈ past, VerifiedAt signatureVerifies task f r) ∨ VerifiedAt signatureVerifies task e r) :
    Follows signatureVerifies task (past ++ [e]) e.after where
  own := own
  closed h := exists_mem_concat.mpr (closed h)
  frozen := by
    intro f hf responses hsealed
    rcases List.mem_append.mp hf with hf | hf
    · exact frozen f hf responses hsealed
    · rw [List.mem_singleton.mp hf] at hsealed
      exact frozenNow responses hsealed
  final h := final (exists_mem_concat.mp h)
  verified r hr := exists_mem_concat.mpr (verified r hr)

theorem follows_transition {task : PrivateTaskV2} {past : List (LifecycleEvent σ)}
    {s s' : TaskLifecycleV2 × σ} {c : Call σ} {a : Outcome}
    (htrans : Transition signatureVerifies s c a s') (inv : Follows signatureVerifies task past s) :
    Follows signatureVerifies task (past ++ [⟨s, c, a, s'⟩]) s' := by
  cases htrans with
  | refuse =>
    refine follows_concat inv.own (fun h => .inl (inv.closed h)) inv.frozen
      (by simp [Sealed]) (by simpa [Revealed] using inv.final) fun r hr => .inl (inv.verified r hr)
  | store fresh open_ early own verified =>
    refine follows_concat inv.own (fun h => absurd open_ h) ?_ (by simp [Sealed])
      (by simpa [Revealed] using inv.final) ?_
    · intro f hf responses hsealed
      exact absurd open_ (inv.frozen f hf responses hsealed).1
    · intro r hr
      rcases List.mem_append.mp hr with hr | hr
      · exact .inl (inv.verified r hr)
      · refine .inr ⟨_, rfl, rfl, (List.mem_singleton.mp hr).symm, ?_, ?_, _, verified⟩
        · rw [own, ← inv.own]
        · rw [← inv.own]
          exact early
  | close due secret =>
    refine follows_concat inv.own (fun _ => .inr ⟨_, _, rfl, rfl⟩) ?_
      (by simp [Sealed]) ?_ fun r hr => .inl (inv.verified r hr)
    · intro f hf responses hsealed
      exact ⟨by simp, (inv.frozen f hf responses hsealed).2⟩
    · rintro (h | ⟨_, _, h, _⟩)
      · exact absurd (inv.final h) secret
      · cases h
  | disclose due closed =>
    refine follows_concat inv.own (fun _ => .inl (inv.closed closed)) ?_
      (by simp [Sealed]) (fun _ => rfl) fun r hr => .inl (inv.verified r hr)
    intro f hf responses hsealed
    exact ⟨by simp, (inv.frozen f hf responses hsealed).2⟩
  | list closed =>
    exact follows_concat inv.own (fun h => .inl (inv.closed h)) inv.frozen
      (by simp [Sealed]) (by simpa [Revealed] using inv.final) fun r hr => .inl (inv.verified r hr)

theorem follows_step {task : PrivateTaskV2} (past : List (LifecycleEvent σ))
    (s : TaskLifecycleV2 × σ) (c : Call σ) (inv : Follows signatureVerifies task past s) :
    Follows signatureVerifies task (past ++ [event (step signatureVerifies) s c])
      (step signatureVerifies s c).2 :=
  follows_transition (step_transition signatureVerifies s c) inv

/-- The safety of one event of a run on a task, given the events before it. -/
structure CommitSealReveal (signatureVerifies : SignatureCheck) (task : PrivateTaskV2)
    (past : List (LifecycleEvent σ)) (e : LifecycleEvent σ) : Prop where
  /-- The secret is returned only after a successful seal. -/
  revealAfterSeal : ∀ secret, e.answer = .ok (.secret secret) →
    secret = task.reveal ∧ ∃ f ∈ past, ∃ responses, Sealed f responses
  /-- After a seal the stored responses are those the seal returned. -/
  sealedOnce : ∀ f ∈ past, ∀ responses, Sealed f responses →
    e.before.1.submissions = responses ∧ e.after.1.submissions = responses ∧
      (∀ all, e.answer = .ok (.responses all) → all = responses) ∧
      ∀ all, e.answer = .ok (.bundles all) →
        all = responses.map SignedOptimizationResponse.artifact
  /-- After a reveal no seal succeeds. -/
  noSealAfterReveal : (∃ f ∈ past, Revealed f) → ∀ responses, ¬ Sealed e responses
  /-- Every stored response was verified for this task before the deadline. -/
  onlyVerified : ∀ r ∈ e.after.1.submissions,
    ∃ f ∈ past ++ [e], VerifiedAt signatureVerifies task f r
  distinctRequests : (e.after.1.submissions.map SignedOptimizationResponse.requestId).Nodup
  /-- A call that raises changes neither phase nor submissions. -/
  errorFrame : ∀ error, e.answer = .error error →
    e.after.1.phase = e.before.1.phase ∧ e.after.1.submissions = e.before.1.submissions

theorem transition_secret {s s' : TaskLifecycleV2 × σ} {c : Call σ} {a : Outcome}
    (htrans : Transition signatureVerifies s c a s') {secret : TaskRevealV2}
    (h : a = .ok (.secret secret)) : secret = s.1.task.reveal ∧ s.1.phase ≠ .opened := by
  cases htrans <;> cases h
  rename_i _ closed
  exact ⟨rfl, closed⟩

theorem transition_sealed {s s' : TaskLifecycleV2 × σ} {c : Call σ} {a : Outcome}
    (htrans : Transition signatureVerifies s c a s') {all : List SignedOptimizationResponse}
    (h : a = .ok (.responses all)) : s.1.phase ≠ .revealed := by
  cases htrans <;> cases h
  assumption

theorem transition_listed {s s' : TaskLifecycleV2 × σ} {c : Call σ} {a : Outcome}
    (htrans : Transition signatureVerifies s c a s') :
    (∀ all, a = .ok (.responses all) → all = s.1.submissions) ∧
      ∀ all, a = .ok (.bundles all) →
        all = s.1.submissions.map SignedOptimizationResponse.artifact := by
  cases htrans <;> constructor <;> intro all h <;> cases h <;> rfl

theorem transition_error {s s' : TaskLifecycleV2 × σ} {c : Call σ} {a : Outcome}
    (htrans : Transition signatureVerifies s c a s') {error : LifecycleError}
    (h : a = .error error) : s'.1 = s.1 := by
  cases htrans <;> cases h
  rfl

/-- Commit, seal and reveal are safe in every run of calls on one lifecycle. -/
theorem taskLifecycle_safe (signatureVerifies : SignatureCheck) (task : PrivateTaskV2) (w : σ)
    (calls : List (Call σ)) :
    EachEvent (CommitSealReveal signatureVerifies task)
      (trace (step signatureVerifies) (.init task, w) calls) := by
  refine eachEvent_of_invariant (step signatureVerifies) (Follows signatureVerifies task)
    (CommitSealReveal signatureVerifies task) (follows_init task w) follows_step ?_ calls
  intro past s c inv
  have htrans := step_transition signatureVerifies s c
  have next := follows_step past s c inv
  refine ⟨?_, ?_, ?_, next.verified, (step signatureVerifies s c).2.1.distinct, ?_⟩
  · intro secret hsecret
    obtain ⟨hreveal, hclosed⟩ := transition_secret htrans hsecret
    exact ⟨by rw [hreveal, inv.own], inv.closed hclosed⟩
  · intro f hf responses hsealed
    have hbefore := (inv.frozen f hf responses hsealed).2
    have hafter := (next.frozen f (List.mem_append_left _ hf) responses hsealed).2
    obtain ⟨hresponses, hbundles⟩ := transition_listed htrans
    exact ⟨hbefore, hafter, fun all h => by rw [hresponses all h, hbefore],
      fun all h => by rw [hbundles all h, hbefore]⟩
  · rintro ⟨f, hf, hrevealed⟩ responses hsealed
    obtain ⟨_, _, hanswer⟩ := hsealed
    exact transition_sealed htrans hanswer (inv.final ⟨f, hf, hrevealed⟩)
  · intro error herror
    have hsame := transition_error htrans herror
    change (step signatureVerifies s c).2.1.phase = s.1.phase ∧
      (step signatureVerifies s c).2.1.submissions = s.1.submissions
    rw [hsame]
    exact ⟨rfl, rfl⟩

end Safety

end TaskLifecycle
