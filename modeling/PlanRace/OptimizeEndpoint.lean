import PlanRace.ApiV2
import PlanRace.AuthAgreement
import PlanRace.RequestAuth
import PlanRace.SandboxV2

/-!
# The endpoint of the miner service

`POST /v2/optimize` around the execution of the strategy: the checks of the
request in front of it, and the checks of the artifact and the signature behind
it. The clock is read once on each side.
-/

namespace OptimizeEndpoint

open JsonText ByteStrings PythonObjects CanonicalJson WireText IndexAst TaskModels AuthV2 RequestAuth ApiV2
  Fallible

def maxV2RequestBytes : Int := 256 * 1024

def maxRequestLifetimeMs : Int := 120000

/-- What `create_miner_app_v2` closes over, up to the strategy and its slots. -/
structure MinerService (σ : Type) where
  signer : ResponseSigner
  /-- `bt.http_auth.verify`. -/
  verify : HttpAuth σ
  authorizeHotkey : Text → Except Raised Bool
  /-- `OptimizationRequestV2.model_validate_json`, none where it raises. -/
  readRequest : Bytes → Option OptimizationRequestV2

section Optimize

variable {σ : Type} (service : MinerService σ)

def authenticate (nonceStore : NonceCheck σ) (request : HttpRequest) (s : σ) :
    Except RequestFault AuthenticatedRequest × σ :=
  authenticateRequest service.verify nonceStore service.signer.ss58Address maxV2RequestBytes
    (some service.authorizeHotkey) request s

/-- The checks of an authenticated request. -/
def admission (authenticated : AuthenticatedRequest) (now : Int) :
    Except RequestFault OptimizationRequestV2 :=
  match service.readRequest authenticated.rawBody with
  | none => .error (.http 422 "task_validation_failed".toList)
  | some request => do
    require (authenticated.caller = request.validatorHotkey.val)
      (.http 403 "validator_identity_mismatch".toList)
    require (request.minerHotkey.val = service.signer.ss58Address) (.http 403 "wrong_receiver".toList)
    require ((request.issuedAtUnixMs : Int) ≤ now + 5000) (.http 422 "request_from_future".toList)
    require (now < request.expiresAtUnixMs) (.http 408 "request_expired".toList)
    require ((request.expiresAtUnixMs : Int) - request.issuedAtUnixMs ≤ maxRequestLifetimeMs)
      (.http 422 "request_lifetime_too_long".toList)
    require (now < request.task.deadlineUnixMs) (.http 408 "task_deadline_elapsed".toList)
    return request

/-- The deadline that `execute_strategy` is given. -/
def executionDeadline (request : OptimizationRequestV2) : Nat :=
  min request.expiresAtUnixMs request.task.deadlineUnixMs

/-- The checks of what the strategy came to, and the signature. -/
def completion (request : OptimizationRequestV2) (reply : Reply OptimizationBundle)
    (completedAt : Int) : Except RequestFault SignedOptimizationResponse :=
  match reply with
  | .httpError status code => .error (.http status code)
  | .cancelledError => .error (.raised (.other "CancelledError".toList))
  | .raised => .error (.raised (.other "Exception".toList))
  | .artifact artifact => do
    require (completedAt < request.expiresAtUnixMs)
      (.http 408 "request_expired_after_strategy".toList)
    require (completedAt < request.task.deadlineUnixMs)
      (.http 408 "task_deadline_elapsed_after_strategy".toList)
    require (artifact.taskId = request.task.taskId) (.http 500 "strategy_wrong_task".toList)
    require (artifact.engineImageDigest = request.task.engineImageDigest)
      (.http 500 "strategy_wrong_engine".toList)
    require (SandboxV2.artifactBytes artifact ≤ request.task.artifactBudget.maxBundleBytes)
      (.http 500 "strategy_bundle_too_large".toList)
    (signOptimizationResponse request artifact service.signer completedAt
      request.expiresAtUnixMs).mapError fun error => .raised (.valueError error.text)

/-- `optimize`, whose strategy answers for the task and its deadline. -/
def optimize (nonceStore : NonceCheck σ) (request : HttpRequest) (now : Int)
    (execute : PublicTaskV2 → Nat → Reply OptimizationBundle) (completedAt : Int) (s : σ) :
    Except RequestFault SignedOptimizationResponse × σ :=
  match authenticate service nonceStore request s with
  | (.error fault, s') => (.error fault, s')
  | (.ok authenticated, s') =>
    (do
      let model ← admission service authenticated now
      completion service model (execute model.task (executionDeadline model)) completedAt, s')

variable {service}

/-- What a request is that the miner works on. -/
structure Admitted (service : MinerService σ) (authenticated : AuthenticatedRequest) (now : Int)
    (request : OptimizationRequestV2) : Prop where
  body : service.readRequest authenticated.rawBody = some request
  caller : authenticated.caller = request.validatorHotkey.val
  receiver : request.minerHotkey.val = service.signer.ss58Address
  begun : (request.issuedAtUnixMs : Int) ≤ now + 5000
  alive : now < request.expiresAtUnixMs
  brief : (request.expiresAtUnixMs : Int) - request.issuedAtUnixMs ≤ maxRequestLifetimeMs
  due : now < request.task.deadlineUnixMs

theorem admission_ok_iff {authenticated : AuthenticatedRequest} {now : Int}
    {request : OptimizationRequestV2} :
    admission service authenticated now = .ok request ↔ Admitted service authenticated now request := by
  unfold admission
  cases hbody : service.readRequest authenticated.rawBody with
  | none =>
    constructor
    · intro h
      cases h
    · intro h
      have body := h.body
      rw [hbody] at body
      cases body
  | some model =>
    dsimp only
    simp only [bind_ok_iff, require_ok_iff]
    constructor
    · rintro ⟨-, caller, -, receiver, -, begun, -, alive, -, brief, -, due, h⟩
      obtain rfl := Except.ok.inj h
      exact ⟨hbody, caller, receiver, begun, alive, brief, due⟩
    · intro h
      obtain rfl := Option.some.inj (hbody.symm.trans h.body)
      exact ⟨⟨⟩, h.caller, ⟨⟩, h.receiver, ⟨⟩, h.begun, ⟨⟩, h.alive, ⟨⟩, h.brief, ⟨⟩, h.due, rfl⟩

/-- What an artifact is that the miner signs. -/
structure Completed (request : OptimizationRequestV2) (artifact : OptimizationBundle)
    (completedAt : Int) : Prop where
  unexpired : completedAt < request.expiresAtUnixMs
  due : completedAt < request.task.deadlineUnixMs
  task : artifact.taskId = request.task.taskId
  engine : artifact.engineImageDigest = request.task.engineImageDigest
  small : SandboxV2.artifactBytes artifact ≤ request.task.artifactBudget.maxBundleBytes

theorem completion_ok_iff {request : OptimizationRequestV2} {reply : Reply OptimizationBundle}
    {completedAt : Int} {response : SignedOptimizationResponse} :
    completion service request reply completedAt = .ok response ↔
      ∃ artifact, reply = .artifact artifact ∧ Completed request artifact completedAt ∧
        signOptimizationResponse request artifact service.signer completedAt
          request.expiresAtUnixMs = .ok response := by
  unfold completion
  cases reply with
  | httpError status code => simp
  | cancelledError => simp
  | raised => simp
  | artifact artifact =>
    dsimp only
    simp only [bind_ok_iff, require_ok_iff, mapError_ok_iff]
    constructor
    · rintro ⟨-, unexpired, -, due, -, task, -, engine, -, small, signed⟩
      exact ⟨artifact, rfl, ⟨unexpired, due, task, engine, small⟩, signed⟩
    · rintro ⟨other, same, ⟨unexpired, due, task, engine, small⟩, signed⟩
      obtain rfl := Reply.artifact.inj same
      exact ⟨⟨⟩, unexpired, ⟨⟩, due, ⟨⟩, task, ⟨⟩, engine, ⟨⟩, small, signed⟩

/-- The signer signs what the endpoint completed unless the request lies ahead
of the miner's clock. -/
theorem exists_signed_iff {request : OptimizationRequestV2} {artifact : OptimizationBundle}
    {signer : ResponseSigner} {completedAt : Int} (completed : Completed request artifact completedAt)
    (address : request.minerHotkey.val = signer.ss58Address)
    (sized : ∀ message, (signer.sign message).length = 64) :
    (∃ response, signOptimizationResponse request artifact signer completedAt
      request.expiresAtUnixMs = .ok response) ↔ request.issuedAtUnixMs ≤ completedAt := by
  constructor
  · rintro ⟨response, signed⟩
    exact (signOptimizationResponse_ok signed).2.1
  · intro started
    have positive := request.timesPositive.1
    have unexpired := completed.unexpired
    unfold signOptimizationResponse
    rw [if_neg (not_not.mpr address.symm), dif_pos completed.task.symm,
      if_neg (not_not.mpr completed.engine), if_neg (Int.not_lt.mpr started), if_neg (lt_irrefl _),
      dif_pos ⟨⟨by omega, by omega⟩, by omega⟩]
    dsimp only
    rw [dif_pos (sized _)]
    exact ⟨_, rfl⟩

theorem optimize_ok_iff {nonceStore : NonceCheck σ} {request : HttpRequest} {now completedAt : Int}
    {execute : PublicTaskV2 → Nat → Reply OptimizationBundle} {s : σ}
    {response : SignedOptimizationResponse} :
    (optimize service nonceStore request now execute completedAt s).1 = .ok response ↔
      ∃ authenticated s' model, authenticate service nonceStore request s = (.ok authenticated, s') ∧
        Admitted service authenticated now model ∧
        completion service model (execute model.task (executionDeadline model)) completedAt =
          .ok response := by
  unfold optimize
  rcases authenticate service nonceStore request s with ⟨fault | authenticated, s'⟩
  · simp
  · dsimp only
    simp only [bind_ok_iff, admission_ok_iff]
    constructor
    · rintro ⟨model, admitted, completed⟩
      exact ⟨authenticated, s', model, rfl, admitted, completed⟩
    · rintro ⟨other, _, model, h, admitted, completed⟩
      obtain rfl := Except.ok.inj (Prod.mk.inj h).1
      exact ⟨model, admitted, completed⟩

end Optimize

end OptimizeEndpoint
