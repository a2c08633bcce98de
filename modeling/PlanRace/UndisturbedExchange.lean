import PlanRace.OptimizeEndpoint
import PlanRace.SignerVerifier
import PlanRace.ValidatorClient

/-!
# The undisturbed exchange

A validator dispatches a request, nothing tampers with it on either way, and
the miner answers. Whether the validator ends up with the artifact of the
miner's strategy depends on the clocks of the two, on what the strategy came to
and on sizes, and on nothing else.
-/

namespace UndisturbedExchange

open JsonText ByteStrings PythonObjects BoundedReads CanonicalJson WireText IndexAst TaskModels AuthV2
  SignerVerifier RequestAuth ApiV2 OptimizeEndpoint ResponseHeaders ValidatorClient ReplayProtection

/-- The network hands on what the endpoint answers, in chunks of its own, and the
JSON of a response is read back. -/
inductive Relayed (dumpResponse : SignedOptimizationResponse → Bytes)
    (readResponse : Bytes → Option SignedOptimizationResponse) (maxResponseHeaderBytes : Int) :
    Except RequestFault SignedOptimizationResponse → Sent → Prop
  | answered {response : SignedOptimizationResponse} {headers : List Header} {chunks : List Bytes}
      (text : readResponse (dumpResponse response) = some response)
      (body : chunks.flatten = dumpResponse response)
      (valid : validateResponseHeaders headers maxResponseHeaderBytes true = .ok ⟨⟩)
      (announced : ∀ text, announcedLength headers = some text →
        parseInt text = some ((dumpResponse response).length : Int)) :
      Relayed dumpResponse readResponse maxResponseHeaderBytes (.ok response)
        (.response 200 headers (.streamed chunks .complete))
  | refused {fault : RequestFault} {status : Int} {headers : List Header} {body : Body}
      (failed : status ≠ 200) :
      Relayed dumpResponse readResponse maxResponseHeaderBytes (.error fault) (.response status headers body)

variable {σ τ : Type}

/-- The metagraph lists the miner and the authorization hook allows the
validator, the signature schemes work, and the request arrives as it was signed:
the HTTP authentication names the validator once the nonce store took its nonce. -/
structure Undisturbed (service : MinerService σ) (signatureVerifies : SignatureCheck)
    (dumpRequest : OptimizationRequestV2 → Bytes) (call : DispatchCall) (nonceStore : NonceCheck σ) (http : HttpRequest) (s : σ) : Prop where
  dispatched : Dispatched call
  listed : call.metagraphHotkeys call.expectedMinerUid = some call.request.minerHotkey.val
  miner : call.request.minerHotkey.val = service.signer.ss58Address
  genuine : ∀ message, signatureVerifies call.request.minerHotkey message
    (service.signer.sign message) = true
  sized : ∀ message, (service.signer.sign message).length = 64
  requestText : service.readRequest (dumpRequest call.request) = some call.request
  body : http.chunks.flatten = dumpRequest call.request
  announced : ∀ text, headerValue http "content-length" = some text →
    parseInt text = some ((dumpRequest call.request).length : Int)
  authentic : ∃ path s', rawTarget http = .ok path ∧
    service.verify nonceStore http.headers
      ⟨http.method, path, dumpRequest call.request, service.signer.ss58Address⟩ s =
        (.ok call.request.validatorHotkey.val, s')
  authorized : service.authorizeHotkey call.request.validatorHotkey.val = .ok true

/-- The row under which every response to a request is stored. -/
def requestRow (request : OptimizationRequestV2) : ReplayRow :=
  ⟨⟨request.minerHotkey.val, request.requestNonce, request.requestId.val⟩, request.expiresAtUnixMs⟩

/-- What an exchange has to meet besides. -/
structure Concluded (signer : ResponseSigner) (dumpRequest : OptimizationRequestV2 → Bytes)
    (dumpResponse : SignedOptimizationResponse → Bytes) (call : DispatchCall) (now : Int)
    (reply : Reply OptimizationBundle) (completedAt receivedAt : Int)
    (replayStore : ReplayStore τ) (r : τ) (artifact : OptimizationBundle) : Prop where
  size : ((dumpRequest call.request).length : Int) ≤ maxV2RequestBytes
  begun : (call.request.issuedAtUnixMs : Int) ≤ now + 5000
  alive : now < call.request.expiresAtUnixMs
  brief : (call.request.expiresAtUnixMs : Int) - call.request.issuedAtUnixMs ≤ maxRequestLifetimeMs
  due : now < call.request.task.deadlineUnixMs
  reply : reply = .artifact artifact
  completed : Completed call.request artifact completedAt
  started : call.request.issuedAtUnixMs ≤ completedAt
  fits : ∀ response, signOptimizationResponse call.request artifact signer completedAt
    call.request.expiresAtUnixMs = .ok response →
      ((dumpResponse response).length : Int) ≤ call.maxResponseBytes
  window : completedAt ≤ receivedAt + 5000 ∧ receivedAt ≤ call.request.expiresAtUnixMs
  admits : Admits replayStore (requestRow call.request) r

section Exchange

variable {service : MinerService σ} {signatureVerifies : SignatureCheck}
  {dumpRequest : OptimizationRequestV2 → Bytes} {dumpResponse : SignedOptimizationResponse → Bytes}
  {readResponse : Bytes → Option SignedOptimizationResponse} {call : DispatchCall}
  {nonceStore : NonceCheck σ} {http : HttpRequest} {s : σ} {now completedAt receivedAt : Int}
  {execute : PublicTaskV2 → Nat → Reply OptimizationBundle} {replayStore : ReplayStore τ} {r : τ}
  {artifact : OptimizationBundle} {response : SignedOptimizationResponse}

theorem replayRow_signed {request : OptimizationRequestV2} {signer : ResponseSigner}
    (signed : signOptimizationResponse request artifact signer completedAt
      request.expiresAtUnixMs = .ok response) : replayRow response = requestRow request := by
  obtain ⟨-, -, -, task, times, size, rfl⟩ := signOptimizationResponse_ok signed
  rfl

/-- A request that nobody disturbed is authenticated when it is not too long. -/
theorem authenticate_undisturbed (u : Undisturbed service signatureVerifies dumpRequest call
      nonceStore http s) (size : ((dumpRequest call.request).length : Int) ≤ maxV2RequestBytes) :
    ∃ path s', authenticate service nonceStore http s =
      (.ok ⟨call.request.validatorHotkey.val, dumpRequest call.request, path⟩, s') := by
  obtain ⟨path, s', target, verified⟩ := u.authentic
  have hbody : readBoundedBody http maxV2RequestBytes = .ok (dumpRequest call.request) :=
    readBoundedBody_ok_iff.mpr ⟨u.body, size, fun text h => ⟨_, u.announced text h, size⟩⟩
  exact ⟨path, s', authenticateRequest_ok_iff.mpr ⟨hbody, target, verified, u.authorized⟩⟩

/-- The endpoint answers exactly when the request is in time, the strategy is
and the miner's clock is not behind the request's. -/
theorem optimize_undisturbed_iff (u : Undisturbed service signatureVerifies dumpRequest call
      nonceStore http s) :
    (optimize service nonceStore http now execute completedAt s).1 = .ok response ↔
      ((dumpRequest call.request).length : Int) ≤ maxV2RequestBytes ∧
        (call.request.issuedAtUnixMs : Int) ≤ now + 5000 ∧ now < call.request.expiresAtUnixMs ∧
        (call.request.expiresAtUnixMs : Int) - call.request.issuedAtUnixMs ≤ maxRequestLifetimeMs ∧
        now < call.request.task.deadlineUnixMs ∧
        ∃ artifact, execute call.request.task (executionDeadline call.request) = .artifact artifact ∧
          Completed call.request artifact completedAt ∧
          signOptimizationResponse call.request artifact service.signer completedAt
            call.request.expiresAtUnixMs = .ok response := by
  rw [optimize_ok_iff]
  constructor
  · rintro ⟨authenticated, s', model, passed, admitted, completed⟩
    obtain ⟨hbody, -, -, -⟩ := authenticateRequest_ok_iff.mp passed
    obtain ⟨same, size, -⟩ := readBoundedBody_ok_iff.mp hbody
    have raw : authenticated.rawBody = dumpRequest call.request := same.symm.trans u.body
    have read := admitted.body
    rw [raw, u.requestText] at read
    obtain rfl := Option.some.inj read
    rw [raw] at size
    exact ⟨size, admitted.begun, admitted.alive, admitted.brief, admitted.due,
      completion_ok_iff.mp completed⟩
  · rintro ⟨size, begun, alive, brief, due, finished⟩
    obtain ⟨path, s', passed⟩ := authenticate_undisturbed u size
    exact ⟨_, s', call.request, passed, ⟨u.requestText, rfl, u.miner, begun, alive, brief, due⟩, completion_ok_iff.mpr finished⟩

/-- What the client reads of a relayed answer. -/
theorem receive_relayed_iff (positive : 0 < call.maxResponseBytes) {headers : List Header}
    {chunks : List Bytes} {raw : Bytes} (body : chunks.flatten = dumpResponse response)
    (valid : validateResponseHeaders headers call.maxResponseHeaderBytes true = .ok ⟨⟩)
    (announced : ∀ text, announcedLength headers = some text →
      parseInt text = some ((dumpResponse response).length : Int)) :
    receive call 200 headers (.streamed chunks .complete) = .ok raw ↔
      raw = dumpResponse response ∧ ((dumpResponse response).length : Int) ≤ call.maxResponseBytes := by
  rw [receive_ok_iff, readBoundedResponse_ok_iff]
  have read : readBody (.streamed chunks .complete) call.maxResponseBytes = .ok raw ↔
      readBounded call.maxResponseBytes ReadFault.responseTooLarge chunks = .ok raw := by
    unfold readBody
    dsimp only
    cases readBounded call.maxResponseBytes ReadFault.responseTooLarge chunks with
    | error fault => simp
    | ok data => simp
  rw [read, readBounded_ok_iff positive.le, body]
  constructor
  · rintro ⟨-, -, ⟨rfl, within⟩, -⟩
    exact ⟨rfl, within⟩
  · rintro ⟨rfl, within⟩
    exact ⟨rfl, valid, ⟨rfl, within⟩, fun text h => ⟨_, announced text h, within⟩⟩

/-- What the verification of the miner's own answer leaves to the clocks and the store. -/
theorem verifySignedResponse_signed_iff (u : Undisturbed service signatureVerifies dumpRequest
      call nonceStore http s)
    (signed : signOptimizationResponse call.request artifact service.signer completedAt
      call.request.expiresAtUnixMs = .ok response) {bundle : OptimizationBundle} :
    (verifySignedResponse signatureVerifies replayStore response (verificationOf call receivedAt)
        r).1 = .ok bundle ↔
      bundle = artifact ∧ (completedAt ≤ receivedAt + 5000 ∧
        receivedAt ≤ call.request.expiresAtUnixMs) ∧ Admits replayStore (requestRow call.request) r := by
  have skew : (0 : Int) ≤ 5000 := by decide
  have made : response.artifact = artifact := (AuthAgreement.commits_of_signed signed).2.1
  have checked := checkResponse_signed_iff (v := verificationOf call receivedAt) signed u.genuine
    skew u.listed
  rw [verifySignedResponse_ok_iff, checked, replayRow_signed signed, made]
  constructor
  · rintro ⟨window, admits, same⟩
    exact ⟨same, window, admits⟩
  · rintro ⟨same, window, admits⟩
    exact ⟨window, admits, same⟩

/-- An undisturbed exchange, which passes the HTTP authentication with its nonce
store, the authorization hook and the metagraph by hypothesis, ends with the
artifact of the miner's strategy exactly when it meets the conditions, and no
other way. -/
theorem exchange_accepted_iff {sent : Sent}
    (u : Undisturbed service signatureVerifies dumpRequest call nonceStore http s)
    (relayed : Relayed dumpResponse readResponse call.maxResponseHeaderBytes
      (optimize service nonceStore http now execute completedAt s).1 sent) :
    (∃ outcome r', requestOptimizationV2 signatureVerifies readResponse replayStore call sent
        receivedAt r = (.ok outcome, r') ∧ outcome.accepted = true ∧
        outcome.artifact = some artifact) ↔
      Concluded service.signer dumpRequest dumpResponse call now
        (execute call.request.task (executionDeadline call.request)) completedAt receivedAt
        replayStore r artifact := by
  generalize hanswer : (optimize service nonceStore http now execute completedAt s).1 = answer
    at relayed
  constructor
  · rintro ⟨outcome, r', dispatch, accepted, same⟩
    obtain ⟨-, status, headers, body, raw, rfl, received, signed, bundle, read, verified, rfl⟩ :=
      requestOptimizationV2_accepted_iff.mp ⟨dispatch, accepted⟩
    obtain rfl := Option.some.inj same
    cases relayed with
    | refused failed => exact absurd (receive_ok_iff.mp received).1 failed
    | @answered response _ chunks text body valid announced =>
      obtain ⟨rfl, within⟩ := (receive_relayed_iff u.dispatched.body body valid announced).mp received
      rw [text] at read
      obtain rfl := Option.some.inj read
      obtain ⟨size, begun, alive, brief, due, artifact, reply, completed, made⟩ :=
        (optimize_undisturbed_iff u).mp hanswer
      obtain ⟨rfl, window, admits⟩ :=
        (verifySignedResponse_signed_iff u made).mp (congrArg Prod.fst verified)
      refine ⟨size, begun, alive, brief, due, reply, completed, (signOptimizationResponse_ok made).2.1,
        fun other hother => ?_, window, admits⟩
      obtain rfl := Except.ok.inj (made.symm.trans hother)
      exact within
  · intro c
    obtain ⟨response, made⟩ := (exists_signed_iff c.completed u.miner u.sized).mpr c.started
    have answered : (optimize service nonceStore http now execute completedAt s).1 = .ok response :=
      (optimize_undisturbed_iff u).mpr
        ⟨c.size, c.begun, c.alive, c.brief, c.due, artifact, c.reply, c.completed, made⟩
    obtain rfl := hanswer.symm.trans answered
    cases relayed with
    | @answered response headers chunks text body valid announced =>
      have received := (receive_relayed_iff u.dispatched.body body valid announced).mpr
        ⟨rfl, c.fits response made⟩
      have verified := (verifySignedResponse_signed_iff u made).mpr ⟨rfl, c.window, c.admits⟩
      obtain ⟨dispatch, accepted⟩ := requestOptimizationV2_accepted_iff.mpr ⟨u.dispatched, 200, headers,
        _, _, rfl, received, response, artifact, text, Prod.ext verified rfl, rfl⟩
      exact ⟨_, _, dispatch, accepted, rfl⟩

end Exchange

/-! One validator, one miner and the empty bundle. -/
namespace Sample

/-- `model_dump_json` of a request. -/
def dumpRequest (request : OptimizationRequestV2) : Bytes := utf8 (dumps false (modelDump request))

/-- `model_dump_json` of a response. -/
def dumpResponse (response : SignedOptimizationResponse) : Bytes :=
  match unsignedDump response with
  | .obj members =>
    utf8 (dumps false (.obj (members ++ [("signature".toList, .str response.signature.val)])))
  | other => utf8 (dumps false other)

def readRequest (body : Bytes) : Option OptimizationRequestV2 :=
  if body = dumpRequest TaskModels.Sample.request then some TaskModels.Sample.request else none

def readResponse (body : Bytes) : Option SignedOptimizationResponse :=
  if body = dumpResponse boundaryResponse then some boundaryResponse else none

/-- A request scheme for one validator and one nonce. -/
def verify : HttpAuth NonceStore.NonceTable := fun nonceStore _ signed t =>
  if signed.receiver = TaskModels.Sample.minerHotkey.val then
    match nonceStore TaskModels.Sample.validatorHotkey.val 7 t with
    | (.ok true, t') => (.ok TaskModels.Sample.validatorHotkey.val, t')
    | (.ok false, t') => (.error (.auth .replayedRequest), t')
    | (.error exception, t') => (.error (.raised exception), t')
  else (.error (.auth .wrongReceiver), t)

def service : MinerService NonceStore.NonceTable where
  signer := boundarySigner
  verify := verify
  authorizeHotkey := fun hotkey => .ok (decide (hotkey = TaskModels.Sample.validatorHotkey.val))
  readRequest := readRequest

/-- `check_and_store` at a reading of the clock. -/
def nonceStore (clockNs : Int) : NonceCheck NonceStore.NonceTable := fun hotkey nonceNs t =>
  smallStore.checkAndStore t ⟨⟨hotkey, nonceNs⟩, clockNs⟩

def call : DispatchCall where
  receiver := TaskModels.Sample.minerHotkey.val
  request := TaskModels.Sample.request
  expectedMinerUid := 0
  metagraphHotkeys := fun _ => some TaskModels.Sample.minerHotkey.val
  maxResponseBytes := 128 * 1024
  maxResponseHeaderBytes := 16 * 1024
  boundedTime := true
  transportSafe := true

def http : HttpRequest where
  method := "POST".toList
  rawPath := some (ascii "/v2/optimize")
  queryString := some []
  headers := []
  chunks := [dumpRequest TaskModels.Sample.request, []]

def execute (_ : PublicTaskV2) (_ : Nat) : Reply OptimizationBundle :=
  .artifact TaskModels.Sample.artifact

def sent : Sent :=
  .response 200 [(ascii "content-type", ascii "application/json")]
    (.streamed [[], dumpResponse boundaryResponse] .complete)

theorem readRequest_dump :
    readRequest (dumpRequest TaskModels.Sample.request) = some TaskModels.Sample.request := if_pos rfl

theorem readResponse_dump : readResponse (dumpResponse boundaryResponse) = some boundaryResponse :=
  if_pos rfl

theorem flatten_empty (data : Bytes) : [data, []].flatten = data := by simp

theorem flatten_late (data : Bytes) : [[], data].flatten = data := by simp

theorem nonceStore_accepts : ∃ t, nonceStore 0 TaskModels.Sample.validatorHotkey.val 7 .empty =
    (.ok true, t) := ⟨_, rfl⟩

theorem verify_accepts (headers : List (Bytes × Bytes)) (method path : Text) (body : Bytes) :
    ∃ t, verify (nonceStore 0) headers ⟨method, path, body, TaskModels.Sample.minerHotkey.val⟩ .empty =
      (.ok TaskModels.Sample.validatorHotkey.val, t) := by
  obtain ⟨t, h⟩ := nonceStore_accepts
  refine ⟨t, ?_⟩
  unfold verify
  rw [if_pos rfl, h]

theorem rawTarget_http : rawTarget http = .ok "/v2/optimize".toList := by decide +kernel

theorem undisturbed : Undisturbed service boundarySignatureVerifies dumpRequest call (nonceStore 0)
    http .empty where
  dispatched := ⟨rfl, by decide, by decide, rfl, rfl⟩
  listed := rfl
  miner := rfl
  genuine := fun message => by simp [boundarySignatureVerifies, service, call, TaskModels.Sample.request]
  sized := fun message => by simp [service, boundarySigner, Sha256.length_sha256]
  requestText := by
    have own : service.readRequest = readRequest := rfl
    have sample : call.request = TaskModels.Sample.request := rfl
    rw [own, sample]
    exact readRequest_dump
  body := flatten_empty _
  announced := fun text h => by cases h
  authentic := by
    obtain ⟨t, h⟩ := verify_accepts http.headers http.method "/v2/optimize".toList
      (dumpRequest TaskModels.Sample.request)
    exact ⟨_, t, rawTarget_http, h⟩
  authorized := rfl

theorem dumpRequest_small : ((dumpRequest call.request).length : Int) ≤ maxV2RequestBytes := by
  decide +kernel

theorem artifact_small : SandboxV2.artifactBytes TaskModels.Sample.artifact ≤ 65536 := by
  decide +kernel

theorem relayed : Relayed dumpResponse readResponse call.maxResponseHeaderBytes
    (optimize service (nonceStore 0) http 1000 execute 1000 .empty).1 sent := by
  have answered : (optimize service (nonceStore 0) http 1000 execute 1000 .empty).1 =
      .ok boundaryResponse := by
    refine (optimize_undisturbed_iff undisturbed).mpr ⟨dumpRequest_small, by decide, by decide,
      by decide, by decide, TaskModels.Sample.artifact, rfl,
      ⟨by decide, by decide, rfl, rfl, artifact_small⟩, boundaryResponse_signed⟩
  rw [answered]
  exact .answered readResponse_dump (flatten_late _) (by decide +kernel) fun text h => by cases h

theorem dumpResponse_small :
    ((dumpResponse boundaryResponse).length : Int) ≤ call.maxResponseBytes := by
  decide +kernel

theorem concluded : Concluded boundarySigner dumpRequest dumpResponse call 1000
    (.artifact TaskModels.Sample.artifact) 1000 1500 (memoryCheckAndStore 10000)
    ⟨[], List.nodup_nil⟩ TaskModels.Sample.artifact where
  size := dumpRequest_small
  begun := by decide
  alive := by decide
  brief := by decide
  due := by decide
  reply := rfl
  completed := ⟨by decide, by decide, rfl, rfl, artifact_small⟩
  started := by decide
  fits := by
    intro response made
    obtain rfl := Except.ok.inj (boundaryResponse_signed.symm.trans made)
    exact dumpResponse_small
  window := by decide
  admits := rfl

/-- The validator ends up with the empty bundle. -/
theorem exchange_accepted :
    ∃ outcome r', requestOptimizationV2 boundarySignatureVerifies readResponse
      (memoryCheckAndStore 10000) call sent 1500 ⟨[], List.nodup_nil⟩ = (.ok outcome, r') ∧
      outcome.accepted = true ∧ outcome.artifact = some TaskModels.Sample.artifact :=
  (exchange_accepted_iff undisturbed relayed).mpr concluded

end Sample

end UndisturbedExchange
