import PlanRace.AuthV2
import PlanRace.Library.BoundedReads
import PlanRace.Library.PythonObjects
import PlanRace.ResponseHeaders

/-!
# The dispatch of the validator client

`request_optimization_v2` as a function of what the transport came to. A
response is looked at in the order headers, status, body, model, signature, and
the clock is read once the body is complete.
-/

namespace ValidatorClient

open JsonText ByteStrings UniqueReadability PythonObjects IndexAst TaskModels AuthV2 ResponseHeaders
  BoundedReads

structure DispatchOutcomeV2 where
  accepted : Bool
  artifact : Option OptimizationBundle
  response : Option SignedOptimizationResponse
  failureCode : Option Text
  statusCode : Option Int
deriving DecidableEq

/-- `_failed`. -/
def failed (code : String) (statusCode : Option Int) : DispatchOutcomeV2 :=
  ⟨false, none, none, some code.toList, statusCode⟩

/-- How a stream of chunks ends. -/
inductive StreamEnd where
  | complete
  /-- `httpx.HTTPError`, the time-outs of the transport among them. -/
  | httpError
  /-- The total time has elapsed. -/
  | timeoutError

inductive Body where
  /-- `response.is_stream_consumed`. -/
  | consumed (content : Bytes)
  | streamed (chunks : List Bytes) (ending : StreamEnd)

/-- What comes of the signed request before there is a response to look at. -/
inductive Sent where
  | endpointResolution
  | endpointForbidden
  | endpointInvalid
  /-- `httpx.TimeoutException`, or the total time has elapsed. -/
  | timeout
  | httpError
  | raised (exception : Raised)
  | response (status : Int) (headers : List Header) (body : Body)

structure DispatchCall where
  receiver : Text
  request : OptimizationRequestV2
  expectedMinerUid : Int
  metagraphHotkeys : Int → Option Text
  maxResponseBytes : Int
  maxResponseHeaderBytes : Int
  /-- `total_timeout_seconds` is finite and positive. -/
  boundedTime : Bool
  /-- `_client_transport_is_safe`. -/
  transportSafe : Bool

inductive ReadFault where
  | responseTooLarge
  | readFailed
  | timeout
deriving DecidableEq

/-- `response.headers.get("content-length")`. -/
def announcedLength (headers : List Header) : Option Text :=
  match named contentLength headers with
  | [] => none
  | values => some (joinWith ", ".toList (values.map fun value => value.map fun b => Char.ofNat b.toNat))

/-- The body behind its announced length. -/
def readBody (body : Body) (maxResponseBytes : Int) : Except ReadFault Bytes :=
  match body with
  | .consumed content =>
    if (content.length : Int) > maxResponseBytes then .error .responseTooLarge else .ok content
  | .streamed chunks ending =>
    match readBounded maxResponseBytes ReadFault.responseTooLarge chunks with
    | .error fault => .error fault
    | .ok raw =>
      match ending with
      | .complete => .ok raw
      | .httpError => .error .readFailed
      | .timeoutError => .error .timeout

/-- `_read_bounded_response`. -/
def readBoundedResponse (headers : List Header) (body : Body) (maxResponseBytes : Int) :
    Except ReadFault Bytes :=
  match announcedLength headers with
  | none => readBody body maxResponseBytes
  | some text =>
    match parseInt text with
    | none => .error .responseTooLarge
    | some length =>
      if length > maxResponseBytes then .error .responseTooLarge else readBody body maxResponseBytes

/-- The part of `request_optimization_v2` that looks at a response: its bytes, or
the outcome without them. -/
def receive (call : DispatchCall) (status : Int) (headers : List Header) (body : Body) :
    Except DispatchOutcomeV2 Bytes :=
  match validateResponseHeaders headers call.maxResponseHeaderBytes (decide (status = 200)) with
  | .error .tooLarge => .error (failed "response_headers_too_large" (some status))
  | .error .invalid => .error (failed "response_headers_invalid" (some status))
  | .ok _ =>
    if status ≠ 200 then .error (failed "http_error" (some status))
    else
      match readBoundedResponse headers body call.maxResponseBytes with
      | .error .responseTooLarge => .error (failed "response_too_large" (some status))
      | .error .readFailed => .error (failed "response_read_failed" (some status))
      | .error .timeout => .error (failed "timeout" none)
      | .ok raw => .ok raw

def transported (call : DispatchCall) : Sent → Except Raised (Except DispatchOutcomeV2 Bytes)
  | .endpointResolution => .ok (.error (failed "endpoint_resolution_failed" none))
  | .endpointForbidden => .ok (.error (failed "endpoint_forbidden" none))
  | .endpointInvalid => .ok (.error (failed "endpoint_invalid" none))
  | .timeout => .ok (.error (failed "timeout" none))
  | .httpError => .ok (.error (failed "transport_error" none))
  | .raised exception => .error exception
  | .response status headers body => .ok (receive call status headers body)

def verificationOf (call : DispatchCall) (receivedAtUnixMs : Int) : Verification where
  request := call.request
  expectedMinerUid := call.expectedMinerUid
  metagraphHotkeys := call.metagraphHotkeys
  nowUnixMs := receivedAtUnixMs

section Dispatch

variable {σ : Type} (signatureVerifies : SignatureCheck)
  (readResponse : Bytes → Option SignedOptimizationResponse) (replayStore : ReplayStore σ)

/-- The model and the signature of the received bytes. -/
def conclude (call : DispatchCall) (raw : Bytes) (receivedAtUnixMs : Int) (s : σ) :
    Except Raised DispatchOutcomeV2 × σ :=
  match readResponse raw with
  | none => (.ok (failed "response_validation_failed" (some 200)), s)
  | some signed =>
    match verifySignedResponse signatureVerifies replayStore signed
      (verificationOf call receivedAtUnixMs) s with
    | (.ok artifact, s') => (.ok ⟨true, some artifact, some signed, none, some 200⟩, s')
    | (.error (.rejected code), s') =>
      (.ok ⟨false, none, some signed, some code.text, some 200⟩, s')
    | (.error (.store .overflow), s') => (.error .overflowError, s')
    | (.error .negativeClockSkew, s') =>
      (.error (.valueError "max_clock_skew_ms cannot be negative".toList), s')

/-- `request_optimization_v2`. -/
def requestOptimizationV2 (call : DispatchCall) (sent : Sent) (receivedAtUnixMs : Int) (s : σ) :
    Except Raised DispatchOutcomeV2 × σ :=
  if call.receiver ≠ call.request.minerHotkey.val then (.ok (failed "receiver_mismatch" none), s)
  else if call.maxResponseBytes ≤ 0 then
    (.error (.valueError "max_response_bytes must be positive".toList), s)
  else if call.maxResponseHeaderBytes ≤ 0 then
    (.error (.valueError "max_response_header_bytes must be positive".toList), s)
  else if !call.boundedTime then
    (.error (.valueError "total_timeout_seconds must be finite and positive".toList), s)
  else if !call.transportSafe then (.ok (failed "client_configuration_unsafe" none), s)
  else
    match transported call sent with
    | .error exception => (.error exception, s)
    | .ok (.error outcome) => (.ok outcome, s)
    | .ok (.ok raw) => conclude signatureVerifies readResponse replayStore call raw receivedAtUnixMs s

/-- The arguments that pass the checks in front of the request. -/
structure Dispatched (call : DispatchCall) : Prop where
  receiver : call.receiver = call.request.minerHotkey.val
  body : 0 < call.maxResponseBytes
  header : 0 < call.maxResponseHeaderBytes
  time : call.boundedTime = true
  transport : call.transportSafe = true

variable {signatureVerifies readResponse replayStore} {call : DispatchCall} {sent : Sent}
  {receivedAt : Int} {s s' : σ} {outcome : DispatchOutcomeV2}

/-- Exactly the bytes of an unambiguous 200 within the limits are received. -/
theorem receive_ok_iff {status : Int} {headers : List Header} {body : Body} {raw : Bytes} :
    receive call status headers body = .ok raw ↔
      status = 200 ∧ validateResponseHeaders headers call.maxResponseHeaderBytes true = .ok ⟨⟩ ∧
        readBoundedResponse headers body call.maxResponseBytes = .ok raw := by
  unfold receive
  by_cases fine : status = 200
  · subst fine
    rw [decide_eq_true rfl]
    cases validateResponseHeaders headers call.maxResponseHeaderBytes true with
    | error fault => cases fault <;> simp
    | ok done =>
      dsimp only
      rw [if_neg (not_not.mpr rfl)]
      cases readBoundedResponse headers body call.maxResponseBytes with
      | error fault => cases fault <;> simp
      | ok data => simp
  · rw [decide_eq_false fine]
    cases validateResponseHeaders headers call.maxResponseHeaderBytes false with
    | error fault => cases fault <;> simp [fine]
    | ok done => simp [fine]

theorem readBoundedResponse_ok_iff {headers : List Header} {body : Body} {limit : Int} {raw : Bytes} :
    readBoundedResponse headers body limit = .ok raw ↔ readBody body limit = .ok raw ∧
      ∀ text, announcedLength headers = some text → ∃ length, parseInt text = some length ∧
        length ≤ limit := by
  unfold readBoundedResponse
  cases announcedLength headers with
  | none => simp
  | some text =>
    dsimp only
    cases hlength : parseInt text with
    | none => simp [hlength]
    | some length =>
      dsimp only
      split_ifs with excess
      · simp [hlength, excess]
      · simp [hlength, Int.not_lt.mp excess]

/-- Without bytes there is a failure. -/
theorem refused_of_receive {status : Int} {headers : List Header} {body : Body}
    (h : receive call status headers body = .error outcome) : outcome.accepted = false := by
  unfold receive at h
  cases hvalid : validateResponseHeaders headers call.maxResponseHeaderBytes (decide (status = 200)) with
  | error fault =>
    rw [hvalid] at h
    cases fault
    · cases h
      rfl
    · cases h
      rfl
  | ok done =>
    rw [hvalid] at h
    dsimp only at h
    split_ifs at h with wrong
    · cases h
      rfl
    · cases hread : readBoundedResponse headers body call.maxResponseBytes with
      | error fault =>
        rw [hread] at h
        cases fault
        · cases h
          rfl
        · cases h
          rfl
        · cases h
          rfl
      | ok raw =>
        rw [hread] at h
        cases h

theorem conclude_accepted_iff {raw : Bytes} :
    (conclude signatureVerifies readResponse replayStore call raw receivedAt s = (.ok outcome, s') ∧
        outcome.accepted = true) ↔
      ∃ signed artifact, readResponse raw = some signed ∧
        verifySignedResponse signatureVerifies replayStore signed
          (verificationOf call receivedAt) s = (.ok artifact, s') ∧
        outcome = ⟨true, some artifact, some signed, none, some 200⟩ := by
  unfold conclude
  constructor
  · rintro ⟨h, accepted⟩
    cases hread : readResponse raw with
    | none =>
      rw [hread] at h
      cases h
      cases accepted
    | some signed =>
      rw [hread] at h
      dsimp only at h
      rcases hverify : verifySignedResponse signatureVerifies replayStore signed
        (verificationOf call receivedAt) s with ⟨(_ | code | fault) | artifact, after⟩
      · rw [hverify] at h
        cases h
      · rw [hverify] at h
        cases h
        cases accepted
      · rw [hverify] at h
        cases fault
        cases h
      · rw [hverify] at h
        cases h
        exact ⟨signed, artifact, rfl, hverify, rfl⟩
  · rintro ⟨signed, artifact, hread, hverify, rfl⟩
    rw [hread]
    dsimp only
    rw [hverify]
    exact ⟨rfl, rfl⟩

/-- A dispatch is accepted when a response of the transport passes the whole
verification. -/
theorem requestOptimizationV2_accepted_iff :
    (requestOptimizationV2 signatureVerifies readResponse replayStore call sent receivedAt s =
        (.ok outcome, s') ∧ outcome.accepted = true) ↔
      Dispatched call ∧ ∃ status headers body raw, sent = .response status headers body ∧
        receive call status headers body = .ok raw ∧
        ∃ signed artifact, readResponse raw = some signed ∧
          verifySignedResponse signatureVerifies replayStore signed
            (verificationOf call receivedAt) s = (.ok artifact, s') ∧
          outcome = ⟨true, some artifact, some signed, none, some 200⟩ := by
  unfold requestOptimizationV2
  constructor
  · rintro ⟨h, accepted⟩
    split_ifs at h with receiver body header time transport
    · cases h
      cases accepted
    · cases h
    · cases h
    · cases h
    · cases h
      cases accepted
    · refine ⟨⟨not_not.mp receiver, Int.not_le.mp body, Int.not_le.mp header, by simpa using time,
        by simpa using transport⟩, ?_⟩
      cases sent with
      | raised exception => cases h
      | response status headers body =>
        cases hreceive : receive call status headers body with
        | error failure =>
          simp only [transported, hreceive] at h
          cases h
          rw [refused_of_receive hreceive] at accepted
          cases accepted
        | ok raw =>
          simp only [transported, hreceive] at h
          exact ⟨status, headers, body, raw, rfl, hreceive, conclude_accepted_iff.mp ⟨h, accepted⟩⟩
      | endpointResolution | endpointForbidden | endpointInvalid | timeout | httpError =>
        cases h
        cases accepted
  · rintro ⟨⟨receiver, body, header, time, transport⟩, status, headers, content, raw, rfl, hreceive,
      concluded⟩
    rw [if_neg (not_not.mpr receiver), if_neg (Int.not_le.mpr body), if_neg (Int.not_le.mpr header),
      time, transport]
    simp only [transported, hreceive]
    exact conclude_accepted_iff.mpr concluded

end Dispatch

end ValidatorClient
