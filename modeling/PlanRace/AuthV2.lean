import PlanRace.TaskModels
import PlanRace.Library.Runs

/-!
# Receiver-bound response authentication and the replay stores

`verify_signed_response` and the stores behind it. A store is an operation on
the state it lives in; a failing transaction of the SQLite store leaves its
table as it was. Signature verification is a parameter. No clock is assumed
to agree with another one.
-/

namespace AuthV2

open JsonText ByteStrings CanonicalJson WireText IndexAst TaskModels Runs

structure ReplayKey where
  minerHotkey : Text
  requestNonce : Nat
  requestId : Text
deriving DecidableEq

structure ReplayRow where
  key : ReplayKey
  expiresAtUnixMs : Nat
deriving DecidableEq

inductive StoreFault where
  /-- `OverflowError`: a value does not fit an SQLite INTEGER. -/
  | overflow
deriving DecidableEq

/-- `check_and_store`. -/
abbrev ReplayStore (σ : Type) := ReplayRow → σ → Except StoreFault Bool × σ

section Stores

structure MemoryKeys where
  keys : List ReplayKey
  distinct : keys.Nodup

def memoryCheckAndStore (maxEntries : Nat) : ReplayStore MemoryKeys := fun row memory =>
  if fresh : row.key ∉ memory.keys then
    if memory.keys.length ≥ maxEntries then (.ok false, memory)
    else (.ok true, ⟨row.key :: memory.keys, List.nodup_cons.mpr ⟨fresh, memory.distinct⟩⟩)
  else (.ok false, memory)

/-- The table `accepted_v2_responses` with its primary key. -/
structure ReplayTable where
  rows : List ReplayRow
  primaryKey : (rows.map ReplayRow.key).Nodup

namespace ReplayTable

def empty : ReplayTable := ⟨[], List.nodup_nil⟩

def keys (t : ReplayTable) : List ReplayKey := t.rows.map ReplayRow.key

/-- `DELETE FROM accepted_v2_responses WHERE expires_at_unix_ms <= ?`. -/
def prune (clock : Int) (t : ReplayTable) : ReplayTable where
  rows := t.rows.filter fun r => !decide ((r.expiresAtUnixMs : Int) ≤ clock)
  primaryKey := (List.Sublist.map _ List.filter_sublist).nodup t.primaryKey

def insert (row : ReplayRow) (t : ReplayTable) (fresh : row.key ∉ t.keys) : ReplayTable where
  rows := row :: t.rows
  primaryKey := List.nodup_cons.mpr ⟨fresh, t.primaryKey⟩

@[simp] theorem mem_prune {clock : Int} {t : ReplayTable} {r : ReplayRow} :
    r ∈ (t.prune clock).rows ↔ r ∈ t.rows ∧ clock < r.expiresAtUnixMs := by
  simp [prune]

@[simp] theorem mem_insert {row r : ReplayRow} {t : ReplayTable} {fresh : row.key ∉ t.keys} :
    r ∈ (t.insert row fresh).rows ↔ r = row ∨ r ∈ t.rows := by
  simp [insert]

theorem key_mem {r : ReplayRow} {t : ReplayTable} (h : r ∈ t.rows) : r.key ∈ t.keys :=
  List.mem_map_of_mem h

end ReplayTable

/-- The range of an SQLite INTEGER. -/
def fitsInteger (n : Int) : Bool := decide (-2 ^ 63 ≤ n) && decide (n < 2 ^ 63)

def ReplayRow.fits (r : ReplayRow) : Bool :=
  fitsInteger r.key.requestNonce && fitsInteger r.expiresAtUnixMs

/-- `SQLiteResponseReplayStore.check_and_store` at one reading of its clock. -/
def checkAndStore (maxEntries : Nat) (clock : Int) : ReplayStore ReplayTable := fun row table =>
  if fitsInteger clock then
    if (table.prune clock).rows.length ≥ maxEntries then (.ok false, table.prune clock)
    else if row.fits then
      if fresh : row.key ∉ (table.prune clock).keys then
        (.ok true, (table.prune clock).insert row fresh)
      else (.ok false, table.prune clock)
    else (.error .overflow, table)
  else (.error .overflow, table)

end Stores

inductive VerificationCode where
  | metagraphIdentityMismatch
  | wrongMiner
  | wrongReceiver
  | wrongRequest
  | wrongTask
  | wrongNonce
  | requestDigestMismatch
  | engineDigestMismatch
  | artifactDigestMismatch
  | responsePredatesRequest
  | responseFromFuture
  | responseOutlivesRequest
  | responseExpired
  | badSignature
  | responseReplayed
deriving DecidableEq

def VerificationCode.text : VerificationCode → Text
  | metagraphIdentityMismatch => "metagraph_identity_mismatch".toList
  | wrongMiner => "wrong_miner".toList
  | wrongReceiver => "wrong_receiver".toList
  | wrongRequest => "wrong_request".toList
  | wrongTask => "wrong_task".toList
  | wrongNonce => "wrong_nonce".toList
  | requestDigestMismatch => "request_digest_mismatch".toList
  | engineDigestMismatch => "engine_digest_mismatch".toList
  | artifactDigestMismatch => "artifact_digest_mismatch".toList
  | responsePredatesRequest => "response_predates_request".toList
  | responseFromFuture => "response_from_future".toList
  | responseOutlivesRequest => "response_outlives_request".toList
  | responseExpired => "response_expired".toList
  | badSignature => "bad_signature".toList
  | responseReplayed => "response_replayed".toList

inductive VerificationError where
  /-- `ValueError("max_clock_skew_ms cannot be negative")`. -/
  | negativeClockSkew
  | rejected (code : VerificationCode)
  | store (fault : StoreFault)
deriving DecidableEq

/-- The keyword arguments of `verify_signed_response` but the store. -/
structure Verification where
  request : OptimizationRequestV2
  expectedMinerUid : Int
  metagraphHotkeys : Int → Option Text
  nowUnixMs : Int
  maxClockSkewMs : Int := 5000

/-- `Keypair(ss58_address=..).verify(message, signature)`, false where it raises. -/
abbrev SignatureCheck := Hotkey → Bytes → Bytes → Bool

section Verify

variable (signatureVerifies : SignatureCheck)

/-- The checks in the order of the source: a rejecting condition with its code. -/
def responseChecks (response : SignedOptimizationResponse) (v : Verification) :
    List (Bool × VerificationCode) :=
  let request := v.request
  [(decide (v.metagraphHotkeys v.expectedMinerUid ≠ some request.minerHotkey.val),
      .metagraphIdentityMismatch),
    (decide (response.minerHotkey ≠ request.minerHotkey), .wrongMiner),
    (decide (response.validatorHotkey ≠ request.validatorHotkey), .wrongReceiver),
    (decide (response.requestId ≠ request.requestId), .wrongRequest),
    (decide (response.taskId ≠ request.task.taskId), .wrongTask),
    (decide (response.requestNonce ≠ request.requestNonce), .wrongNonce),
    (decide (response.requestDigest.val ≠ optimizationRequestDigest request),
      .requestDigestMismatch),
    (decide (response.artifact.engineImageDigest ≠ request.task.engineImageDigest),
      .engineDigestMismatch),
    (decide (response.artifactDigest.val ≠ optimizationBundleDigest response.artifact),
      .artifactDigestMismatch),
    (decide ((response.issuedAtUnixMs : Int) < request.issuedAtUnixMs - v.maxClockSkewMs),
      .responsePredatesRequest),
    (decide ((response.issuedAtUnixMs : Int) > v.nowUnixMs + v.maxClockSkewMs),
      .responseFromFuture),
    (decide (response.expiresAtUnixMs > request.expiresAtUnixMs), .responseOutlivesRequest),
    (decide ((response.expiresAtUnixMs : Int) < v.nowUnixMs), .responseExpired),
    (!signatureVerifies response.minerHotkey (optimizationResponseSigningBytes response)
        (fromHex response.signature.val), .badSignature)]

/-- Everything `verify_signed_response` decides before it asks the store. -/
def checkResponse (response : SignedOptimizationResponse) (v : Verification) :
    Except VerificationError Unit :=
  if v.maxClockSkewMs < 0 then .error .negativeClockSkew
  else match (responseChecks signatureVerifies response v).find? Prod.fst with
    | some (_, code) => .error (.rejected code)
    | none => .ok ()

/-- The row under which a response is stored. -/
def replayRow (response : SignedOptimizationResponse) : ReplayRow where
  key := ⟨response.minerHotkey.val, response.requestNonce, response.requestId.val⟩
  expiresAtUnixMs := response.expiresAtUnixMs

def verifySignedResponse {σ : Type} (replayStore : ReplayStore σ)
    (response : SignedOptimizationResponse) (v : Verification) (s : σ) :
    Except VerificationError OptimizationBundle × σ :=
  match checkResponse signatureVerifies response v with
  | .error e => (.error e, s)
  | .ok () =>
    match replayStore (replayRow response) s with
    | (.ok true, s') => (.ok response.artifact, s')
    | (.ok false, s') => (.error (.rejected .responseReplayed), s')
    | (.error fault, s') => (.error (.store fault), s')

variable {signatureVerifies}

/-- A response passes exactly when no check rejects it. -/
theorem checkResponse_ok_iff {response : SignedOptimizationResponse} {v : Verification} :
    checkResponse signatureVerifies response v = .ok () ↔
      0 ≤ v.maxClockSkewMs ∧ ∀ c ∈ responseChecks signatureVerifies response v, c.1 = false := by
  unfold checkResponse
  by_cases hskew : v.maxClockSkewMs < 0
  · simp [hskew, Int.not_le.mpr hskew]
  · rw [if_neg hskew]
    cases hfind : (responseChecks signatureVerifies response v).find? Prod.fst with
    | none =>
      rw [List.find?_eq_none] at hfind
      simp only [true_iff]
      exact ⟨Int.not_lt.mp hskew, fun c hc => Bool.eq_false_iff.mpr (hfind c hc)⟩
    | some found =>
      have hmem := List.mem_of_find?_eq_some hfind
      have htrue := List.find?_some hfind
      simp only [reduceCtorEq, false_iff, not_and]
      intro _ hall
      rw [hall found hmem] at htrue
      cases htrue

/-- What acceptance by `verify_signed_response` means for the store. -/
theorem verifySignedResponse_ok_iff {σ : Type} {replayStore : ReplayStore σ}
    {response : SignedOptimizationResponse} {v : Verification} {s : σ}
    {bundle : OptimizationBundle} :
    (verifySignedResponse signatureVerifies replayStore response v s).1 = .ok bundle ↔
      checkResponse signatureVerifies response v = .ok () ∧
        (replayStore (replayRow response) s).1 = .ok true ∧ bundle = response.artifact := by
  unfold verifySignedResponse
  cases hcheck : checkResponse signatureVerifies response v with
  | error e => simp
  | ok u =>
    rcases hstore : replayStore (replayRow response) s with ⟨outcome, s'⟩
    rcases outcome with fault | stored
    · simp
    · cases stored <;> simp [eq_comm]

end Verify

section Sign

/-- A resolved hotkey signer. -/
structure ResponseSigner where
  ss58Address : Text
  sign : Bytes → Bytes

inductive SigningError where
  | wrongSigner
  | wrongTask
  | wrongEngine
  | predatesRequest
  | outlivesRequest
  /-- The response model rejects its times. -/
  | invalidResponse
  | invalidSignature
deriving DecidableEq

def SigningError.text : SigningError → Text
  | wrongSigner => "signer does not match request miner_hotkey".toList
  | wrongTask => "artifact belongs to a different task".toList
  | wrongEngine => "artifact engine digest does not match task".toList
  | predatesRequest => "response cannot predate request".toList
  | outlivesRequest => "response cannot outlive request".toList
  | invalidResponse => "response expiry must follow issue time".toList
  | invalidSignature => "hotkey signer returned an invalid signature".toList

def signatureHex (signature : Bytes) (size : signature.length = 64) : SignatureHex :=
  ⟨hexText signature, by simp [hexOfLength, hexText_all, size]⟩

/-- `"0" * 128`. -/
def placeholderSignature : SignatureHex := signatureHex (List.replicate 64 0) (by simp)

def withSignature (response : SignedOptimizationResponse) (signature : SignatureHex) :
    SignedOptimizationResponse :=
  { response with signature := signature }

@[simp] theorem optimizationResponseSigningBytes_withSignature
    (response : SignedOptimizationResponse) (signature : SignatureHex) :
    optimizationResponseSigningBytes (withSignature response signature) =
      optimizationResponseSigningBytes response := rfl

/-- The response before it is signed. -/
def placeholderResponse (request : OptimizationRequestV2) (artifact : OptimizationBundle)
    (issuedAtUnixMs expiresAtUnixMs : Nat) (task : request.task.taskId = artifact.taskId)
    (times : (0 < issuedAtUnixMs ∧ 0 < expiresAtUnixMs) ∧ issuedAtUnixMs < expiresAtUnixMs) :
    SignedOptimizationResponse where
  requestId := request.requestId
  taskId := request.task.taskId
  requestDigest := payloadDigest requestDomainV2 (modelDump request)
  validatorHotkey := request.validatorHotkey
  minerHotkey := request.minerHotkey
  requestNonce := request.requestNonce
  issuedAtUnixMs := issuedAtUnixMs
  expiresAtUnixMs := expiresAtUnixMs
  artifactDigest := artifact.artifactDigest
  artifact := artifact
  signature := placeholderSignature
  timesPositive := times.1
  artifactLinks := ⟨task, rfl⟩
  expiryFollowsIssue := times.2

def signOptimizationResponse (request : OptimizationRequestV2) (artifact : OptimizationBundle)
    (signer : ResponseSigner) (issuedAtUnixMs expiresAtUnixMs : Int) :
    Except SigningError SignedOptimizationResponse :=
  if signer.ss58Address ≠ request.minerHotkey.val then .error .wrongSigner
  else if task : request.task.taskId = artifact.taskId then
    if artifact.engineImageDigest ≠ request.task.engineImageDigest then .error .wrongEngine
    else if issuedAtUnixMs < request.issuedAtUnixMs then .error .predatesRequest
    else if expiresAtUnixMs > request.expiresAtUnixMs then .error .outlivesRequest
    else if times : (0 < issuedAtUnixMs.toNat ∧ 0 < expiresAtUnixMs.toNat) ∧
        issuedAtUnixMs.toNat < expiresAtUnixMs.toNat then
      let placeholder :=
        placeholderResponse request artifact issuedAtUnixMs.toNat expiresAtUnixMs.toNat task times
      let signature := signer.sign (optimizationResponseSigningBytes placeholder)
      if size : signature.length = 64 then
        .ok (withSignature placeholder (signatureHex signature size))
      else .error .invalidSignature
    else .error .invalidResponse
  else .error .wrongTask

variable {signatureVerifies : SignatureCheck}

/-- What a signed response is made of. -/
theorem signOptimizationResponse_ok {request : OptimizationRequestV2}
    {artifact : OptimizationBundle} {signer : ResponseSigner} {issued expires : Int}
    {response : SignedOptimizationResponse}
    (signed : signOptimizationResponse request artifact signer issued expires = .ok response) :
    artifact.engineImageDigest = request.task.engineImageDigest ∧
      request.issuedAtUnixMs ≤ issued ∧ expires ≤ request.expiresAtUnixMs ∧
      ∃ task times size, response =
        withSignature (placeholderResponse request artifact issued.toNat expires.toNat task times)
          (signatureHex (signer.sign (optimizationResponseSigningBytes
            (placeholderResponse request artifact issued.toNat expires.toNat task times))) size) := by
  unfold signOptimizationResponse at signed
  split_ifs at signed with _ task engine early late times
  dsimp only at signed
  split_ifs at signed with size
  injection signed with signed
  exact ⟨not_ne_iff.mp engine, Int.not_lt.mp early, Int.not_lt.mp late, task, times, size,
    signed.symm⟩

/-- A response made by the named miner passes every check inside its window,
up to and including the instant of its expiry. -/
theorem checkResponse_signOptimizationResponse {artifact : OptimizationBundle}
    {signer : ResponseSigner} {issued expires : Int} {response : SignedOptimizationResponse}
    {v : Verification}
    (signed : signOptimizationResponse v.request artifact signer issued expires = .ok response)
    (genuine : ∀ m, signatureVerifies v.request.minerHotkey m (signer.sign m) = true)
    (listed : v.metagraphHotkeys v.expectedMinerUid = some v.request.minerHotkey.val)
    (skew : 0 ≤ v.maxClockSkewMs) (started : issued ≤ v.nowUnixMs) (alive : v.nowUnixMs ≤ expires) :
    checkResponse signatureVerifies response v = .ok () := by
  obtain ⟨engine, early, late, task, times, size, rfl⟩ := signOptimizationResponse_ok signed
  have requestDigest : (payloadDigest requestDomainV2 (modelDump v.request)).val =
      optimizationRequestDigest v.request := rfl
  have bundleDigest : artifact.artifactDigest.val = optimizationBundleDigest artifact :=
    artifact.verifyArtifactDigest
  refine checkResponse_ok_iff.mpr ⟨skew, ?_⟩
  simp only [responseChecks, optimizationResponseSigningBytes_withSignature]
  simp [withSignature, placeholderResponse, signatureHex, fromHex_hexText, listed, genuine,
    requestDigest, bundleDigest, engine]
  omega

end Sign

end AuthV2
