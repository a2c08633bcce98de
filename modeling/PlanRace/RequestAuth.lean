import PlanRace.Library.BoundedReads
import PlanRace.NonceStore

/-!
# Authenticated requests

The nonces that a validator signs and the admission of a request by a miner.
`bt.http_auth` is a parameter: it is handed the exact bytes of the request and
the operation of the nonce store, and names the caller or raises.
-/

namespace RequestAuth

open JsonText ByteStrings PythonObjects BoundedReads NonceStore Runs
open AuthV2 (fitsInteger)

section Nonces

/-- `FreshNonceGenerator.__call__` after the nonce `last`. -/
def freshNonce (last clockNs : Int) : Int := max clockNs (last + 1)

/-- The nonces handed out at the readings of a clock. -/
def freshNonces : Int → List Int → List Int
  | _, [] => []
  | last, clockNs :: rest => freshNonce last clockNs :: freshNonces (freshNonce last clockNs) rest

theorem lt_freshNonce (last clockNs : Int) : last < freshNonce last clockNs := by
  unfold freshNonce
  omega

theorem lt_freshNonces (last : Int) (clocks : List Int) : ∀ n ∈ freshNonces last clocks, last < n := by
  induction clocks generalizing last with
  | nil =>
    intro n hn
    cases hn
  | cons clockNs rest ih =>
    have first := lt_freshNonce last clockNs
    intro n hn
    rcases List.mem_cons.mp hn with rfl | later
    · exact first
    · exact first.trans (ih _ n later)

/-- Nonces increase, whatever the clock does. -/
theorem freshNonces_increasing (last : Int) (clocks : List Int) :
    (freshNonces last clocks).Pairwise (· < ·) := by
  induction clocks generalizing last with
  | nil => exact .nil
  | cons clockNs rest ih => exact .cons (lt_freshNonces _ rest) (ih _)

end Nonces

section Admission

variable {store : SQLiteNonceStore}

/-- Every row of the table was there at the start or has been accepted since. -/
def Inserted (start : NonceTable) (past : List NonceEvent) (t : NonceTable) : Prop :=
  ∀ r ∈ t.rows, r ∈ start.rows ∨ ∃ e ∈ past, e.input.request = r

theorem inserted_step {start : NonceTable} (past : List NonceEvent) (t : NonceTable)
    (call : NonceCall) (inv : Inserted start past t) :
    Inserted start (past ++ [event store.checkAndStore t call]) (store.checkAndStore t call).2 := by
  have old : ∀ r ∈ t.rows, r ∈ start.rows ∨
      ∃ e ∈ past ++ [event store.checkAndStore t call], e.input.request = r := by
    intro r hr
    rcases inv r hr with first | ⟨e, he, same⟩
    · exact .inl first
    · exact .inr ⟨e, List.mem_append_left _ he, same⟩
  intro r hr
  rcases store.checkAndStore_cases t call with ⟨_, -, -, -, outcome⟩ | outcome | ⟨-, outcome⟩
  · rw [outcome, NonceTable.mem_insert] at hr
    rcases hr with rfl | kept
    · exact .inr ⟨_, List.mem_append_right _ (List.mem_singleton_self _), rfl⟩
    · exact old r (NonceTable.mem_prune.mp kept).1
  · rw [outcome] at hr
    exact old r (NonceTable.mem_prune.mp hr).1
  · rw [outcome] at hr
    exact old r hr

/-- A request that is not in the table is refused for want of room only, and
raises only where a number does not fit an SQLite integer. -/
theorem answer_of_absent {t : NonceTable} {call : NonceCall} (absent : call.request ∉ t.rows) :
    (store.checkAndStore t call).1 = .ok true ∨
      ((store.checkAndStore t call).1 = .ok false ∧
        store.maxEntries ≤ (t.prune (store.oldest call.clockNs)).rows.length) ∨
      ((store.checkAndStore t call).1 = .error .overflowError ∧
        (fitsInteger (store.oldest call.clockNs) = false ∨
          fitsInteger call.request.nonceNs = false)) := by
  have fresh : call.request ∉ (t.prune (store.oldest call.clockNs)).rows := fun h =>
    absent (NonceTable.mem_prune.mp h).1
  unfold SQLiteNonceStore.checkAndStore
  dsimp only
  split_ifs with clock full nonce
  · exact .inr (.inr ⟨rfl, .inl (by simpa using clock)⟩)
  · exact .inr (.inl ⟨rfl, full⟩)
  · exact .inr (.inr ⟨rfl, .inr (by simpa using nonce)⟩)
  · exact .inl rfl

/-- The nonces of the calls made in the name of a hotkey. -/
def noncesOf (hotkey : Text) (calls : List NonceCall) : List Int :=
  (calls.filter fun call => call.request.hotkeySs58 = hotkey).map fun call => call.request.nonceNs

theorem noncesOf_append (hotkey : Text) (past future : List NonceCall) :
    noncesOf hotkey (past ++ future) = noncesOf hotkey past ++ noncesOf hotkey future := by
  rw [noncesOf, List.filter_append, List.map_append]
  rfl

theorem noncesOf_cons {hotkey : Text} {call : NonceCall} (own : call.request.hotkeySs58 = hotkey)
    (rest : List NonceCall) :
    noncesOf hotkey (call :: rest) = call.request.nonceNs :: noncesOf hotkey rest := by
  simp [noncesOf, own]

/-- Nobody else signs for a hotkey, and its generator was at `last`. In whatever
order its requests arrive, some of them or all, among whatever other requests
and at whatever readings of the clock, none is taken for a repetition. -/
theorem freshNonces_admitted (store : SQLiteNonceStore) {start : NonceTable} {calls : List NonceCall}
    {hotkey : Text} {last : Int} {clocks : List Int}
    (older : ∀ r ∈ start.rows, r.hotkeySs58 = hotkey → r.nonceNs ≤ last)
    (once : List.Subperm (noncesOf hotkey calls) (freshNonces last clocks)) :
    EachEvent (fun _ e => e.input.request.hotkeySs58 = hotkey →
      e.answer = .ok true ∨
        (e.answer = .ok false ∧
          store.maxEntries ≤ (e.before.prune (store.oldest e.input.clockNs)).rows.length) ∨
        (e.answer = .error .overflowError ∧
          (fitsInteger (store.oldest e.input.clockNs) = false ∨
            fitsInteger e.input.request.nonceNs = false))) (trace store.checkAndStore start calls) := by
  have distinct : (noncesOf hotkey calls).Nodup := by
    obtain ⟨same, permuted, within⟩ := once
    exact permuted.nodup_iff.mp (within.nodup ((freshNonces_increasing last clocks).imp ne_of_lt))
  have history := eachEvent_of_invariant store.checkAndStore (Inserted start)
    (fun past e => Inserted start past e.before ∧
      e.answer = (store.checkAndStore e.before e.input).1)
    (fun _ hr => .inl hr) inserted_step (fun _ _ _ inv => ⟨inv, rfl⟩) calls
  intro past e future split own
  obtain ⟨inserted, answer⟩ := history past e future split
  have inputs : calls = past.map Event.input ++ e.input :: future.map Event.input := by
    rw [← trace_inputs store.checkAndStore start calls, split, List.map_append, List.map_cons]
  have nonces : noncesOf hotkey calls = noncesOf hotkey (past.map Event.input) ++
      e.input.request.nonceNs :: noncesOf hotkey (future.map Event.input) := by
    rw [inputs, noncesOf_append, noncesOf_cons own]
  rw [answer]
  refine answer_of_absent fun present => ?_
  rcases inserted _ present with first | ⟨f, hf, same⟩
  · -- the generator was past every nonce of the hotkey in the table
    have listed : e.input.request.nonceNs ∈ noncesOf hotkey calls := by
      rw [nonces]
      exact List.mem_append_right _ List.mem_cons_self
    have later := lt_freshNonces last clocks _ (once.subset listed)
    have earlier := older _ first own
    omega
  · rw [nonces] at distinct
    have earlier : e.input.request.nonceNs ∈ noncesOf hotkey (past.map Event.input) := by
      refine List.mem_map.mpr ⟨f.input, List.mem_filter.mpr ⟨List.mem_map_of_mem hf, ?_⟩, by rw [same]⟩
      rw [same]
      exact decide_eq_true own
    exact (List.nodup_append.mp distinct).2.2 _ earlier _ List.mem_cons_self rfl

/-- The second nonce of a stalled clock arrives before the first. -/
def reversedCalls : List NonceCall :=
  [⟨⟨"validator".toList, 124⟩, 130⟩, ⟨⟨"other".toList, 123⟩, 130⟩, ⟨⟨"validator".toList, 123⟩, 130⟩]

theorem reversedCalls_once :
    List.Subperm (noncesOf "validator".toList reversedCalls) (freshNonces (-1) [123, 123, 50]) := by
  have nonces : noncesOf "validator".toList reversedCalls = [124, 123] := by decide
  have generated : freshNonces (-1) [123, 123, 50] = [123, 124, 125] := by decide
  rw [nonces, generated]
  exact ⟨[123, 124], by decide, by decide⟩

theorem one_le_ttl : (1 : Int) ≤ 100 := by decide

theorem one_le_entries : (1 : Int) ≤ 2 := by decide

def smallStore : SQLiteNonceStore := ⟨100, 2, one_le_ttl, one_le_entries⟩

theorem one_le_threeEntries : (1 : Int) ≤ 3 := by decide

def threeEntryStore : SQLiteNonceStore := ⟨100, 3, one_le_ttl, one_le_threeEntries⟩

/-- With room for three nonces, all three are accepted. -/
theorem freshNonces_admitted_reversed :
    EachEvent (fun _ e => e.input.request.hotkeySs58 = "validator".toList →
      e.answer = .ok true ∨
        (e.answer = .ok false ∧
          threeEntryStore.maxEntries ≤
            (e.before.prune (threeEntryStore.oldest e.input.clockNs)).rows.length) ∨
        (e.answer = .error .overflowError ∧
          (fitsInteger (threeEntryStore.oldest e.input.clockNs) = false ∨
            fitsInteger e.input.request.nonceNs = false)))
      (trace threeEntryStore.checkAndStore .empty reversedCalls) ∧
    (trace threeEntryStore.checkAndStore .empty reversedCalls).map Event.answer =
      [.ok true, .ok true, .ok true] :=
  ⟨freshNonces_admitted threeEntryStore (fun _ hr => absurd hr List.not_mem_nil) reversedCalls_once,
    rfl⟩

end Admission

section Requests

/-- An exception that ends a request. -/
inductive RequestFault where
  /-- `HTTPException(status_code, detail={"code": code})`. -/
  | http (status : Nat) (code : Text)
  | raised (exception : Raised)
deriving DecidableEq

/-- What the server hands to the application. -/
structure HttpRequest where
  method : Text
  /-- `raw_path` of the scope, none where it is not bytes. -/
  rawPath : Option Bytes
  /-- `query_string` of the scope, empty by default, none where it is not bytes. -/
  queryString : Option Bytes
  headers : List (Bytes × Bytes)
  chunks : List Bytes

/-- `bytes.decode("latin-1")`. -/
def decodeLatin1 (data : Bytes) : Text := data.map fun b => Char.ofNat b.toNat

/-- `bytes.decode("ascii")`, none where it raises. -/
def decodeAscii (data : Bytes) : Option Text :=
  if data.all fun b => decide (b < 128) then some (decodeLatin1 data) else none

/-- `request.headers.get(name)`. The server lower-cases the names. -/
def headerValue (request : HttpRequest) (name : String) : Option Text :=
  (request.headers.find? fun header => header.1 = utf8 name.toList).map fun header =>
    decodeLatin1 header.2

def bodyTooLarge : RequestFault := .http 413 "body_too_large".toList

def contentLengthInvalid : RequestFault := .http 400 "content_length_invalid".toList

def readBoundedBody (request : HttpRequest) (maxBodyBytes : Int) : Except RequestFault Bytes :=
  if maxBodyBytes < 0 then
    .error (.raised (.valueError "max_body_bytes must be non-negative".toList))
  else
    match headerValue request "content-length" with
    | none => readBounded maxBodyBytes bodyTooLarge request.chunks
    | some contentLength =>
      match parseInt contentLength with
      | none => .error contentLengthInvalid
      | some length =>
        if length > maxBodyBytes then .error bodyTooLarge
        else readBounded maxBodyBytes bodyTooLarge request.chunks

def requestTargetInvalid : RequestFault := .http 400 "request_target_invalid".toList

def rawTarget (request : HttpRequest) : Except RequestFault Text :=
  match request.rawPath, request.queryString with
  | some path, some query =>
    match decodeAscii path, decodeAscii query with
    | some decodedPath, some decodedQuery =>
      if decodedPath.head? = some '/' then
        .ok (decodedPath ++ if decodedQuery = [] then [] else '?' :: decodedQuery)
      else .error requestTargetInvalid
    | _, _ => .error requestTargetInvalid
  | _, _ => .error requestTargetInvalid

/-- The `AuthError` classes that the adapter tells apart. -/
inductive AuthError where
  | malformedAuth
  | wrongReceiver
  | staleRequest
  | badSignature
  | replayedRequest
deriving DecidableEq

def AuthError.code : AuthError → Text
  | malformedAuth => "auth_malformed".toList
  | wrongReceiver => "auth_wrong_receiver".toList
  | staleRequest => "auth_stale".toList
  | badSignature => "auth_bad_signature".toList
  | replayedRequest => "auth_replayed".toList

inductive VerifyFault where
  | auth (error : AuthError)
  | raised (exception : Raised)

/-- What a request signature covers besides its nonce. -/
structure Signed where
  method : Text
  path : Text
  body : Bytes
  receiver : Text
deriving DecidableEq

/-- `nonce_store.check_and_store`. -/
abbrev NonceCheck (σ : Type) := Text → Int → σ → Except Raised Bool × σ

/-- `bt.http_auth.verify`, up to the hotkey of the caller that it returns. -/
abbrev HttpAuth (σ : Type) :=
  NonceCheck σ → List (Bytes × Bytes) → Signed → σ → Except VerifyFault Text × σ

structure AuthenticatedRequest where
  caller : Text
  rawBody : Bytes
  rawTarget : Text
deriving DecidableEq

variable {σ : Type}

/-- `authenticate_request`. -/
def authenticateRequest (verify : HttpAuth σ) (nonceStore : NonceCheck σ) (selfHotkey : Text)
    (maxBodyBytes : Int) (authorizeHotkey : Option (Text → Except Raised Bool))
    (request : HttpRequest) (s : σ) : Except RequestFault AuthenticatedRequest × σ :=
  match readBoundedBody request maxBodyBytes with
  | .error fault => (.error fault, s)
  | .ok body =>
    match rawTarget request with
    | .error fault => (.error fault, s)
    | .ok target =>
      match verify nonceStore request.headers ⟨request.method, target, body, selfHotkey⟩ s with
      | (.error (.auth error), s') => (.error (.http 401 error.code), s')
      | (.error (.raised exception), s') => (.error (.raised exception), s')
      | (.ok caller, s') =>
        match authorizeHotkey with
        | none => (.ok ⟨caller, body, target⟩, s')
        | some authorize =>
          match authorize caller with
          | .error exception => (.error (.raised exception), s')
          | .ok false => (.error (.http 403 "hotkey_forbidden".toList), s')
          | .ok true => (.ok ⟨caller, body, target⟩, s')

/-- The body is read exactly when neither what is announced nor what arrives is
too much, whatever the chunks. -/
theorem readBoundedBody_ok_iff {request : HttpRequest} {maxBodyBytes : Int} {body : Bytes} :
    readBoundedBody request maxBodyBytes = .ok body ↔
      request.chunks.flatten = body ∧ (body.length : Int) ≤ maxBodyBytes ∧
        ∀ contentLength, headerValue request "content-length" = some contentLength →
          ∃ length, parseInt contentLength = some length ∧ length ≤ maxBodyBytes := by
  unfold readBoundedBody
  by_cases negative : maxBodyBytes < 0
  · rw [if_pos negative]
    constructor
    · intro h
      cases h
    · rintro ⟨-, within, -⟩
      omega
  · have nonneg := Int.not_lt.mp negative
    rw [if_neg negative]
    cases headerValue request "content-length" with
    | none => simp [readBounded_ok_iff nonneg]
    | some contentLength =>
      dsimp only
      constructor
      · intro h
        cases hlength : parseInt contentLength with
        | none =>
          rw [hlength] at h
          cases h
        | some length =>
          rw [hlength] at h
          dsimp only at h
          split_ifs at h with excess
          obtain ⟨same, within⟩ := (readBounded_ok_iff nonneg).mp h
          refine ⟨same, within, fun other he => ?_⟩
          obtain rfl := Option.some.inj he
          exact ⟨length, hlength, Int.not_lt.mp excess⟩
      · rintro ⟨same, within, announced⟩
        obtain ⟨length, hlength, small⟩ := announced contentLength rfl
        rw [hlength]
        dsimp only
        rw [if_neg (Int.not_lt.mpr small)]
        exact (readBounded_ok_iff nonneg).mpr ⟨same, within⟩

/-- A request passes when its body and target can be read and both the scheme
and the hook accept the caller. -/
theorem authenticateRequest_ok_iff {verify : HttpAuth σ} {nonceStore : NonceCheck σ}
    {selfHotkey : Text} {maxBodyBytes : Int} {authorize : Text → Except Raised Bool}
    {request : HttpRequest} {s s' : σ} {authenticated : AuthenticatedRequest} :
    authenticateRequest verify nonceStore selfHotkey maxBodyBytes (some authorize) request s =
        (.ok authenticated, s') ↔
      readBoundedBody request maxBodyBytes = .ok authenticated.rawBody ∧
        rawTarget request = .ok authenticated.rawTarget ∧
        verify nonceStore request.headers
          ⟨request.method, authenticated.rawTarget, authenticated.rawBody, selfHotkey⟩ s =
            (.ok authenticated.caller, s') ∧
        authorize authenticated.caller = .ok true := by
  unfold authenticateRequest
  obtain ⟨caller, rawBody, target⟩ := authenticated
  constructor
  · intro h
    cases hbody : readBoundedBody request maxBodyBytes with
    | error fault =>
      rw [hbody] at h
      cases h
    | ok body =>
      cases htarget : rawTarget request with
      | error fault =>
        rw [hbody, htarget] at h
        cases h
      | ok path =>
        rcases hverify : verify nonceStore request.headers
          ⟨request.method, path, body, selfHotkey⟩ s with ⟨(error | exception) | name, after⟩
        · rw [hbody, htarget] at h
          dsimp only at h
          rw [hverify] at h
          cases h
        · rw [hbody, htarget] at h
          dsimp only at h
          rw [hverify] at h
          cases h
        · rw [hbody, htarget] at h
          dsimp only at h
          rw [hverify] at h
          dsimp only at h
          cases hallowed : authorize name with
          | error exception =>
            rw [hallowed] at h
            cases h
          | ok allowed =>
            rw [hallowed] at h
            cases allowed with
            | false => cases h
            | true =>
              cases h
              exact ⟨rfl, rfl, hverify, hallowed⟩
  · rintro ⟨hbody, htarget, hverify, hallowed⟩
    rw [hbody, htarget]
    dsimp only
    rw [hverify]
    dsimp only
    rw [hallowed]

end Requests

end RequestAuth
