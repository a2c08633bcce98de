import PlanRace.SubmissionAtomicity
import PlanRace.UndisturbedExchange

/-!
# Runs of the exchange

A miner serves requests on many connections at once and a validator verifies
whatever is delivered to it, in any order and any number of times. Requests and
deliveries come from the network, so anybody may have made them. The miner
signs with its hotkey in no other place than the endpoint.
-/

namespace ExchangeRuns

open JsonText ByteStrings PythonObjects CanonicalJson IndexAst TaskModels AuthV2 NonceStore RequestAuth ApiV2
  OptimizeEndpoint AuthAgreement SubmissionAtomicity Runs Sha256

section World

/-- What the two parties keep: the nonces and the requests in execution of the
miner, and the memory of the validator. -/
structure World where
  nonces : NonceTable
  serving : List (Nat × OptimizationRequestV2)
  replay : MemoryKeys

inductive Step where
  /-- A request reaches the endpoint: the store and the endpoint read their clocks. -/
  | arrive (connection : Nat) (http : HttpRequest) (clockNs now : Int)
  /-- The strategy of a connection comes to its end. -/
  | finish (connection : Nat) (reply : Reply OptimizationBundle) (completedAt : Int)
  /-- A response reaches the validator. -/
  | deliver (response : SignedOptimizationResponse) (verification : Verification)

inductive Answer where
  /-- No such connection, or one that is busy. -/
  | ignored
  | refused (fault : RequestFault)
  | admitted (request : OptimizationRequestV2)
  | replied (outcome : Except RequestFault SignedOptimizationResponse)
  | verified (outcome : Except VerificationError OptimizationBundle)

variable (service : MinerService NonceTable) (store : SQLiteNonceStore)
  (signatureVerifies : SignatureCheck) (maxEntries : Nat)

/-- `nonce_store.check_and_store` at a reading of the clock. -/
def nonceCheck (clockNs : Int) : NonceCheck NonceTable := fun hotkey nonceNs t =>
  store.checkAndStore t ⟨⟨hotkey, nonceNs⟩, clockNs⟩

/-- The part of `optimize` in front of the strategy. -/
def arrive (w : World) (connection : Nat) (http : HttpRequest) (clockNs now : Int) : Answer × World :=
  if connection ∈ w.serving.map Prod.fst then (.ignored, w)
  else
    match authenticate service (nonceCheck store clockNs) http w.nonces with
    | (.error fault, nonces) => (.refused fault, { w with nonces := nonces })
    | (.ok authenticated, nonces) =>
      match admission service authenticated now with
      | .error fault => (.refused fault, { w with nonces := nonces })
      | .ok request =>
        (.admitted request,
          { w with nonces := nonces, serving := (connection, request) :: w.serving })

/-- The part of `optimize` behind the strategy. -/
def finish (w : World) (connection : Nat) (reply : Reply OptimizationBundle) (completedAt : Int) :
    Answer × World :=
  match w.serving.find? fun s => s.1 = connection with
  | none => (.ignored, w)
  | some (_, request) =>
    (.replied (completion service request reply completedAt),
      { w with serving := w.serving.filter fun s => s.1 ≠ connection })

def deliver (w : World) (response : SignedOptimizationResponse) (verification : Verification) :
    Answer × World :=
  let verified := verifySignedResponse signatureVerifies (memoryCheckAndStore maxEntries) response
    verification w.replay
  (.verified verified.1, { w with replay := verified.2 })

def step (w : World) : Step → Answer × World
  | .arrive connection http clockNs now => arrive service store w connection http clockNs now
  | .finish connection reply completedAt => finish service w connection reply completedAt
  | .deliver response verification => deliver signatureVerifies maxEntries w response verification

abbrev ExchangeEvent := Event World Step Answer

end World

section Agreement

variable {service : MinerService NonceTable} {store : SQLiteNonceStore}
  {signatureVerifies : SignatureCheck} {maxEntries : Nat}

/-- What `btauth/1` promises: a caller that is named signed the method, target,
body and receiver of the request under a nonce, and the store admitted it. -/
def Sound (verify : HttpAuth NonceTable) (authentic : Text → Int → Signed → Prop) : Prop :=
  ∀ {check : NonceCheck NonceTable} {headers : List (Bytes × Bytes)} {signed : Signed}
    {t t' : NonceTable} {caller : Text}, verify check headers signed t = (.ok caller, t') →
      ∃ nonce, authentic caller nonce signed ∧ check caller nonce t = (.ok true, t')

/-- What is known of a request once the miner works on it: its sender signed it
under a nonce, which the store had not seen and now keeps. -/
structure Genuine (service : MinerService NonceTable) (store : SQLiteNonceStore)
    (authentic : Text → Int → Signed → Prop) (request : OptimizationRequestV2) (http : HttpRequest)
    (clockNs now : Int) (nonces nonces' : NonceTable) : Prop where
  receiver : request.minerHotkey.val = service.signer.ss58Address
  authorized : service.authorizeHotkey request.validatorHotkey.val = .ok true
  signed : ∃ nonce path body, body = http.chunks.flatten ∧ service.readRequest body = some request ∧
    authentic request.validatorHotkey.val nonce
      ⟨http.method, path, body, service.signer.ss58Address⟩ ∧
    store.checkAndStore nonces ⟨⟨request.validatorHotkey.val, nonce⟩, clockNs⟩ = (.ok true, nonces')
  timely : (request.issuedAtUnixMs : Int) ≤ now + 5000 ∧ now < request.expiresAtUnixMs ∧
    now < request.task.deadlineUnixMs

/-- The request was admitted on the connection among these events. -/
def AdmittedIn (service : MinerService NonceTable) (store : SQLiteNonceStore)
    (authentic : Text → Int → Signed → Prop) (events : List ExchangeEvent) (connection : Nat)
    (request : OptimizationRequestV2) : Prop :=
  ∃ e ∈ events, ∃ http clockNs now, e.input = .arrive connection http clockNs now ∧
    e.answer = .admitted request ∧
    Genuine service store authentic request http clockNs now e.before.nonces e.after.nonces

theorem genuine_of_admitted {authentic : Text → Int → Signed → Prop}
    (sound : Sound service.verify authentic) {http : HttpRequest} {t t' : NonceTable}
    {authenticated : AuthenticatedRequest} {clockNs now : Int} {request : OptimizationRequestV2}
    (passed : authenticate service (nonceCheck store clockNs) http t = (.ok authenticated, t'))
    (admitted : Admitted service authenticated now request) :
    Genuine service store authentic request http clockNs now t t' := by
  obtain ⟨hbody, -, verified, allowed⟩ := authenticateRequest_ok_iff.mp passed
  obtain ⟨same, -, -⟩ := readBoundedBody_ok_iff.mp hbody
  obtain ⟨nonce, signed, fresh⟩ := sound verified
  rw [admitted.caller] at signed allowed fresh
  exact ⟨admitted.receiver, allowed, ⟨nonce, _, _, same.symm, admitted.body, signed, fresh⟩,
    admitted.begun, admitted.alive, admitted.due⟩

variable (store) in
theorem arrive_cases {authentic : Text → Int → Signed → Prop} (sound : Sound service.verify authentic)
    (w : World) (connection : Nat) (http : HttpRequest) (clockNs now : Int) :
    (∃ request nonces, arrive service store w connection http clockNs now =
        (.admitted request, { w with nonces := nonces, serving := (connection, request) :: w.serving }) ∧
        Genuine service store authentic request http clockNs now w.nonces nonces) ∨
      ∃ answer nonces, (answer = .ignored ∨ ∃ fault, answer = .refused fault) ∧
        arrive service store w connection http clockNs now = (answer, { w with nonces := nonces }) := by
  unfold arrive
  by_cases busy : connection ∈ w.serving.map Prod.fst
  · rw [if_pos busy]
    exact .inr ⟨_, w.nonces, .inl rfl, rfl⟩
  · rw [if_neg busy]
    rcases passed : authenticate service (nonceCheck store clockNs) http w.nonces with
      ⟨fault | authenticated, nonces⟩
    · exact .inr ⟨_, nonces, .inr ⟨fault, rfl⟩, rfl⟩
    · dsimp only
      cases hadmission : admission service authenticated now with
      | error fault => exact .inr ⟨_, nonces, .inr ⟨fault, rfl⟩, rfl⟩
      | ok request =>
        exact .inl ⟨request, nonces, rfl, genuine_of_admitted sound passed
          (admission_ok_iff.mp hadmission)⟩

theorem arrive_of_admitted {w : World} {connection : Nat} {http : HttpRequest} {clockNs now : Int}
    {authenticated : AuthenticatedRequest} {nonces : NonceTable} {request : OptimizationRequestV2}
    (free : connection ∉ w.serving.map Prod.fst)
    (passed : authenticate service (nonceCheck store clockNs) http w.nonces =
      (.ok authenticated, nonces))
    (admitted : admission service authenticated now = .ok request) :
    arrive service store w connection http clockNs now =
      (.admitted request, { w with nonces := nonces, serving := (connection, request) :: w.serving }) := by
  unfold arrive
  rw [if_neg free, passed]
  dsimp only
  rw [admitted]

variable (service) in
theorem finish_cases (w : World) (connection : Nat) (reply : Reply OptimizationBundle)
    (completedAt : Int) :
    (∃ request, (connection, request) ∈ w.serving ∧
        finish service w connection reply completedAt =
          (.replied (completion service request reply completedAt),
            { w with serving := w.serving.filter fun s => s.1 ≠ connection })) ∨
      finish service w connection reply completedAt = (.ignored, w) := by
  unfold finish
  cases found : w.serving.find? fun s => s.1 = connection with
  | none => exact .inr rfl
  | some entry =>
    obtain ⟨c, request⟩ := entry
    have own : decide (c = connection) = true :=
      List.find?_some (p := fun s : Nat × OptimizationRequestV2 => decide (s.1 = connection)) found
    obtain rfl := of_decide_eq_true own
    exact .inl ⟨request, List.mem_of_find?_eq_some found, rfl⟩

/-- The keys of the accepted responses among these events. -/
def AcceptedKey (events : List ExchangeEvent) (key : ReplayKey) : Prop :=
  ∃ e ∈ events, ∃ response verification bundle, e.input = .deliver response verification ∧
    e.answer = .verified (.ok bundle) ∧ responseKey response = key

/-- Every request in execution was admitted, and the memory of the validator
holds the keys of what it has accepted. -/
structure Remembered (service : MinerService NonceTable) (store : SQLiteNonceStore)
    (authentic : Text → Int → Signed → Prop) (past : List ExchangeEvent) (w : World) : Prop where
  serving : ∀ s ∈ w.serving, AdmittedIn service store authentic past s.1 s.2
  accepted : ∀ key, AcceptedKey past key → key ∈ w.replay.keys

variable {authentic : Text → Int → Signed → Prop}

theorem AdmittedIn.mono {events later : List ExchangeEvent} {connection : Nat}
    {request : OptimizationRequestV2} (h : AdmittedIn service store authentic events connection request)
    (within : ∀ e ∈ events, e ∈ later) : AdmittedIn service store authentic later connection request := by
  obtain ⟨a, ha, arrived⟩ := h
  exact ⟨a, within a ha, arrived⟩

theorem acceptedKey_concat {past : List ExchangeEvent} {e : ExchangeEvent} {key : ReplayKey}
    (h : AcceptedKey (past ++ [e]) key) : AcceptedKey past key ∨ AcceptedKey [e] key := by
  obtain ⟨f, hf, accepted⟩ := h
  rcases List.mem_append.mp hf with old | new
  · exact .inl ⟨f, old, accepted⟩
  · exact .inr ⟨f, new, accepted⟩

/-- What one event has to explain. -/
theorem remembered_concat {past : List ExchangeEvent} {w : World}
    (inv : Remembered service store authentic past w) {e : ExchangeEvent}
    (serving : ∀ s ∈ e.after.serving, s ∈ w.serving ∨ AdmittedIn service store authentic [e] s.1 s.2)
    (memory : ∀ key, key ∈ w.replay.keys ∨ AcceptedKey [e] key → key ∈ e.after.replay.keys) :
    Remembered service store authentic (past ++ [e]) e.after where
  serving s hs := by
    rcases serving s hs with old | new
    · exact (inv.serving s old).mono fun f hf => List.mem_append_left _ hf
    · exact new.mono fun f hf => List.mem_append_right _ hf
  accepted key h := memory key ((acceptedKey_concat h).imp_left (inv.accepted key))

theorem not_acceptedKey {e : ExchangeEvent} {key : ReplayKey}
    (other : ∀ response verification, e.input ≠ .deliver response verification) :
    ¬ AcceptedKey [e] key := by
  rintro ⟨f, hf, response, verification, bundle, input, -⟩
  rw [List.mem_singleton] at hf
  subst hf
  exact other response verification input

theorem remembered_arrive (sound : Sound service.verify authentic) {past : List ExchangeEvent}
    {w : World} (inv : Remembered service store authentic past w) (connection : Nat) (http : HttpRequest)
    (clockNs now : Int) :
    Remembered service store authentic
      (past ++ [event (step service store signatureVerifies maxEntries) w
        (.arrive connection http clockNs now)])
      (arrive service store w connection http clockNs now).2 := by
  refine remembered_concat inv (fun s hs => ?_) fun key h => ?_
  · change s ∈ (arrive service store w connection http clockNs now).2.serving at hs
    rcases arrive_cases store sound w connection http clockNs now with
      ⟨request, nonces, outcome, genuine⟩ | ⟨answer, nonces, -, outcome⟩
    · rw [outcome] at hs
      rcases List.mem_cons.mp hs with rfl | old
      · have kept : (arrive service store w connection http clockNs now).2.nonces = nonces :=
          congrArg (fun o => o.2.nonces) outcome
        exact .inr ⟨_, List.mem_singleton_self _, http, clockNs, now, rfl, congrArg Prod.fst outcome,
          kept.symm ▸ genuine⟩
      · exact .inl old
    · rw [outcome] at hs
      exact .inl hs
  · have old := h.resolve_right (not_acceptedKey fun _ _ => Step.noConfusion)
    change key ∈ (arrive service store w connection http clockNs now).2.replay.keys
    rcases arrive_cases store sound w connection http clockNs now with
      ⟨request, nonces, outcome, -⟩ | ⟨answer, nonces, -, outcome⟩
    · rw [outcome]
      exact old
    · rw [outcome]
      exact old

theorem remembered_finish {past : List ExchangeEvent} {w : World}
    (inv : Remembered service store authentic past w) (connection : Nat)
    (reply : Reply OptimizationBundle) (completedAt : Int) :
    Remembered service store authentic
      (past ++ [event (step service store signatureVerifies maxEntries) w
        (.finish connection reply completedAt)])
      (finish service w connection reply completedAt).2 := by
  refine remembered_concat inv (fun s hs => .inl ?_) fun key h => ?_
  · change s ∈ (finish service w connection reply completedAt).2.serving at hs
    rcases finish_cases service w connection reply completedAt with ⟨request, -, outcome⟩ | outcome
    · rw [outcome] at hs
      exact (List.mem_filter.mp hs).1
    · rw [outcome] at hs
      exact hs
  · have old := h.resolve_right (not_acceptedKey fun _ _ => Step.noConfusion)
    change key ∈ (finish service w connection reply completedAt).2.replay.keys
    rcases finish_cases service w connection reply completedAt with ⟨request, -, outcome⟩ | outcome
    · rw [outcome]
      exact old
    · rw [outcome]
      exact old

theorem remembered_deliver {past : List ExchangeEvent} {w : World}
    (inv : Remembered service store authentic past w) (response : SignedOptimizationResponse)
    (verification : Verification) :
    Remembered service store authentic
      (past ++ [event (step service store signatureVerifies maxEntries) w
        (.deliver response verification)])
      (deliver signatureVerifies maxEntries w response verification).2 := by
  refine remembered_concat inv (fun s hs => .inl hs) fun key h => ?_
  change key ∈ (verifySignedResponse signatureVerifies (memoryCheckAndStore maxEntries) response
    verification w.replay).2.keys
  rcases @verifySignedResponse_cases signatureVerifies maxEntries response verification w.replay with
    ⟨e, outcome⟩ | ⟨m, outcome, -, keys⟩
  · rw [outcome]
    refine h.resolve_right ?_
    rintro ⟨f, hf, _, _, bundle, input, answer, -⟩
    rw [List.mem_singleton] at hf
    subst hf
    have failed : Answer.verified (.error e) = .verified (.ok bundle) := by
      rw [← answer]
      exact congrArg (fun o => Answer.verified o.1) outcome.symm
    cases failed
  · rw [outcome, keys]
    rcases h with old | ⟨f, hf, _, _, bundle, input, answer, rfl⟩
    · exact List.mem_cons_of_mem _ old
    · rw [List.mem_singleton] at hf
      subst hf
      cases input
      exact List.mem_cons_self

theorem remembered_step (sound : Sound service.verify authentic) (past : List ExchangeEvent)
    (w : World) (i : Step) (inv : Remembered service store authentic past w) :
    Remembered service store authentic
      (past ++ [event (step service store signatureVerifies maxEntries) w i])
      (step service store signatureVerifies maxEntries w i).2 := by
  cases i with
  | arrive connection http clockNs now => exact remembered_arrive sound inv connection http clockNs now
  | finish connection reply completedAt => exact remembered_finish inv connection reply completedAt
  | deliver response verification => exact remembered_deliver inv response verification

/-- The miner's hotkey verifies only what the endpoint has signed before. -/
def Unforgeable (service : MinerService NonceTable) (signatureVerifies : SignatureCheck)
    (past : List ExchangeEvent) (e : ExchangeEvent) : Prop :=
  ∀ response verification, e.input = .deliver response verification →
    response.minerHotkey.val = service.signer.ss58Address →
    signatureVerifies response.minerHotkey (optimizationResponseSigningBytes response)
      (fromHex response.signature.val) = true →
    ∃ f ∈ past, ∃ served, f.answer = .replied (.ok served) ∧
      optimizationResponseSigningBytes served = optimizationResponseSigningBytes response

/-- Among these events the miner admitted the request and its strategy came to
the bundle, which it checked and signed. -/
structure Served (service : MinerService NonceTable) (store : SQLiteNonceStore)
    (authentic : Text → Int → Signed → Prop) (past : List ExchangeEvent)
    (request : OptimizationRequestV2) (bundle : OptimizationBundle)
    (response : SignedOptimizationResponse) : Prop where
  exchange : ∃ before f after, past = before ++ f :: after ∧
    ∃ connection completedAt, f.input = .finish connection (.artifact bundle) completedAt ∧
      AdmittedIn service store authentic before connection request ∧
      Completed request bundle completedAt ∧ (response.issuedAtUnixMs : Int) = completedAt
  expires : response.expiresAtUnixMs = request.expiresAtUnixMs

/-- Every signed answer is to a request that was admitted before. -/
theorem replied_of_answer {past : List ExchangeEvent} {w : World} {i : Step}
    (sound : Sound service.verify authentic) (inv : Remembered service store authentic past w)
    {response : SignedOptimizationResponse}
    (answer : (step service store signatureVerifies maxEntries w i).1 = .replied (.ok response)) :
    ∃ connection reply completedAt request, i = .finish connection reply completedAt ∧
      AdmittedIn service store authentic past connection request ∧
      completion service request reply completedAt = .ok response := by
  cases i with
  | arrive connection http clockNs now =>
    change (arrive service store w connection http clockNs now).1 = _ at answer
    rcases arrive_cases store sound w connection http clockNs now with
      ⟨request, nonces, outcome, -⟩ | ⟨other, nonces, rfl | ⟨fault, rfl⟩, outcome⟩
    · rw [outcome] at answer
      cases answer
    · rw [outcome] at answer
      cases answer
    · rw [outcome] at answer
      cases answer
  | finish connection reply completedAt =>
    change (finish service w connection reply completedAt).1 = _ at answer
    rcases finish_cases service w connection reply completedAt with ⟨request, hin, outcome⟩ | outcome
    · rw [outcome] at answer
      exact ⟨connection, reply, completedAt, request, rfl, inv.serving _ hin, Answer.replied.inj answer⟩
    · rw [outcome] at answer
      cases answer
  | deliver response verification => cases answer

/-- In every run, whatever the network does, a response that the validator accepts
in the name of the miner was made by the endpoint for this very request, with
the artifact of its strategy, after the validator's signature on the request had
been verified and its nonce spent; and no key is accepted twice. -/
theorem accepted_was_served (sound : Sound service.verify authentic) {w : World}
    (idle : w.serving = []) {steps : List Step}
    (unforgeable : EachEvent (Unforgeable service signatureVerifies)
      (trace (step service store signatureVerifies maxEntries) w steps)) :
    EachEvent (fun past e => ∀ response verification bundle,
      e.input = .deliver response verification → e.answer = .verified (.ok bundle) →
      ¬ AcceptedKey past (responseKey response) ∧
        (verification.request.minerHotkey.val = service.signer.ss58Address →
          ∃ request, Served service store authentic past request bundle response ∧
            (request = verification.request ∨
              Collision [requestInput request, requestInput verification.request])))
      (trace (step service store signatureVerifies maxEntries) w steps) := by
  have start : Remembered service store authentic [] w := by
    refine ⟨fun s hs => ?_, fun key h => ?_⟩
    · rw [idle] at hs
      cases hs
    · obtain ⟨e, he, -⟩ := h
      cases he
  have history := eachEvent_of_invariant (step service store signatureVerifies maxEntries)
    (Remembered service store authentic) (fun past e => Remembered service store authentic past e.before ∧
      e.answer = (step service store signatureVerifies maxEntries e.before e.input).1)
    start (remembered_step sound) (fun _ _ _ inv => ⟨inv, rfl⟩) steps
  intro past e future split response v bundle input answer
  obtain ⟨inv, computed⟩ := history past e future split
  have accepted : (verifySignedResponse signatureVerifies (memoryCheckAndStore maxEntries) response v
      e.before.replay).1 = .ok bundle := by
    rw [answer, input] at computed
    exact (Answer.verified.inj computed).symm
  refine ⟨fun known => ?_, fun own => ?_⟩
  · have present := inv.accepted _ known
    rcases @verifySignedResponse_cases signatureVerifies maxEntries response v e.before.replay with
      ⟨fault, outcome⟩ | ⟨m, -, fresh, -⟩
    · rw [outcome] at accepted
      cases accepted
    · exact fresh present
  · obtain ⟨passed, -, rfl⟩ := verifySignedResponse_ok_iff.mp accepted
    obtain ⟨commits, verifies⟩ := commits_of_checkResponse passed
    have named : response.minerHotkey.val = service.signer.ss58Address := by
      rw [commits.minerHotkey]
      exact own
    obtain ⟨f, hf, served, replied, bytes⟩ :=
      unforgeable past e future split response v input named verifies
    obtain ⟨before, after, rfl⟩ := List.append_of_mem hf
    have earlier : trace (step service store signatureVerifies maxEntries) w steps =
        before ++ f :: (after ++ e :: future) := by
      rw [split, List.append_assoc, List.cons_append]
    obtain ⟨inv', computed'⟩ := history before f _ earlier
    obtain ⟨connection, reply, completedAt, request, input', admitted, completed⟩ :=
      replied_of_answer sound inv' (computed'.symm.trans replied)
    obtain ⟨artifact, rfl, fine, signed⟩ := completion_ok_iff.mp completed
    obtain ⟨digest, made, issued, expires⟩ := commits_of_signed signed
    have same := commits_congr bytes commits
    obtain rfl := made.symm.trans same.artifact
    refine ⟨request, ⟨⟨before, f, after, rfl, connection, completedAt, input', admitted, fine, ?_⟩, ?_⟩,
      request_eq_or_collision (digest.symm.trans same.requestDigest)⟩
    · rw [← issued, same.interval.1]
    · have times := same.interval.2
      omega

end Agreement

/-! A request arrives, its strategy ends and the response is delivered. -/
namespace Sample

open UndisturbedExchange ValidatorClient ReplayProtection

def idle : World := ⟨.empty, [], ⟨[], List.nodup_nil⟩⟩

def verification : Verification := verificationOf Sample.call 1500

def steps : List Step :=
  [.arrive 0 Sample.http 0 1000, .finish 0 (.artifact TaskModels.Sample.artifact) 1000,
    .deliver boundaryResponse verification]

def authentic (caller : Text) (nonce : Int) (signed : Signed) : Prop :=
  caller = TaskModels.Sample.validatorHotkey.val ∧ nonce = 7 ∧
    signed.receiver = TaskModels.Sample.minerHotkey.val

theorem sound : Sound Sample.service.verify authentic := by
  intro check headers signed t t' caller h
  change Sample.verify check headers signed t = _ at h
  unfold Sample.verify at h
  by_cases receiver : signed.receiver = TaskModels.Sample.minerHotkey.val
  · rw [if_pos receiver] at h
    rcases checked : check TaskModels.Sample.validatorHotkey.val 7 t with ⟨exception | fresh, next⟩
    · rw [checked] at h
      cases h
    · rw [checked] at h
      cases fresh with
      | false => cases h
      | true =>
        cases h
        exact ⟨7, ⟨rfl, rfl, receiver⟩, checked⟩
  · rw [if_neg receiver] at h
    cases h

theorem arrive_idle : ∃ nonces, arrive Sample.service smallStore idle 0 Sample.http 0 1000 =
    (.admitted TaskModels.Sample.request,
      ⟨nonces, [(0, TaskModels.Sample.request)], idle.replay⟩) := by
  obtain ⟨path, nonces, passed⟩ :=
    authenticate_undisturbed Sample.undisturbed Sample.dumpRequest_small
  exact ⟨nonces, arrive_of_admitted (by decide) passed (admission_ok_iff.mpr
    ⟨Sample.undisturbed.requestText, rfl, rfl, by decide, by decide, by decide, by decide⟩)⟩

theorem completion_artifact : completion Sample.service TaskModels.Sample.request
    (.artifact TaskModels.Sample.artifact) 1000 = .ok boundaryResponse :=
  completion_ok_iff.mpr ⟨_, rfl, ⟨by decide, by decide, rfl, rfl, Sample.artifact_small⟩,
    boundaryResponse_signed⟩

theorem unforgeable_of_other {past : List ExchangeEvent} {e : ExchangeEvent}
    (other : ∀ response v, e.input ≠ .deliver response v) :
    Unforgeable Sample.service boundarySignatureVerifies past e :=
  fun response v input => absurd input (other response v)

/-- The second event, in the state that the first has left. -/
theorem finish_answer : (event (step Sample.service smallStore boundarySignatureVerifies 100)
    (step Sample.service smallStore boundarySignatureVerifies 100 idle (.arrive 0 Sample.http 0 1000)).2
    (.finish 0 (.artifact TaskModels.Sample.artifact) 1000)).answer = .replied (.ok boundaryResponse) := by
  obtain ⟨nonces, h⟩ := arrive_idle
  have after : (step Sample.service smallStore boundarySignatureVerifies 100 idle
      (.arrive 0 Sample.http 0 1000)).2 =
        ⟨nonces, [(0, TaskModels.Sample.request)], idle.replay⟩ := congrArg Prod.snd h
  rw [after]
  exact congrArg Answer.replied completion_artifact

theorem unforgeable : EachEvent (Unforgeable Sample.service boundarySignatureVerifies)
    (trace (step Sample.service smallStore boundarySignatureVerifies 100) idle steps) := by
  refine (eachEvent_concat _ (trace _ idle (steps.take 2)) _).mpr ⟨?_, ?_⟩
  · refine (eachEvent_concat _ (trace _ idle (steps.take 1)) _).mpr ⟨?_, ?_⟩
    · exact (eachEvent_concat _ [] _).mpr ⟨eachEvent_nil _, unforgeable_of_other fun _ _ => Step.noConfusion⟩
    · exact unforgeable_of_other fun _ _ => Step.noConfusion
  · intro response v input _ _
    cases input
    exact ⟨_, List.mem_cons_of_mem _ List.mem_cons_self, boundaryResponse, finish_answer, rfl⟩

/-- The theorem on the run that accepts the artifact. -/
theorem steps_served :
    EachEvent (fun past e => ∀ response v bundle, e.input = .deliver response v →
      e.answer = .verified (.ok bundle) →
      ¬ AcceptedKey past (responseKey response) ∧
        (v.request.minerHotkey.val = Sample.service.signer.ss58Address →
          ∃ request, Served Sample.service smallStore authentic past request bundle response ∧
            (request = v.request ∨ Collision [requestInput request, requestInput v.request])))
      (trace (step Sample.service smallStore boundarySignatureVerifies 100) idle steps) :=
  accepted_was_served sound rfl unforgeable

end Sample

end ExchangeRuns
