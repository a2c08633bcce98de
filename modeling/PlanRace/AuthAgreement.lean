import PlanRace.ReplayProtection

/-!
# Agreement of signed responses

Hotkey holders sign messages, an adversary assembles responses out of
whatever it likes, and a verifier accepts some of them. With an ideal
signature scheme, an accepted response was signed for exactly the request it
answers, up to collisions of the request digest.
-/

namespace AuthAgreement

open ByteStrings Sha256 CanonicalJson WireText IndexAst TaskModels AuthV2 ReplayProtection

/-- A signature verifies only for a message that the holder of the hotkey signed. -/
def Ideal (signatureVerifies : SignatureCheck) (signed : Hotkey → Bytes → Prop) : Prop :=
  ∀ hotkey message signature, signatureVerifies hotkey message signature = true →
    signed hotkey message

/-- The bytes that a request digest hashes. -/
def requestInput (request : OptimizationRequestV2) : Bytes :=
  hashInput requestDomainV2 (modelDump request)

/-- A signed payload names this request, both peers, the artifact and the
validity interval of the response. -/
structure Commits (payload : SignedOptimizationResponse) (request : OptimizationRequestV2)
    (artifact : OptimizationBundle) (response : SignedOptimizationResponse) : Prop where
  requestDigest : payload.requestDigest.val = optimizationRequestDigest request
  minerHotkey : payload.minerHotkey = request.minerHotkey
  validatorHotkey : payload.validatorHotkey = request.validatorHotkey
  requestId : payload.requestId = request.requestId
  requestNonce : payload.requestNonce = request.requestNonce
  taskId : payload.taskId = request.task.taskId
  artifact : payload.artifact = artifact
  interval : payload.issuedAtUnixMs = response.issuedAtUnixMs ∧
    payload.expiresAtUnixMs = response.expiresAtUnixMs

/-- A request digest names one request, collisions apart. -/
theorem request_eq_or_collision {request request' : OptimizationRequestV2}
    (h : optimizationRequestDigest request' = optimizationRequestDigest request) :
    request' = request ∨ Collision [requestInput request', requestInput request] := by
  rcases (digestText_eq_iff_or_collision _ _).mp h with hinput | collision
  · exact .inl (modelDump_inj _ _ ((hashInput_eq_iff _ _ _ _).mp hinput).2)
  · exact .inr collision

variable {signatureVerifies : SignatureCheck}

/-- What the checks of the verifier establish about the response itself. -/
theorem commits_of_checkResponse {response : SignedOptimizationResponse} {v : Verification}
    (passed : checkResponse signatureVerifies response v = .ok ()) :
    Commits response v.request response.artifact response ∧
      signatureVerifies response.minerHotkey (optimizationResponseSigningBytes response)
        (fromHex response.signature.val) = true := by
  obtain ⟨-, checks⟩ := checkResponse_ok_iff.mp passed
  simp only [responseChecks, List.forall_mem_cons, decide_eq_false_iff_not, not_not,
    Bool.not_eq_eq_eq_not, Bool.not_false] at checks
  obtain ⟨-, hminer, hvalidator, hid, htask, hnonce, hdigest, -, -, -, -, -, -, hsignature, -⟩ :=
    checks
  exact ⟨⟨hdigest, hminer, hvalidator, hid, hnonce, htask, rfl, rfl, rfl⟩, hsignature⟩

/-- The signed bytes fix everything a payload commits to. -/
theorem commits_congr {x y response : SignedOptimizationResponse} {request : OptimizationRequestV2}
    {artifact : OptimizationBundle}
    (he : optimizationResponseSigningBytes x = optimizationResponseSigningBytes y)
    (h : Commits y request artifact response) : Commits x request artifact response := by
  have hsame : withSignature x y.signature = y := by
    refine optimizationResponseSigningBytes_binds ?_ rfl
    rw [optimizationResponseSigningBytes_withSignature, he]
  rw [← hsame] at h
  exact ⟨h.requestDigest, h.minerHotkey, h.validatorHotkey, h.requestId, h.requestNonce, h.taskId,
    h.artifact, h.interval⟩

/-- What `sign_optimization_response` puts into the payload it signs. -/
theorem commits_of_signed {request : OptimizationRequestV2} {artifact : OptimizationBundle}
    {signer : ResponseSigner} {issued expires : Int} {response : SignedOptimizationResponse}
    (signed : signOptimizationResponse request artifact signer issued expires = .ok response) :
    response.requestDigest.val = optimizationRequestDigest request ∧ response.artifact = artifact ∧
      (response.issuedAtUnixMs : Int) = issued ∧ (response.expiresAtUnixMs : Int) = expires := by
  obtain ⟨-, -, -, task, times, size, rfl⟩ := signOptimizationResponse_ok signed
  obtain ⟨⟨hissued, hexpires⟩, -⟩ := times
  refine ⟨rfl, rfl, ?_, ?_⟩
  · change ((issued.toNat : Nat) : Int) = issued
    omega
  · change ((expires.toNat : Nat) : Int) = expires
    omega

/-- Whoever makes a verifier accept, the named miner signed a payload for
exactly this request with the accepted artifact and interval; and a payload
made for any request is accepted for that request only. -/
theorem verifySignedResponse_agreement {σ : Type} {signed : Hotkey → Bytes → Prop}
    (ideal : Ideal signatureVerifies signed) {replayStore : ReplayStore σ}
    {response : SignedOptimizationResponse} {v : Verification} {s : σ} {bundle : OptimizationBundle}
    (accepted : (verifySignedResponse signatureVerifies replayStore response v s).1 = .ok bundle) :
    ∃ payload, signed v.request.minerHotkey (optimizationResponseSigningBytes payload) ∧
      Commits payload v.request bundle response ∧
      (∀ request', payload.requestDigest.val = optimizationRequestDigest request' →
        request' = v.request ∨ Collision [requestInput request', requestInput v.request]) ∧
      ∀ request' artifact' signer issued expires response',
        signOptimizationResponse request' artifact' signer issued expires = .ok response' →
        optimizationResponseSigningBytes response' = optimizationResponseSigningBytes payload →
        artifact' = bundle ∧ issued = response.issuedAtUnixMs ∧
          expires = response.expiresAtUnixMs ∧
          (request' = v.request ∨ Collision [requestInput request', requestInput v.request]) := by
  obtain ⟨passed, -, rfl⟩ := verifySignedResponse_ok_iff.mp accepted
  obtain ⟨commits, verifies⟩ := commits_of_checkResponse passed
  refine ⟨response, commits.minerHotkey ▸ ideal _ _ _ verifies, commits, ?_, ?_⟩
  · intro request' h
    exact request_eq_or_collision (h.symm.trans commits.requestDigest)
  · intro request' artifact' signer issued expires response' hsigned hbytes
    obtain ⟨hdigest, hartifact, hissued, hexpires⟩ := commits_of_signed hsigned
    have commits' := commits_congr hbytes commits
    refine ⟨hartifact.symm.trans commits'.artifact, ?_, ?_, ?_⟩
    · rw [← hissued, commits'.interval.1]
    · rw [← hexpires, commits'.interval.2]
    · exact request_eq_or_collision (hdigest.symm.trans commits'.requestDigest)

/-- A signature scheme with one holder, who signs whatever it is given. -/
def boundarySigned (hotkey : Hotkey) (_ : Bytes) : Prop := hotkey = Sample.minerHotkey

theorem boundary_ideal : Ideal boundarySignatureVerifies boundarySigned := by
  intro hotkey message signature h
  simp only [boundarySignatureVerifies, Bool.and_eq_true, decide_eq_true_eq] at h
  exact h.1

theorem boundaryResponse_agreement :
    ∃ payload, boundarySigned Sample.request.minerHotkey (optimizationResponseSigningBytes payload) ∧
      Commits payload Sample.request Sample.artifact boundaryResponse ∧
      (∀ request', payload.requestDigest.val = optimizationRequestDigest request' →
        request' = Sample.request ∨
          Collision [requestInput request', requestInput Sample.request]) ∧
      ∀ request' artifact' signer issued expires response',
        signOptimizationResponse request' artifact' signer issued expires = .ok response' →
        optimizationResponseSigningBytes response' = optimizationResponseSigningBytes payload →
        artifact' = Sample.artifact ∧ issued = boundaryResponse.issuedAtUnixMs ∧
          expires = boundaryResponse.expiresAtUnixMs ∧
          (request' = Sample.request ∨
            Collision [requestInput request', requestInput Sample.request]) := by
  have accepted : (verifySignedResponse boundarySignatureVerifies (checkAndStore 100000 1999)
      boundaryResponse (boundaryDelivery 1999).verification .empty).1 = .ok Sample.artifact := by
    obtain ⟨_, h⟩ := boundaryDelivery_accepted 1999 (by decide) (by decide) (t := .empty) rfl
    exact congrArg Prod.fst h
  exact verifySignedResponse_agreement boundary_ideal accepted

end AuthAgreement
