import PlanRace.AuthAgreement

/-!
# The signer and the verifier

Whatever `sign_optimization_response` returns passes every check of
`verify_signed_response` but the two about the present instant: the issue time
may lie ahead by the clock skew, and the expiry may be now.
-/

namespace SignerVerifier

open ByteStrings CanonicalJson WireText IndexAst TaskModels AuthV2 ReplayProtection

/-- The replay store lacks the row's key and has room for the row. -/
def Admits {σ : Type} (replayStore : ReplayStore σ) (row : ReplayRow) (s : σ) : Prop :=
  (replayStore row s).1 = .ok true

theorem memory_admits_iff (maxEntries : Nat) (row : ReplayRow) (memory : MemoryKeys) :
    Admits (memoryCheckAndStore maxEntries) row memory ↔
      row.key ∉ memory.keys ∧ memory.keys.length < maxEntries := by
  unfold Admits memoryCheckAndStore
  by_cases fresh : row.key ∉ memory.keys
  · by_cases full : memory.keys.length ≥ maxEntries
    · simp [fresh, full]
    · simp [fresh, full, Nat.not_le.mp full]
  · simp [fresh]

theorem sqlite_admits_iff (maxEntries : Nat) (clock : Int) (row : ReplayRow) (table : ReplayTable) :
    Admits (checkAndStore maxEntries clock) row table ↔
      (fitsInteger clock = true ∧ row.fits = true) ∧ row.key ∉ (table.prune clock).keys ∧
        (table.prune clock).rows.length < maxEntries := by
  unfold Admits checkAndStore
  by_cases bound : fitsInteger clock = true
  · by_cases full : (table.prune clock).rows.length ≥ maxEntries
    · simp [bound, full]
    · by_cases fits : row.fits = true
      · by_cases fresh : row.key ∉ (table.prune clock).keys
        · simp [bound, full, fits, fresh, Nat.not_le.mp full]
        · simp [bound, full, fits, fresh]
      · simp [bound, full, fits]
  · simp [bound]

variable {signatureVerifies : SignatureCheck} {artifact : OptimizationBundle}
  {signer : ResponseSigner} {issued expires : Int} {response : SignedOptimizationResponse}
  {v : Verification}

/-- What the signer checked leaves the verifier with the two checks of the
present instant. -/
theorem checkResponse_signed_iff
    (signed : signOptimizationResponse v.request artifact signer issued expires = .ok response)
    (genuine : ∀ m, signatureVerifies v.request.minerHotkey m (signer.sign m) = true)
    (skew : 0 ≤ v.maxClockSkewMs)
    (listed : v.metagraphHotkeys v.expectedMinerUid = some v.request.minerHotkey.val) :
    checkResponse signatureVerifies response v = .ok () ↔
      issued ≤ v.nowUnixMs + v.maxClockSkewMs ∧ v.nowUnixMs ≤ expires := by
  obtain ⟨engine, early, late, task, times, size, rfl⟩ := signOptimizationResponse_ok signed
  have requestDigest : (payloadDigest requestDomainV2 (modelDump v.request)).val =
      optimizationRequestDigest v.request := rfl
  have bundleDigest : artifact.artifactDigest.val = optimizationBundleDigest artifact :=
    artifact.verifyArtifactDigest
  rw [checkResponse_ok_iff]
  simp only [responseChecks, optimizationResponseSigningBytes_withSignature]
  simp only [withSignature, placeholderResponse, signatureHex, fromHex_hexText, listed, genuine,
    requestDigest, bundleDigest, engine, List.forall_mem_cons]
  obtain ⟨⟨hissued, hexpires⟩, -⟩ := times
  constructor
  · rintro ⟨-, -, -, -, -, -, -, -, -, -, -, future, -, expired, -⟩
    have started := of_decide_eq_false future
    have alive := of_decide_eq_false expired
    omega
  · rintro ⟨future, expired⟩
    simp
    omega

/-- Any other binding of the miner's UID is the first reason to reject. -/
theorem checkResponse_unlisted (skew : 0 ≤ v.maxClockSkewMs)
    (other : v.metagraphHotkeys v.expectedMinerUid ≠ some v.request.minerHotkey.val) :
    checkResponse signatureVerifies response v = .error (.rejected .metagraphIdentityMismatch) := by
  unfold checkResponse responseChecks
  dsimp only
  rw [if_neg (Int.not_lt.mpr skew), List.find?_cons_of_pos (by exact decide_eq_true other)]

/-- What the signer returns is accepted inside its window by a store that admits
it, in memory or in a table, and only under the miner's own binding. -/
theorem signed_accepted_iff
    (signed : signOptimizationResponse v.request artifact signer issued expires = .ok response)
    (genuine : ∀ m, signatureVerifies v.request.minerHotkey m (signer.sign m) = true)
    (skew : 0 ≤ v.maxClockSkewMs) :
    (v.metagraphHotkeys v.expectedMinerUid = some v.request.minerHotkey.val →
      (∀ (σ : Type) (replayStore : ReplayStore σ) (s : σ) (bundle : OptimizationBundle),
        Admits replayStore (replayRow response) s →
        ((verifySignedResponse signatureVerifies replayStore response v s).1 = .ok bundle ↔
          bundle = artifact ∧
            issued ≤ v.nowUnixMs + v.maxClockSkewMs ∧ v.nowUnixMs ≤ expires)) ∧
      (∀ maxEntries memory, (replayRow response).key ∉ memory.keys →
        memory.keys.length < maxEntries →
        Admits (memoryCheckAndStore maxEntries) (replayRow response) memory) ∧
      ∀ maxEntries clock table, fitsInteger clock = true → (replayRow response).fits = true →
        (replayRow response).key ∉ (table.prune clock).keys →
        (table.prune clock).rows.length < maxEntries →
        Admits (checkAndStore maxEntries clock) (replayRow response) table) ∧
      (v.metagraphHotkeys v.expectedMinerUid ≠ some v.request.minerHotkey.val →
        ∀ (σ : Type) (replayStore : ReplayStore σ) (s : σ),
          verifySignedResponse signatureVerifies replayStore response v s =
            (.error (.rejected .metagraphIdentityMismatch), s)) := by
  refine ⟨fun listed => ⟨fun σ replayStore s bundle admits => ?_, ?_, ?_⟩, fun other σ store s => ?_⟩
  · have made : response.artifact = artifact := (AuthAgreement.commits_of_signed signed).2.1
    rw [verifySignedResponse_ok_iff, checkResponse_signed_iff signed genuine skew listed, made]
    constructor
    · exact fun ⟨window, _, same⟩ => ⟨same, window⟩
    · exact fun ⟨same, window⟩ => ⟨window, admits, same⟩
  · exact fun maxEntries memory absent room => (memory_admits_iff _ _ _).mpr ⟨absent, room⟩
  · exact fun maxEntries clock table bound fits absent room =>
      (sqlite_admits_iff _ _ _ _).mpr ⟨⟨bound, fits⟩, absent, room⟩
  · rw [verifySignedResponse, checkResponse_unlisted skew other]

/-- One response for a verifier whose clock is behind by less than the skew. -/
theorem boundaryResponse_accepted_iff :
    ((boundaryDelivery 900).verification.metagraphHotkeys 0 = some Sample.minerHotkey.val →
      (∀ (σ : Type) (replayStore : ReplayStore σ) (s : σ) (bundle : OptimizationBundle),
        Admits replayStore (replayRow boundaryResponse) s →
        ((verifySignedResponse boundarySignatureVerifies replayStore boundaryResponse
            (boundaryDelivery 900).verification s).1 = .ok bundle ↔
          bundle = Sample.artifact ∧ (1000 : Int) ≤ 900 + 5000 ∧ (900 : Int) ≤ 2000)) ∧
      (∀ maxEntries memory, (replayRow boundaryResponse).key ∉ memory.keys →
        memory.keys.length < maxEntries →
        Admits (memoryCheckAndStore maxEntries) (replayRow boundaryResponse) memory) ∧
      ∀ maxEntries clock table, fitsInteger clock = true → (replayRow boundaryResponse).fits = true →
        (replayRow boundaryResponse).key ∉ (table.prune clock).keys →
        (table.prune clock).rows.length < maxEntries →
        Admits (checkAndStore maxEntries clock) (replayRow boundaryResponse) table) ∧
      ((boundaryDelivery 900).verification.metagraphHotkeys 0 ≠ some Sample.minerHotkey.val →
        ∀ (σ : Type) (replayStore : ReplayStore σ) (s : σ),
          verifySignedResponse boundarySignatureVerifies replayStore boundaryResponse
            (boundaryDelivery 900).verification s =
            (.error (.rejected .metagraphIdentityMismatch), s)) := by
  have genuine : ∀ m, boundarySignatureVerifies Sample.minerHotkey m (boundarySigner.sign m) = true := by
    simp [boundarySignatureVerifies]
  have skew : (0 : Int) ≤ 5000 := by decide
  exact @signed_accepted_iff boundarySignatureVerifies Sample.artifact boundarySigner 1000 2000
    boundaryResponse (boundaryDelivery 900).verification boundaryResponse_signed genuine skew

end SignerVerifier
