import PlanRace.AuthV2
import PlanRace.Library.JsonEquality

/-!
# The canonical encoding identifies what it encodes

Every commitment, digest and signature of the protocol hashes a canonical
text in a length-delimited frame. Here the three layers are put together:
the text of a value, the frame of a domain and a value, and the bytes a miner
signs.
-/

namespace CanonicalEncoding

open JsonText CanonicalJson TaskModels AuthV2 JsonEquality

/-- The canonical bytes agree exactly on equal values. -/
theorem canonicalJsonBytes_eq_iff_equal {a b : Json} (ha : distinct a = true)
    (hb : distinct b = true) : canonicalJsonBytes a = canonicalJsonBytes b ↔ equal a b :=
  (canonicalJsonBytes_eq_iff a b).trans (equal_iff_same a b ha hb).symm

theorem checkDomain_label {label : Text} {d : Domain} (h : checkDomain label = .ok d) :
    d.label = label := by
  unfold checkDomain at h
  split_ifs at h
  cases h
  rfl

theorem domain_eq_iff {label label' : Text} {d e : Domain} (hd : checkDomain label = .ok d)
    (he : checkDomain label' = .ok e) : d = e ↔ label = label' := by
  rw [← checkDomain_label hd, ← checkDomain_label he]
  exact ⟨congrArg Domain.label, Domain.ext_label⟩

/-- The signed bytes agree exactly on responses that differ at most in their
signature. -/
theorem signingBytes_eq_iff (x y : SignedOptimizationResponse) :
    optimizationResponseSigningBytes x = optimizationResponseSigningBytes y ↔
      withSignature x y.signature = y := by
  constructor
  · intro he
    exact optimizationResponseSigningBytes_binds
      ((optimizationResponseSigningBytes_withSignature x y.signature).trans he) rfl
  · intro he
    rw [← he, optimizationResponseSigningBytes_withSignature]

/-- The signed bytes are framed in a domain of their own. -/
theorem signingBytes_ne_hashInput (x : SignedOptimizationResponse) {d : Domain}
    (other : d ≠ responseDomainV2) (v : Json) :
    optimizationResponseSigningBytes x ≠ hashInput d v := fun he =>
  other ((hashInput_eq_iff _ _ _ _).mp he).1.symm

/-- Values, framed payloads and signed messages are determined by their bytes. -/
theorem canonicalEncoding_injective :
    (∀ a b, distinct a = true → distinct b = true →
      (canonicalJsonBytes a = canonicalJsonBytes b ↔ equal a b)) ∧
    (∀ label label' d e a b, checkDomain label = .ok d → checkDomain label' = .ok e →
      distinct a = true → distinct b = true →
      (hashInput d a = hashInput e b ↔ label = label' ∧ equal a b)) ∧
    (∀ x y, optimizationResponseSigningBytes x = optimizationResponseSigningBytes y ↔
      withSignature x y.signature = y) ∧
    ∀ x d v, d ≠ responseDomainV2 → optimizationResponseSigningBytes x ≠ hashInput d v := by
  refine ⟨?_, ?_, signingBytes_eq_iff, ?_⟩
  · intro a b ha hb
    exact canonicalJsonBytes_eq_iff_equal ha hb
  · intro label label' d e a b hd he ha hb
    rw [hashInput_eq_iff, domain_eq_iff hd he, equal_iff_same a b ha hb]
  · intro x d v other
    exact signingBytes_ne_hashInput x other v

/-! Two spellings of one mapping, and a response that was not signed yet. -/
namespace Sample

def ordered : Json := .obj [("a".toList, .bool true), ("b".toList, .int 1)]

def reversed : Json := .obj [("b".toList, .int 1), ("a".toList, .bool true)]

def response : SignedOptimizationResponse :=
  placeholderResponse TaskModels.Sample.request TaskModels.Sample.artifact 1000 2000 rfl (by decide)

end Sample

theorem sample_encoding :
    (canonicalJsonBytes Sample.ordered = canonicalJsonBytes Sample.reversed ↔
      equal Sample.ordered Sample.reversed) ∧
    (hashInput requestDomainV2 Sample.ordered = hashInput responseDomainV2 Sample.reversed ↔
      requestDomainV2.label = responseDomainV2.label ∧ equal Sample.ordered Sample.reversed) ∧
    optimizationResponseSigningBytes Sample.response ≠ hashInput requestDomainV2 Sample.ordered :=
  ⟨canonicalEncoding_injective.1 _ _ (by decide) (by decide),
    canonicalEncoding_injective.2.1 _ _ _ _ _ _ (by decide +kernel) (by decide +kernel) (by decide)
      (by decide),
    canonicalEncoding_injective.2.2.2 _ _ _ (by decide +kernel)⟩

end CanonicalEncoding
