import PlanRace.Library.Sha256

/-!
# Canonical payloads and domain-separated digests

Every v2 digest hashes a length-delimited frame of an explicit domain and of
the canonical JSON text of a payload. Floats never occur in a payload, so the
documents here have none.
-/

namespace CanonicalJson

open JsonText ByteStrings Sha256

/-- `canonical_json_bytes`. -/
def canonicalJsonBytes (value : Json) : Bytes := utf8 (dumps true value)

theorem canonicalJsonBytes_eq_iff (a b : Json) :
    canonicalJsonBytes a = canonicalJsonBytes b ↔ a.Same b :=
  ⟨fun he => (dumps_eq_iff a b).mp (utf8_injective he),
    fun h => congrArg utf8 ((dumps_eq_iff a b).mpr h)⟩

/-- A document that has the canonical bytes. -/
noncomputable def readCanonical (bytes : Bytes) : Option Json :=
  open Classical in
  if h : ∃ value, canonicalJsonBytes value = bytes then some h.choose else none

theorem readCanonical_canonicalJsonBytes (value : Json) :
    ∃ document, readCanonical (canonicalJsonBytes value) = some document ∧
      document.Same value := by
  have h : ∃ other, canonicalJsonBytes other = canonicalJsonBytes value := ⟨value, rfl⟩
  exact ⟨h.choose, dif_pos h, (canonicalJsonBytes_eq_iff _ _).mp h.choose_spec⟩

def domainPrefix : Text := "planrace/2:".toList

/-- A label that `domain_separated_digest` accepts: it is versioned, ASCII and
its length fits the two-byte field. -/
structure Domain where
  label : Text
  versioned : domainPrefix.isPrefixOf label = true
  ascii : label.all (fun c => c.toNat < 128) = true
  short : (utf8 label).length < 65536
deriving DecidableEq

inductive DigestError where
  | wrongPrefix
  | notAscii
  | overflow
deriving DecidableEq

def DigestError.message : DigestError → String
  | .wrongPrefix => "v2 digest domain must start with 'planrace/2:'"
  | .notAscii => "'ascii' codec can't encode character"
  | .overflow => "int too big to convert"

/-- The checks made on the label before anything is hashed. -/
def checkDomain (label : Text) : Except DigestError Domain :=
  if versioned : domainPrefix.isPrefixOf label = true then
    if ascii : label.all (fun c => c.toNat < 128) = true then
      if short : (utf8 label).length < 65536 then .ok ⟨label, versioned, ascii, short⟩
      else .error .overflow
    else .error .notAscii
  else .error .wrongPrefix

/-- The framed bytes that are hashed. -/
def hashInput (domain : Domain) (value : Json) : Bytes :=
  frame (utf8 domain.label) (canonicalJsonBytes value)

def digestPrefix : Text := "sha256:".toList

/-- `"sha256:" + hashlib.sha256(framed).hexdigest()`. -/
def digestText (framed : Bytes) : Text := digestPrefix ++ hexText (sha256 framed)

/-- `domain_separated_digest`, for a label that passed `checkDomain`. -/
def domainSeparatedDigest (domain : Domain) (value : Json) : Text :=
  digestText (hashInput domain value)

theorem Domain.ext_label {d e : Domain} (h : d.label = e.label) : d = e := by
  cases d
  cases e
  cases h
  rfl

theorem hashInput_eq_iff (d e : Domain) (a b : Json) :
    hashInput d a = hashInput e b ↔ d = e ∧ a.Same b := by
  constructor
  · intro he
    obtain ⟨hlabel, hpayload⟩ := frame_injective d.short e.short he
    exact ⟨Domain.ext_label (utf8_injective hlabel), (canonicalJsonBytes_eq_iff a b).mp hpayload⟩
  · rintro ⟨rfl, hab⟩
    rw [hashInput, hashInput, (canonicalJsonBytes_eq_iff a b).mpr hab]

theorem digestText_eq_iff (x y : Bytes) : digestText x = digestText y ↔ sha256 x = sha256 y :=
  ⟨fun he => hexText_injective (List.append_cancel_left he),
    fun he => congrArg (fun d => digestPrefix ++ hexText d) he⟩

/-- Digests identify what they hash, collisions apart. -/
theorem digestText_eq_iff_or_collision (x y : Bytes) :
    digestText x = digestText y ↔ x = y ∨ Collision [x, y] := by
  rw [digestText_eq_iff]
  constructor
  · intro he
    by_cases hxy : x = y
    · exact .inl hxy
    · exact .inr ⟨x, by simp, y, by simp, hxy, he⟩
  · rintro (rfl | ⟨a, ha, b, hb, hne, he⟩)
    · rfl
    · simp only [List.mem_cons, List.not_mem_nil, or_false] at ha hb
      rcases ha with rfl | rfl <;> rcases hb with rfl | rfl
      · exact absurd rfl hne
      · exact he
      · exact he.symm
      · exact absurd rfl hne

/-- Documents that agree up to member order have the same digest. -/
theorem domainSeparatedDigest_congr (d : Domain) {a b : Json} (h : a.Same b) :
    domainSeparatedDigest d a = domainSeparatedDigest d b := by
  rw [domainSeparatedDigest, domainSeparatedDigest, (hashInput_eq_iff d d a b).mpr ⟨rfl, h⟩]

/-- Equal digests bind domain and document when their inputs do not collide. -/
theorem binding_of_collisionFreeOn {inputs : List Bytes} (free : CollisionFreeOn inputs)
    {d e : Domain} {a b : Json} (ha : hashInput d a ∈ inputs) (hb : hashInput e b ∈ inputs)
    (he : domainSeparatedDigest d a = domainSeparatedDigest e b) : d = e ∧ a.Same b :=
  (hashInput_eq_iff d e a b).mp (free _ ha _ hb ((digestText_eq_iff _ _).mp he))

def hexOfLength (n : Nat) (t : Text) : Bool := t.length == n && t.all isHexDigit

/-- The pattern `^sha256:[0-9a-f]{64}$`. -/
def isSha256Digest (t : Text) : Bool :=
  digestPrefix.isPrefixOf t && hexOfLength 64 (t.drop 7)

theorem isSha256Digest_digestText (framed : Bytes) : isSha256Digest (digestText framed) = true := by
  have hdrop : (digestText framed).drop 7 = hexText (sha256 framed) := rfl
  have hprefix : digestPrefix.isPrefixOf (digestText framed) = true := rfl
  rw [isSha256Digest, hdrop, hprefix, hexOfLength, hexText_all, length_hexText, length_sha256]
  rfl

end CanonicalJson
