import PlanRace.Library.ByteStrings

/-!
# SHA-256

The hash function of FIPS 180-4 on byte strings, over natural numbers reduced
modulo `2 ^ 32`. Collision freedom is never assumed of the whole function,
which has none: it is stated for the inputs a statement is about.
-/

namespace Sha256

open ByteStrings

def modulus : Nat := 4294967296

def roundConstants : List Nat :=
  [0x428a2f98, 0x71374491, 0xb5c0fbcf, 0xe9b5dba5, 0x3956c25b, 0x59f111f1, 0x923f82a4, 0xab1c5ed5,
   0xd807aa98, 0x12835b01, 0x243185be, 0x550c7dc3, 0x72be5d74, 0x80deb1fe, 0x9bdc06a7, 0xc19bf174,
   0xe49b69c1, 0xefbe4786, 0x0fc19dc6, 0x240ca1cc, 0x2de92c6f, 0x4a7484aa, 0x5cb0a9dc, 0x76f988da,
   0x983e5152, 0xa831c66d, 0xb00327c8, 0xbf597fc7, 0xc6e00bf3, 0xd5a79147, 0x06ca6351, 0x14292967,
   0x27b70a85, 0x2e1b2138, 0x4d2c6dfc, 0x53380d13, 0x650a7354, 0x766a0abb, 0x81c2c92e, 0x92722c85,
   0xa2bfe8a1, 0xa81a664b, 0xc24b8b70, 0xc76c51a3, 0xd192e819, 0xd6990624, 0xf40e3585, 0x106aa070,
   0x19a4c116, 0x1e376c08, 0x2748774c, 0x34b0bcb5, 0x391c0cb3, 0x4ed8aa4a, 0x5b9cca4f, 0x682e6ff3,
   0x748f82ee, 0x78a5636f, 0x84c87814, 0x8cc70208, 0x90befffa, 0xa4506ceb, 0xbef9a3f7, 0xc67178f2]

def rotateRight (x n : Nat) : Nat := (x >>> n) ||| ((x <<< (32 - n)) % modulus)

def smallSigma0 (x : Nat) : Nat := rotateRight x 7 ^^^ rotateRight x 18 ^^^ (x >>> 3)

def smallSigma1 (x : Nat) : Nat := rotateRight x 17 ^^^ rotateRight x 19 ^^^ (x >>> 10)

def bigSigma0 (x : Nat) : Nat := rotateRight x 2 ^^^ rotateRight x 13 ^^^ rotateRight x 22

def bigSigma1 (x : Nat) : Nat := rotateRight x 6 ^^^ rotateRight x 11 ^^^ rotateRight x 25

def choose (x y z : Nat) : Nat := (x &&& y) ^^^ ((modulus - 1 - x) &&& z)

def majority (x y z : Nat) : Nat := (x &&& y) ^^^ (x &&& z) ^^^ (y &&& z)

structure Chain where
  a : Nat
  b : Nat
  c : Nat
  d : Nat
  e : Nat
  f : Nat
  g : Nat
  h : Nat

def initialChain : Chain :=
  ⟨0x6a09e667, 0xbb67ae85, 0x3c6ef372, 0xa54ff53a, 0x510e527f, 0x9b05688c, 0x1f83d9ab, 0x5be0cd19⟩

/-- The rounds of one block. The message schedule is a window of sixteen words:
each round consumes the oldest and appends the next. -/
def rounds : List Nat → List Nat → Chain → Chain
  | k :: ks, [w0, w1, w2, w3, w4, w5, w6, w7, w8, w9, w10, w11, w12, w13, w14, w15],
      ⟨a, b, c, d, e, f, g, h⟩ =>
    let t1 := h + bigSigma1 e + choose e f g + k + w0
    let t2 := bigSigma0 a + majority a b c
    let next := (smallSigma1 w14 + w9 + smallSigma0 w1 + w0) % modulus
    rounds ks [w1, w2, w3, w4, w5, w6, w7, w8, w9, w10, w11, w12, w13, w14, w15, next]
      ⟨(t1 + t2) % modulus, a, b, c, (d + t1) % modulus, e, f, g⟩
  | _, _, s => s

def Chain.add (s t : Chain) : Chain :=
  ⟨(s.a + t.a) % modulus, (s.b + t.b) % modulus, (s.c + t.c) % modulus, (s.d + t.d) % modulus,
    (s.e + t.e) % modulus, (s.f + t.f) % modulus, (s.g + t.g) % modulus, (s.h + t.h) % modulus⟩

def compress (s : Chain) (block : List Nat) : Chain := s.add (rounds roundConstants block s)

/-- Big-endian 32-bit words of a byte string. -/
def wordsOf : Bytes → List Nat
  | a :: b :: c :: d :: rest =>
    (((a.toNat * 256 + b.toNat) * 256 + c.toNat) * 256 + d.toNat) :: wordsOf rest
  | _ => []

def pad (message : Bytes) : Bytes :=
  message ++ 0x80 :: List.replicate ((119 - message.length % 64) % 64) 0 ++
    toBytesBig (8 * message.length) 8

def digestBlocks : Nat → Chain → List Nat → Chain
  | 0, s, _ => s
  | n + 1, s, words => digestBlocks n (compress s (words.take 16)) (words.drop 16)

def Chain.bytes (s : Chain) : Bytes :=
  [s.a, s.b, s.c, s.d, s.e, s.f, s.g, s.h].flatMap fun w => toBytesBig w 4

/-- `hashlib.sha256(message).digest()`. Irreducible, so that no proof about a
digest starts to compute it; `decide +kernel` still can. -/
@[irreducible] def sha256 (message : Bytes) : Bytes :=
  (digestBlocks ((pad message).length / 64) initialChain (wordsOf (pad message))).bytes

theorem length_sha256 (message : Bytes) : (sha256 message).length = 32 := by
  simp [sha256, Chain.bytes]

example : hexText (sha256 (utf8 "abc".toList)) =
    "ba7816bf8f01cfea414140de5dae2223b00361a396177a9cb410ff61f20015ad".toList := by
  decide +kernel

/-- No two of these inputs collide. -/
def CollisionFreeOn (inputs : List Bytes) : Prop :=
  ∀ x ∈ inputs, ∀ y ∈ inputs, sha256 x = sha256 y → x = y

/-- Two different inputs of the list have one digest. -/
def Collision (inputs : List Bytes) : Prop :=
  ∃ x ∈ inputs, ∃ y ∈ inputs, x ≠ y ∧ sha256 x = sha256 y

theorem collision_or_collisionFreeOn (inputs : List Bytes) :
    Collision inputs ∨ CollisionFreeOn inputs := by
  by_cases h : Collision inputs
  · exact .inl h
  · refine .inr fun x hx y hy he => ?_
    by_contra hne
    exact h ⟨x, hx, y, hy, hne, he⟩

theorem CollisionFreeOn.mono {xs ys : List Bytes} (h : CollisionFreeOn ys) (hsub : xs ⊆ ys) :
    CollisionFreeOn xs := fun x hx y hy => h x (hsub hx) y (hsub hy)

theorem collisionFreeOn_of_nodup {inputs : List Bytes} (h : (inputs.map sha256).Nodup) :
    CollisionFreeOn inputs := fun _ hx _ hy he => List.inj_on_of_nodup_map h hx hy he

theorem collisionFreeOn_singleton (x : Bytes) : CollisionFreeOn [x, x] := by
  intro a ha b hb _
  simp only [List.mem_cons, List.not_mem_nil, or_false, or_self] at ha hb
  rw [ha, hb]

end Sha256
