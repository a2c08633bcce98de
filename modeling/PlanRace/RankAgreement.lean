import PlanRace.Library.Dict
import PlanRace.Library.PairSums
import PlanRace.AllocationOrder
import Mathlib.Data.Sign.Basic

/-!
# Kendall's tau-b is a rank agreement

Every pair of shared keys is counted by the signs of its two differences, so the
coefficient is a function of the two weak orders. It is one where they are the same,
and where one of the maps is constant.
-/

namespace RankAgreement

open JsonText Statistics ScoringV2 PairSums Allocation

section Counting

inductive RankError where
  | tooFewShared
deriving DecidableEq

def RankError.text : RankError → Text
  | tooFewShared => "at least two shared items are required".toList

structure PairCounts where
  concordant : Nat
  discordant : Nat
  tiesFirst : Nat
  tiesSecond : Nat
deriving DecidableEq

variable {K : Type} [Field K] [LinearOrder K]

/-- `sorted(set(first) & set(second))`. -/
def sharedKeys (first second : List (Text × K)) : List Text :=
  sortedTexts ((Dict.keys first).filter (· ∈ Dict.keys second))

/-- `scores[key]`, for the keys of the map. -/
def score (scores : List (Text × K)) (key : Text) : K := (Dict.get? scores key).getD 0

def countPair (deltaFirst deltaSecond : K) (counts : PairCounts) : PairCounts :=
  if deltaFirst = 0 ∧ deltaSecond = 0 then counts
  else if deltaFirst = 0 then { counts with tiesFirst := counts.tiesFirst + 1 }
  else if deltaSecond = 0 then { counts with tiesSecond := counts.tiesSecond + 1 }
  else if 0 < deltaFirst * deltaSecond then { counts with concordant := counts.concordant + 1 }
  else { counts with discordant := counts.discordant + 1 }

def countPairs (first second : Text → K) : List Text → PairCounts → PairCounts
  | [], counts => counts
  | left :: rest, counts => countPairs first second rest
      (rest.foldl (fun counts right =>
        countPair (first left - first right) (second left - second right) counts) counts)

variable [RealFunctions K]

def tauOf (counts : PairCounts) : K :=
  let firstPairs := counts.concordant + counts.discordant + counts.tiesFirst
  let secondPairs := counts.concordant + counts.discordant + counts.tiesSecond
  let denominator : K := RealFunctions.sqrt ((firstPairs * secondPairs : Nat) : K)
  if denominator = 0 then 1 else (counts.concordant - counts.discordant) / denominator

def kendallTauB (first second : List (Text × K)) : Except RankError K :=
  let keys := sharedKeys first second
  if keys.length < 2 then .error .tooFewShared
  else .ok (tauOf (countPairs (score first) (score second) keys ⟨0, 0, 0, 0⟩))

end Counting

section Signs

variable {K : Type} [Field K] [LinearOrder K]

/-- Whether the two signs of a pair are in a relation. -/
def kind (R : SignType → SignType → Bool) (first second : Text → K) (left right : Text) : Nat :=
  (R (SignType.sign (first left - first right)) (SignType.sign (second left - second right))).toNat

def tally (R : SignType → SignType → Bool) (first second : Text → K) (keys : List Text) : Nat :=
  pairSum (kind R first second) keys

def concordant (x y : SignType) : Bool := x * y = 1

def discordant (x y : SignType) : Bool := x * y = -1

def tiedFirst (x y : SignType) : Bool := x = 0 ∧ y ≠ 0

def tiedSecond (x y : SignType) : Bool := x ≠ 0 ∧ y = 0

def countsOf (first second : Text → K) (keys : List Text) : PairCounts :=
  ⟨tally concordant first second keys, tally discordant first second keys,
    tally tiedFirst first second keys, tally tiedSecond first second keys⟩

def PairCounts.add (c d : PairCounts) : PairCounts :=
  ⟨c.concordant + d.concordant, c.discordant + d.discordant, c.tiesFirst + d.tiesFirst,
    c.tiesSecond + d.tiesSecond⟩

def Constant (f : Text → K) (keys : List Text) : Prop :=
  ∀ left ∈ keys, ∀ right ∈ keys, f left = f right

/-- Both maps order the keys alike, ties included. -/
def SameOrder (f g : Text → K) (keys : List Text) : Prop :=
  ∀ left ∈ keys, ∀ right ∈ keys, f left ≤ f right ↔ g left ≤ g right

/-- The counts depend on the signs only. -/
theorem tally_congr {R S : SignType → SignType → Bool} {f g f' g' : Text → K} {keys : List Text}
    (h : ∀ left ∈ keys, ∀ right ∈ keys,
      R (SignType.sign (f left - f right)) (SignType.sign (g left - g right)) =
        S (SignType.sign (f' left - f' right)) (SignType.sign (g' left - g' right))) :
    tally R f g keys = tally S f' g' keys :=
  pairSum_congr fun left hleft right hright => congrArg Bool.toNat (h left hleft right hright)

/-- The pairs that the second map tells apart. -/
theorem secondPairs_eq (f g : Text → K) (keys : List Text) :
    tally concordant f g keys + tally discordant f g keys + tally tiedFirst f g keys =
      tally (fun _ y => decide (y ≠ 0)) f g keys := by
  rw [tally, tally, tally, ← pairSum_add, ← pairSum_add]
  refine pairSum_congr fun left _ right _ => ?_
  have parts : ∀ x y : SignType, (concordant x y).toNat + (discordant x y).toNat +
      (tiedFirst x y).toNat = (decide (y ≠ 0)).toNat := by decide
  exact parts _ _

variable [IsStrictOrderedRing K]

/-- The branches of the source by the two signs. -/
theorem countPair_eq (x y : K) (counts : PairCounts) :
    countPair x y counts = counts.add
      ⟨(concordant (SignType.sign x) (SignType.sign y)).toNat,
        (discordant (SignType.sign x) (SignType.sign y)).toNat,
        (tiedFirst (SignType.sign x) (SignType.sign y)).toNat,
        (tiedSecond (SignType.sign x) (SignType.sign y)).toNat⟩ := by
  have product : 0 < x * y ↔ SignType.sign x * SignType.sign y = 1 := by
    rw [← sign_mul, sign_eq_one_iff]
  have zero : x = 0 ↔ SignType.sign x = 0 := sign_eq_zero_iff.symm
  have zero' : y = 0 ↔ SignType.sign y = 0 := sign_eq_zero_iff.symm
  simp only [countPair, product, zero, zero']
  cases SignType.sign x <;> cases SignType.sign y <;> rfl

theorem countPairs_eq (first second : Text → K) (keys : List Text) (counts : PairCounts) :
    countPairs first second keys counts = counts.add (countsOf first second keys) := by
  have inner : ∀ (left : Text) (rest : List Text) (counts : PairCounts),
      rest.foldl (fun counts right =>
        countPair (first left - first right) (second left - second right) counts) counts =
      counts.add ⟨(rest.map (kind concordant first second left)).sum,
        (rest.map (kind discordant first second left)).sum,
        (rest.map (kind tiedFirst first second left)).sum,
        (rest.map (kind tiedSecond first second left)).sum⟩ := by
    intro left rest
    induction rest with
    | nil => exact fun _ => rfl
    | cons right rest ih =>
      intro counts
      rw [List.foldl_cons, countPair_eq, ih]
      simp only [PairCounts.add, kind, List.map_cons, List.sum_cons, Nat.add_assoc]
  induction keys generalizing counts with
  | nil => rfl
  | cons left rest ih =>
    rw [countPairs, inner, ih]
    simp only [PairCounts.add, countsOf, tally, pairSum, Nat.add_assoc]

omit [IsStrictOrderedRing K] in
theorem countsOf_comm (f g : Text → K) (keys : List Text) :
    countsOf g f keys = ⟨tally concordant f g keys, tally discordant f g keys,
      tally tiedSecond f g keys, tally tiedFirst f g keys⟩ := by
  have swapped : ∀ {R S : SignType → SignType → Bool}, (∀ x y, R y x = S x y) →
      tally R g f keys = tally S f g keys := fun h =>
    tally_congr fun left _ right _ => h _ _
  rw [countsOf, swapped (S := concordant) (by decide), swapped (S := discordant) (by decide),
    swapped (S := tiedSecond) (by decide), swapped (S := tiedFirst) (by decide)]

theorem countsOf_neg (f g : Text → K) (keys : List Text) :
    countsOf (fun key => -f key) g keys = ⟨tally discordant f g keys, tally concordant f g keys,
      tally tiedFirst f g keys, tally tiedSecond f g keys⟩ := by
  have negated : ∀ {R S : SignType → SignType → Bool}, (∀ x y, R (-x) y = S x y) →
      tally R (fun key => -f key) g keys = tally S f g keys := fun h =>
    tally_congr fun left _ right _ => by
      rw [← h, ← Left.sign_neg, neg_sub, neg_sub_neg]
  rw [countsOf, negated (S := discordant) (by decide), negated (S := concordant) (by decide),
    negated (S := tiedFirst) (by decide), negated (S := tiedSecond) (by decide)]

/-- A map that orders the keys as another one does is counted like it. -/
theorem countsOf_congr {f f' g : Text → K} {keys : List Text}
    (h : ∀ left ∈ keys, ∀ right ∈ keys, f left < f right ↔ f' left < f' right) :
    countsOf f' g keys = countsOf f g keys := by
  have signs : ∀ left ∈ keys, ∀ right ∈ keys,
      SignType.sign (f' left - f' right) = SignType.sign (f left - f right) := by
    intro left hleft right hright
    rcases lt_trichotomy (f left) (f right) with less | same | more
    · rw [sign_neg (sub_neg.mpr less), sign_neg (sub_neg.mpr ((h _ hleft _ hright).mp less))]
    · have same' : f' left = f' right := le_antisymm
        (not_lt.mp fun lt => (h _ hright _ hleft).mpr lt |>.ne same.symm)
        (not_lt.mp fun lt => (h _ hleft _ hright).mpr lt |>.ne same)
      rw [same, same', sub_self, sub_self]
    · rw [sign_pos (sub_pos.mpr more), sign_pos (sub_pos.mpr ((h _ hright _ hleft).mp more))]
  have same : ∀ R : SignType → SignType → Bool, tally R f' g keys = tally R f g keys := fun R =>
    tally_congr fun left hleft right hright => by rw [signs left hleft right hright]
  rw [countsOf, countsOf, same, same, same, same]

theorem tally_eq_zero_iff {R : SignType → SignType → Bool} {f g : Text → K} {keys : List Text}
    (symmetric : ∀ x y, R (-x) (-y) = R x y) (reflexive : R 0 0 = false) :
    tally R f g keys = 0 ↔ ∀ left ∈ keys, ∀ right ∈ keys,
      R (SignType.sign (f left - f right)) (SignType.sign (g left - g right)) = false := by
  have zero : ∀ left right, kind R f g left right = 0 ↔
      R (SignType.sign (f left - f right)) (SignType.sign (g left - g right)) = false :=
    fun left right => Bool.toNat_eq_zero
  rw [tally, pairSum_eq_zero_iff fun _ _ _ _ => Nat.zero_le _]
  simp only [zero]
  constructor
  · intro pairs
    refine List.Pairwise.forall_of_forall_of_flip ?_ pairs ?_
    · intro key _
      rw [sub_self, sub_self, sign_zero, reflexive]
    · refine pairs.imp fun {left right} h => ?_
      rw [flip, ← symmetric, ← Left.sign_neg, ← Left.sign_neg, neg_sub, neg_sub, h]
  · intro h
    exact List.pairwise_of_forall_mem_list h

theorem secondPairs_eq_zero_iff (f g : Text → K) (keys : List Text) :
    tally concordant f g keys + tally discordant f g keys + tally tiedFirst f g keys = 0 ↔
      Constant g keys := by
  rw [secondPairs_eq, tally_eq_zero_iff (by decide) (by decide)]
  simp only [decide_eq_false_iff_not, not_not, sign_eq_zero_iff, sub_eq_zero]
  rfl

theorem firstPairs_eq_zero_iff (f g : Text → K) (keys : List Text) :
    tally concordant f g keys + tally discordant f g keys + tally tiedSecond f g keys = 0 ↔
      Constant f keys := by
  have swapped := countsOf_comm f g keys
  simp only [countsOf, PairCounts.mk.injEq] at swapped
  obtain ⟨hconcordant, hdiscordant, hfirst, -⟩ := swapped
  rw [← hconcordant, ← hdiscordant, ← hfirst]
  exact secondPairs_eq_zero_iff g f keys

/-- Nothing but concordant pairs and double ties: the same weak order. -/
theorem sameOrder_iff (f g : Text → K) (keys : List Text) :
    (tally discordant f g keys = 0 ∧ tally tiedFirst f g keys = 0 ∧
      tally tiedSecond f g keys = 0) ↔ SameOrder f g keys := by
  rw [tally_eq_zero_iff (by decide) (by decide), tally_eq_zero_iff (by decide) (by decide),
    tally_eq_zero_iff (by decide) (by decide)]
  have alike : ∀ x y : SignType, (discordant x y = false ∧ tiedFirst x y = false ∧
      tiedSecond x y = false) ↔ x = y := by decide
  have le_iff : ∀ (h : Text → K) (left right : Text),
      h left ≤ h right ↔ SignType.sign (h left - h right) ≤ 0 := by
    intro h left right
    rw [sign_nonpos_iff, sub_nonpos]
  constructor
  · rintro ⟨hdiscordant, hfirst, hsecond⟩ left hleft right hright
    have same := (alike _ _).mp ⟨hdiscordant left hleft right hright,
      hfirst left hleft right hright, hsecond left hleft right hright⟩
    rw [le_iff f, le_iff g, same]
  · intro h
    have same : ∀ left ∈ keys, ∀ right ∈ keys,
        SignType.sign (f left - f right) = SignType.sign (g left - g right) := by
      intro left hleft right hright
      have below := h left hleft right hright
      have above := h right hright left hleft
      have signs : ∀ x y : SignType, (x ≤ 0 ↔ y ≤ 0) → (-x ≤ 0 ↔ -y ≤ 0) → x = y := by decide
      rw [le_iff f, le_iff g] at below above
      rw [← neg_sub, ← neg_sub (g left), Left.sign_neg, Left.sign_neg] at above
      exact signs _ _ below above
    refine ⟨fun left hleft right hright => ?_, fun left hleft right hright => ?_,
      fun left hleft right hright => ?_⟩
    · exact ((alike _ _).mpr (same left hleft right hright)).1
    · exact ((alike _ _).mpr (same left hleft right hright)).2.1
    · exact ((alike _ _).mpr (same left hleft right hright)).2.2

end Signs

section Coefficient

theorem tauOf_swap (a b c d : Nat) : tauOf (K := ℝ) ⟨a, b, d, c⟩ = tauOf ⟨a, b, c, d⟩ := by
  rw [tauOf, tauOf, Nat.mul_comm]

/-- The pairs that are counted for neither tie bound the difference. -/
theorem sq_sub_le_mul (a b c d : Nat) :
    ((a : ℝ) - b) ^ 2 ≤ (((a + b + c) * (a + b + d) : Nat) : ℝ) := by
  have product : (0 : ℝ) ≤ 4 * (a * b) + (a + b) * (c + d) + c * d := by positivity
  simp only [Nat.cast_mul, Nat.cast_add]
  linarith

theorem tauOf_bounds (counts : PairCounts) : -1 ≤ tauOf (K := ℝ) counts ∧ tauOf counts ≤ (1 : ℝ) := by
  obtain ⟨a, b, c, d⟩ := counts
  rw [tauOf]
  dsimp only [RealFunctions.sqrt]
  split_ifs with degenerate
  · norm_num
  · have positive := lt_of_le_of_ne (Real.sqrt_nonneg _) (Ne.symm degenerate)
    have bound := abs_le.mp (Real.abs_le_sqrt (sq_sub_le_mul a b c d))
    rw [div_le_one positive, le_div_iff₀ positive]
    exact ⟨by linarith [bound.1], bound.2⟩

theorem sqrt_pairs_eq_zero_iff (m n : Nat) : Real.sqrt ((m * n : Nat) : ℝ) = 0 ↔ m = 0 ∨ n = 0 := by
  rw [Real.sqrt_eq_zero (Nat.cast_nonneg _), Nat.cast_eq_zero, Nat.mul_eq_zero]

theorem tauOf_neg {a b c d : Nat} (first : a + b + c ≠ 0) (second : a + b + d ≠ 0) :
    tauOf (K := ℝ) ⟨b, a, c, d⟩ = -tauOf ⟨a, b, c, d⟩ := by
  have nonzero : Real.sqrt (((a + b + c) * (a + b + d) : Nat) : ℝ) ≠ 0 := fun he =>
    ((sqrt_pairs_eq_zero_iff _ _).mp he).elim first second
  rw [tauOf, tauOf]
  dsimp only [RealFunctions.sqrt]
  rw [Nat.add_comm b a, if_neg nonzero, if_neg nonzero, ← neg_div, neg_sub]

theorem tauOf_eq_one_iff (a b c d : Nat) : tauOf ⟨a, b, c, d⟩ = (1 : ℝ) ↔
    a + b + c = 0 ∨ a + b + d = 0 ∨ (b = 0 ∧ c = 0 ∧ d = 0) := by
  rw [tauOf]
  dsimp only [RealFunctions.sqrt]
  split_ifs with degenerate
  · have none := (sqrt_pairs_eq_zero_iff _ _).mp degenerate
    exact iff_of_true rfl (none.imp_right Or.inl)
  · have some := fun he => degenerate ((sqrt_pairs_eq_zero_iff _ _).mpr he)
    rw [div_eq_one_iff_eq degenerate, ← or_assoc, or_iff_right some]
    constructor
    · intro equal
      have square : ((a : ℝ) - b) ^ 2 = (((a + b + c) * (a + b + d) : Nat) : ℝ) := by
        rw [equal, Real.sq_sqrt (Nat.cast_nonneg _)]
      have products : (4 * (a * b) + (a + b) * (c + d) + c * d : ℝ) = 0 := by
        simp only [Nat.cast_mul, Nat.cast_add] at square
        linarith
      have products' : 4 * (a * b) + (a + b) * (c + d) + c * d = 0 := by exact_mod_cast products
      have positive := lt_of_le_of_ne (Real.sqrt_nonneg _) (Ne.symm degenerate)
      have more : b < a := by
        have real : (b : ℝ) < a := sub_pos.mp (equal ▸ positive)
        exact_mod_cast real
      simp only [Nat.add_eq_zero_iff, Nat.mul_eq_zero] at products'
      omega
    · rintro ⟨rfl, rfl, rfl⟩
      rw [Nat.cast_zero, sub_zero, Nat.add_zero, Nat.cast_mul, Real.sqrt_mul_self (Nat.cast_nonneg a)]

end Coefficient

section Maps

variable {first second : List (Text × ℝ)}

theorem kendallTauB_eq (shared : 2 ≤ (sharedKeys first second).length) :
    kendallTauB first second =
      .ok (tauOf (countsOf (score first) (score second) (sharedKeys first second))) := by
  rw [kendallTauB, if_neg (Nat.not_lt.mpr shared), countPairs_eq]
  simp only [PairCounts.add, Nat.zero_add]

theorem keys_map (g : ℝ → ℝ) (scores : List (Text × ℝ)) :
    Dict.keys (scores.map fun w => (w.1, g w.2)) = Dict.keys scores := by
  rw [Dict.keys, Dict.keys, List.map_map]
  rfl

theorem score_map (g : ℝ → ℝ) {scores : List (Text × ℝ)} {key : Text}
    (h : key ∈ Dict.keys scores) :
    score (scores.map fun w => (w.1, g w.2)) key = g (score scores key) := by
  obtain ⟨value, found⟩ := Dict.mem_keys_iff.mp h
  have mapped : Dict.get? (scores.map fun w => (w.1, g w.2)) key = some (g value) := by
    obtain ⟨entry, hentry, rfl⟩ := Option.map_eq_some_iff.mp found
    rw [Dict.get?, List.find?_map]
    exact congrArg (Option.map Prod.snd) (congrArg (Option.map fun w => (w.1, g w.2)) hentry)
  rw [score, score, mapped, found]
  rfl

theorem score_mem {scores : List (Text × ℝ)} {key : Text} (h : key ∈ Dict.keys scores) :
    score scores key ∈ scores.map Prod.snd := by
  obtain ⟨value, found⟩ := Dict.mem_keys_iff.mp h
  obtain ⟨entry, hentry, rfl⟩ := Option.map_eq_some_iff.mp found
  rw [score, found]
  exact List.mem_map_of_mem (List.mem_of_find?_eq_some hentry)

theorem mem_sharedKeys {key : Text} :
    key ∈ sharedKeys first second ↔ key ∈ Dict.keys first ∧ key ∈ Dict.keys second := by
  simp [sharedKeys, sortedTexts]

theorem sharedKeys_comm (distinct : (Dict.keys first).Nodup) (distinct' : (Dict.keys second).Nodup) :
    sharedKeys second first = sharedKeys first second := by
  refine AllocationOrder.sortedTexts_eq_of_perm ?_
  refine (List.perm_ext_iff_of_nodup (distinct'.filter _) (distinct.filter _)).mpr fun key => ?_
  simp only [List.mem_filter, decide_eq_true_eq, and_comm]

/-- What is promised of the coefficient. -/
structure Agreement (first second : List (Text × ℝ)) (tau : ℝ) : Prop where
  bounds : -1 ≤ tau ∧ tau ≤ 1
  symmetric : kendallTauB second first = .ok tau
  negated : ¬Constant (score first) (sharedKeys first second) →
    ¬Constant (score second) (sharedKeys first second) →
    kendallTauB (first.map fun w => (w.1, -w.2)) second = .ok (-tau) ∧
      kendallTauB first (second.map fun w => (w.1, -w.2)) = .ok (-tau)
  increased : ∀ g : ℝ → ℝ,
    (StrictMonoOn g {x | x ∈ first.map Prod.snd} →
      kendallTauB (first.map fun w => (w.1, g w.2)) second = .ok tau) ∧
    (StrictMonoOn g {x | x ∈ second.map Prod.snd} →
      kendallTauB first (second.map fun w => (w.1, g w.2)) = .ok tau)
  one : tau = 1 ↔ SameOrder (score first) (score second) (sharedKeys first second) ∨
    Constant (score first) (sharedKeys first second) ∨
    Constant (score second) (sharedKeys first second)

theorem kendallTauB_comm (distinct : (Dict.keys first).Nodup)
    (distinct' : (Dict.keys second).Nodup) : kendallTauB second first = kendallTauB first second := by
  have keys := sharedKeys_comm distinct distinct'
  by_cases shared : 2 ≤ (sharedKeys first second).length
  · rw [kendallTauB_eq shared, kendallTauB_eq (keys ▸ shared), keys, countsOf_comm, tauOf_swap]
    rfl
  · rw [kendallTauB, kendallTauB, keys, if_pos (Nat.not_le.mp shared), if_pos (Nat.not_le.mp shared)]

theorem kendallTauB_neg (shared : 2 ≤ (sharedKeys first second).length)
    (varies : ¬Constant (score first) (sharedKeys first second))
    (varies' : ¬Constant (score second) (sharedKeys first second)) :
    kendallTauB (first.map fun w => (w.1, -w.2)) second =
      .ok (-tauOf (countsOf (score first) (score second) (sharedKeys first second))) := by
  have keys : sharedKeys (first.map fun w => (w.1, -w.2)) second = sharedKeys first second := by
    rw [sharedKeys, sharedKeys, keys_map fun x => -x]
  have counts : countsOf (score (first.map fun w => (w.1, -w.2))) (score second)
      (sharedKeys first second) =
      countsOf (fun key => -score first key) (score second) (sharedKeys first second) := by
    refine countsOf_congr fun left hleft right hright => ?_
    rw [score_map (fun x => -x) (mem_sharedKeys.mp hleft).1,
      score_map (fun x => -x) (mem_sharedKeys.mp hright).1]
  rw [kendallTauB_eq (keys ▸ shared), keys, counts, countsOf_neg, tauOf_neg]
  · rfl
  · exact fun he => varies' ((secondPairs_eq_zero_iff _ _ _).mp he)
  · exact fun he => varies ((firstPairs_eq_zero_iff _ _ _).mp he)

theorem kendallTauB_map (shared : 2 ≤ (sharedKeys first second).length) {g : ℝ → ℝ}
    (increasing : StrictMonoOn g {x | x ∈ first.map Prod.snd}) :
    kendallTauB (first.map fun w => (w.1, g w.2)) second = kendallTauB first second := by
  have keys : sharedKeys (first.map fun w => (w.1, g w.2)) second = sharedKeys first second := by
    rw [sharedKeys, sharedKeys, keys_map]
  have counts : countsOf (score (first.map fun w => (w.1, g w.2))) (score second)
      (sharedKeys first second) =
      countsOf (score first) (score second) (sharedKeys first second) := by
    refine countsOf_congr fun left hleft right hright => ?_
    have member := (mem_sharedKeys.mp hleft).1
    have member' := (mem_sharedKeys.mp hright).1
    rw [score_map g member, score_map g member']
    exact (increasing.lt_iff_lt (score_mem member) (score_mem member')).symm
  rw [kendallTauB_eq (keys ▸ shared), kendallTauB_eq shared, keys, counts]

theorem tauOf_countsOf_eq_one_iff (f g : Text → ℝ) (keys : List Text) :
    tauOf (countsOf f g keys) = (1 : ℝ) ↔
      SameOrder f g keys ∨ Constant f keys ∨ Constant g keys := by
  rw [countsOf, tauOf_eq_one_iff, secondPairs_eq_zero_iff, firstPairs_eq_zero_iff, sameOrder_iff]
  tauto

/-- The coefficient of two maps with two shared keys is a rank agreement. -/
theorem kendallTauB_agreement (distinct : (Dict.keys first).Nodup)
    (distinct' : (Dict.keys second).Nodup) (shared : 2 ≤ (sharedKeys first second).length) :
    ∃ tau, kendallTauB first second = .ok tau ∧ Agreement first second tau := by
  have value := kendallTauB_eq shared
  refine ⟨_, value, ?_⟩
  have keys := sharedKeys_comm distinct distinct'
  have shared' : 2 ≤ (sharedKeys second first).length := keys ▸ shared
  have distinctMap : ∀ {scores : List (Text × ℝ)} (g : ℝ → ℝ), (Dict.keys scores).Nodup →
      (Dict.keys (scores.map fun w => (w.1, g w.2))).Nodup := by
    intro scores g h
    rwa [keys_map]
  constructor
  · exact tauOf_bounds _
  · rw [kendallTauB_comm distinct distinct', value]
  · intro varies varies'
    have other := kendallTauB_neg shared' (keys ▸ varies') (keys ▸ varies)
    rw [keys, countsOf_comm, tauOf_swap] at other
    refine ⟨kendallTauB_neg shared varies varies', ?_⟩
    exact (kendallTauB_comm (distinctMap (fun x => -x) distinct') distinct).trans other
  · intro g
    refine ⟨fun increasing => (kendallTauB_map shared increasing).trans value, fun increasing => ?_⟩
    rw [← value, ← kendallTauB_comm distinct distinct', ← kendallTauB_map shared' increasing]
    exact kendallTauB_comm (distinctMap g distinct') distinct
  · exact tauOf_countsOf_eq_one_iff _ _ _

end Maps

section Sample

def strict : List (Text × ℝ) := [("a".toList, 1), ("b".toList, 2)]

def tied : List (Text × ℝ) := [("a".toList, 1), ("b".toList, 1)]

theorem sharedKeys_strict_tied : sharedKeys strict tied = ["a".toList, "b".toList] := by
  decide +kernel

/-- A constant map agrees with every order, and has not the ties of a strict one. -/
theorem kendallTauB_one_of_tied : kendallTauB strict tied = .ok 1 ∧
    ¬SameOrder (score strict) (score tied) (sharedKeys strict tied) := by
  have constant : Constant (score tied) (sharedKeys strict tied) := by
    rw [sharedKeys_strict_tied]
    intro left hleft right hright
    simp only [List.mem_cons, List.not_mem_nil, or_false] at hleft hright
    rcases hleft with rfl | rfl <;> rcases hright with rfl | rfl <;> rfl
  refine ⟨?_, fun same => ?_⟩
  · rw [kendallTauB_eq (sharedKeys_strict_tied ▸ le_refl 2)]
    exact congrArg _ ((tauOf_countsOf_eq_one_iff _ _ _).mpr (.inr (.inr constant)))
  · rw [sharedKeys_strict_tied] at same
    have below := (same _ (List.mem_cons_of_mem _ List.mem_cons_self) _ List.mem_cons_self).mpr
      (le_refl (1 : ℝ))
    have impossible : (2 : ℝ) ≤ 1 := below
    norm_num at impossible

theorem kendallTauB_agreement_strict :
    ∃ tau, kendallTauB strict strict = .ok tau ∧ Agreement strict strict tau :=
  kendallTauB_agreement (by decide) (by decide) (by decide +kernel)

end Sample

end RankAgreement
