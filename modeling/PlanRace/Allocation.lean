import PlanRace.Library.Dict
import PlanRace.Library.WaterFilling
import PlanRace.NetworkAggregation

/-!
# Allocation of weights

Eligible miners are grouped by behavior digest, every group is given the
smallest mass of its exact strategies, and the masses are normalised under the
concentration cap. The capping loop is a filling to a level, from which what
is guaranteed of an allocation follows.
-/

namespace Allocation

open JsonText LexOrder CanonicalJson Grouping Statistics ScoringV2 Fallible WaterFilling

section Model

variable (K : Type)

structure ConcentrationMetrics where
  gini : K
  hhi : K
  top1Share : K
  effectiveMiners : K

inductive AllocationReason where
  | allFailed
  | insufficientStrategyDiversity
  | insufficientRecipientsForCap
deriving DecidableEq

def AllocationReason.text : AllocationReason → Text
  | allFailed => "all_failed".toList
  | insufficientStrategyDiversity => "insufficient_strategy_diversity".toList
  | insufficientRecipientsForCap => "insufficient_recipients_for_cap".toList

structure AllocationResult where
  planned : Bool
  reason : Option AllocationReason
  weights : List (Text × K)
  duplicateGroups : List (Text × List Text)
  strategyWeights : List (Text × K)
  concentration : ConcentrationMetrics K

variable {K} [Field K] [LinearOrder K]

def emptyMetrics : ConcentrationMetrics K := ⟨0, 0, 0, 0⟩

def unplanned (reason : AllocationReason) (duplicateGroups : List (Text × List Text)) :
    AllocationResult K :=
  ⟨false, some reason, [], duplicateGroups, [], emptyMetrics⟩

/-- Division of the source, which raises on zero. -/
def quotient (x y : K) : Except ScoringError K :=
  if y = 0 then .error .zeroDivision else .ok (x / y)

def concentrationMetrics (weights : List (Text × K)) :
    Except ScoringError (ConcentrationMetrics K) := do
  if weights.any fun w => decide (w.2 < 0) then throw .invalidWeights
  let values := sorted (weights.map Prod.snd)
  let total := values.sum
  if values = [] ∨ total = 0 then return emptyMetrics
  let normalized := values.map (· / total)
  let count : K := normalized.length
  let giniNumerator := ((normalized.zipIdx 1).map fun v => (2 * (v.2 : K) - count - 1) * v.1).sum
  let hhi := (normalized.map fun value => value * value).sum
  let effectiveMiners ← quotient 1 hhi
  return ⟨giniNumerator / count, hhi, normalized.foldl max 0, effectiveMiners⟩

/-- `sorted(ids)`. -/
def sortedTexts (ids : List Text) : List Text := sortBy Char.toNat id ids

/-- `sorted(entries.items())`, for distinct keys. -/
def sortedItems {β : Type} (entries : List (Text × β)) : List (Text × β) :=
  sortBy Char.toNat Prod.fst entries

/-- `proposed`: the mass divided in proportion to the values. -/
def proposals (remaining : List (Text × K)) (remainingMass : K) : List (Text × K) :=
  remaining.map fun e => (e.1, remainingMass * e.2 / total remaining)

/-- `capped`: the keys of the proposals above the cap. -/
def cappedIds (maximumWeight : K) (proposed : List (Text × K)) : List Text :=
  (proposed.filter fun e => maximumWeight + 1 / 10 ^ 15 < e.2).map Prod.fst

/-- The mass divided evenly, when the values sum to nothing. -/
def equalShares (remaining : List (Text × K)) (remainingMass : K) : List (Text × K) :=
  remaining.map fun e => (e.1, remainingMass / remaining.length)

/-- `del remaining[miner_id]` for the capped keys. -/
def without (remaining : List (Text × K)) (ids : List Text) : List (Text × K) :=
  remaining.filter fun e => e.1 ∉ ids

omit [Field K] [LinearOrder K] in
theorem length_without_lt {remaining : List (Text × K)} {ids : List Text} {id : Text}
    (h : id ∈ ids) (key : id ∈ remaining.map Prod.fst) :
    (without remaining ids).length < remaining.length := by
  obtain ⟨e, he, rfl⟩ := List.mem_map.mp key
  refine lt_of_le_of_ne (List.length_filter_le _ _) fun hlen => ?_
  have hkept := List.filter_eq_self.mp (List.filter_sublist.eq_of_length hlen) e he
  simp [h] at hkept

theorem cappedIds_subset {maximumWeight remainingMass : K} {remaining : List (Text × K)} {id : Text}
    (h : id ∈ cappedIds maximumWeight (proposals remaining remainingMass)) :
    id ∈ remaining.map Prod.fst := by
  obtain ⟨e, he, rfl⟩ := List.mem_map.mp h
  obtain ⟨x, hx, rfl⟩ := List.mem_map.mp (List.mem_filter.mp he).1
  exact List.mem_map.mpr ⟨x, hx, rfl⟩

theorem length_without_capped_lt {maximumWeight remainingMass : K} {remaining : List (Text × K)}
    (h : cappedIds maximumWeight (proposals remaining remainingMass) ≠ []) :
    (without remaining (cappedIds maximumWeight (proposals remaining remainingMass))).length <
      remaining.length := by
  obtain ⟨id, hid⟩ := List.exists_mem_of_ne_nil _ h
  exact length_without_lt hid (cappedIds_subset hid)

/-- The `while remaining` loop. -/
def capLoop (maximumWeight : K) (remaining weights : List (Text × K)) (remainingMass : K) :
    List (Text × K) :=
  if remaining = [] then weights
  else if total remaining ≤ 0 then
    Dict.update weights (equalShares remaining remainingMass)
  else if _h : cappedIds maximumWeight (proposals remaining remainingMass) = [] then
    Dict.update weights (proposals remaining remainingMass)
  else
    let capped := cappedIds maximumWeight (proposals remaining remainingMass)
    capLoop maximumWeight (without remaining capped)
      (Dict.update weights ((sortedTexts capped).map fun id => (id, maximumWeight)))
      (remainingMass - capped.length * maximumWeight)
termination_by remaining.length
decreasing_by exact length_without_capped_lt _h

/-- The order of `sorted(weights, key=lambda item: (weights[item], item))`. -/
def weightLe (x y : Text × K) : Prop :=
  x.2 < y.2 ∨ x.2 = y.2 ∧ lexLe Char.toNat x.1 y.1 = true

instance : DecidableRel (weightLe (K := K)) :=
  fun x y => inferInstanceAs (Decidable (x.2 < y.2 ∨ x.2 = y.2 ∧ lexLe Char.toNat x.1 y.1 = true))

/-- The residue goes to the smallest weight that stays below the cap with it. -/
def addResidue (maximumWeight : K) (weights : List (Text × K)) : List (Text × K) :=
  let residue := 1 - (weights.map Prod.snd).sum
  if 1 / 10 ^ 15 < |residue| then
    match (weights.insertionSort weightLe).find? fun e =>
        e.2 + residue ≤ maximumWeight + 1 / 10 ^ 12 with
    | some e => Dict.set weights e.1 (e.2 + residue)
    | none => weights
  else weights

/-- `_capped_normalize`. -/
def cappedNormalize (raw : List (Text × K)) (maximumWeight : K) :
    Except ScoringError (List (Text × K)) :=
  if raw.length * maximumWeight < 1 - 1 / 10 ^ 12 then .error .concentrationCap
  else .ok (addResidue maximumWeight (capLoop maximumWeight raw [] 1))

/-- The aggregates that receive weight. -/
def recipients (aggregates : List (MinerAggregate K)) : List (MinerAggregate K) :=
  aggregates.filter fun a => a.eligible && decide (0 < a.reward)

/-- `by_digest`. -/
def behaviorGroups (aggregates : List (MinerAggregate K)) : List (Text × List (MinerAggregate K)) :=
  groupBy MinerAggregate.behaviorDigest (recipients aggregates)

/-- `exact_strategy_mass.values()`. -/
def strategyMasses (members : List (MinerAggregate K)) : List K :=
  (groupBy MinerAggregate.strategyDigest members).map fun g => (g.2.map MinerAggregate.reward).sum

/-- `min(exact_strategy_mass.values())`. -/
def groupMass (members : List (MinerAggregate K)) : Except ScoringError K :=
  match strategyMasses members with
  | [] => .error .emptyMinimum
  | mass :: rest => .ok (rest.foldl min mass)

/-- `duplicate_groups`. -/
def duplicateGroups (groups : List (Text × List (MinerAggregate K))) : List (Text × List Text) :=
  ((sortedItems groups).filter fun g => decide (1 < g.2.length)).map fun g =>
    (g.1, sortedTexts (g.2.map MinerAggregate.minerId))

/-- The parts of one group's weight. -/
def memberWeights (normalizedGroups : List (Text × K)) (group : Text × List (MinerAggregate K)) :
    Except ScoringError (List (Text × K)) :=
  let memberReward := (group.2.map MinerAggregate.reward).sum
  group.2.mapM fun member =>
    match Dict.get? normalizedGroups group.1 with
    | none => .error .keyError
    | some weight => do
      let part ← quotient (weight * member.reward) memberReward
      return (member.minerId, part)

def allocateWeights (aggregates : List (MinerAggregate K)) (policy : AggregationPolicy K) :
    Except ScoringError (AllocationResult K) := do
  let groups := behaviorGroups aggregates
  if recipients aggregates = [] then return unplanned .allFailed []
  if (groups.length : Int) < policy.minimumDistinctStrategies then
    return unplanned .insufficientStrategyDiversity (duplicateGroups groups)
  let rawGroups ← groups.mapM fun g => do
    let mass ← groupMass g.2
    return (g.1, mass)
  match cappedNormalize rawGroups policy.maximumWeight with
  -- `except ValueError`, the only exception of the call.
  | .error _ => return unplanned .insufficientRecipientsForCap (duplicateGroups groups)
  | .ok normalizedGroups =>
    let parts ← groups.mapM (memberWeights normalizedGroups)
    let strategyWeights := sortedItems normalizedGroups
    let concentration ← concentrationMetrics strategyWeights
    return ⟨true, none, sortedItems (Dict.update [] parts.flatten), duplicateGroups groups,
      strategyWeights, concentration⟩

end Model

section Loop

variable {K : Type} [Field K] [LinearOrder K] [IsStrictOrderedRing K]

omit [IsStrictOrderedRing K] in
theorem cappedIds_eq (cap mass : K) (remaining : List (Text × K)) :
    cappedIds cap (proposals remaining mass) =
      (remaining.filter (exceeds cap (1 / 10 ^ 15) (mass / total remaining))).map Prod.fst := by
  rw [cappedIds, proposals, List.filter_map, List.map_map]
  refine congrArg₂ List.map (funext fun e => rfl) (List.filter_congr fun e _ => ?_)
  simp only [Function.comp_apply, exceeds, mul_div_right_comm]

omit [IsStrictOrderedRing K] in
theorem without_cappedIds {remaining : List (Text × K)} (distinct : (Dict.keys remaining).Nodup)
    (cap mass : K) :
    without remaining (cappedIds cap (proposals remaining mass)) =
      remaining.filter fun e => !exceeds cap (1 / 10 ^ 15) (mass / total remaining) e := by
  rw [without, cappedIds_eq]
  refine List.filter_congr fun e he => ?_
  have hmem : e.1 ∈ (remaining.filter
      (exceeds cap (1 / 10 ^ 15) (mass / total remaining))).map Prod.fst ↔
        exceeds cap (1 / 10 ^ 15) (mass / total remaining) e = true := by
    constructor
    · intro h
      obtain ⟨x, hx, hkey⟩ := List.mem_map.mp h
      obtain ⟨hin, hover⟩ := List.mem_filter.mp hx
      exact List.inj_on_of_nodup_map distinct hin he hkey ▸ hover
    · exact fun h => List.mem_map_of_mem (List.mem_filter.mpr ⟨he, h⟩)
  rw [decide_not, decide_eq_decide.mpr hmem, Bool.decide_coe]

theorem sortedTexts_perm (ids : List Text) : (sortedTexts ids).Perm ids := sortBy_perm _ _ _

omit [Field K] [LinearOrder K] [IsStrictOrderedRing K] in
theorem cut_distinct {weights high low : List (Text × K)}
    (distinct : (Dict.keys (weights ++ (high ++ low))).Nodup) (cap : K) :
    (Dict.keys (weights ++ (sortedTexts (high.map Prod.fst)).map (fun id => (id, cap)) ++
      low)).Nodup := by
  have sorted := sortedTexts_perm (high.map Prod.fst)
  have keysCut : Dict.keys ((sortedTexts (high.map Prod.fst)).map fun id => (id, cap)) =
      sortedTexts (high.map Prod.fst) := by
    simp [Dict.keys, Function.comp_def]
  have keysAll : (Dict.keys (weights ++ (sortedTexts (high.map Prod.fst)).map (fun id => (id, cap)) ++
      low)).Perm (Dict.keys (weights ++ (high ++ low))) := by
    simp only [Dict.keys_append, keysCut, List.append_assoc]
    exact (sorted.append_right _).append_left _
  exact keysAll.nodup_iff.mpr distinct

omit [Field K] [LinearOrder K] [IsStrictOrderedRing K] in
/-- Cutting the entries above the cap adds them to the weights. -/
theorem update_capped {weights high low : List (Text × K)}
    (distinct : (Dict.keys (weights ++ (high ++ low))).Nodup) (cap : K) :
    (Dict.update weights ((sortedTexts (high.map Prod.fst)).map fun id => (id, cap))).Perm
        (weights ++ high.map fun e => (e.1, cap)) ∧
      (Dict.keys (Dict.update weights ((sortedTexts (high.map Prod.fst)).map fun id => (id, cap)) ++
        low)).Nodup := by
  have cut : ((sortedTexts (high.map Prod.fst)).map fun id => (id, cap)).Perm
      (high.map fun e => (e.1, cap)) := by
    have h := (sortedTexts_perm (high.map Prod.fst)).map fun id => (id, cap)
    rwa [List.map_map] at h
  have distinct' := cut_distinct distinct cap
  rw [Dict.update_eq_append (by
    rw [Dict.keys_append] at distinct'
    exact (List.nodup_append'.mp distinct').1)]
  exact ⟨cut.append_left _, distinct'⟩

/-- Whatever its rounds, the loop fills the remaining mass to a level. -/
theorem capLoop_filled (cap : K) {remaining : List (Text × K)} (weights : List (Text × K)) (mass : K)
    (nonempty : remaining ≠ []) (positive : ∀ e ∈ remaining, 0 < e.2)
    (distinct : (Dict.keys (weights ++ remaining)).Nodup) :
    ∃ out, Filled cap (1 / 10 ^ 15) mass remaining out ∧
      (capLoop cap remaining weights mass).Perm (weights ++ out) := by
  have hslack : (0 : K) ≤ 1 / 10 ^ 15 := by positivity
  induction hn : remaining.length using Nat.strong_induction_on
    generalizing remaining weights mass with
  | _ n ih =>
    have hpos := total_pos nonempty positive
    have hremaining : (Dict.keys remaining).Nodup := by
      rw [Dict.keys_append] at distinct
      exact (List.nodup_append'.mp distinct).2.1
    rw [capLoop, if_neg nonempty, if_neg (not_le.mpr hpos)]
    by_cases none : cappedIds cap (proposals remaining mass) = []
    · have under : ∀ e ∈ remaining, exceeds cap (1 / 10 ^ 15) (mass / total remaining) e = false := by
        rw [cappedIds_eq, List.map_eq_nil_iff, List.filter_eq_nil_iff] at none
        simpa using none
      have hkeys : Dict.keys (proposals remaining mass) = Dict.keys remaining := by
        simp [Dict.keys, proposals, Function.comp_def]
      refine ⟨_, filled_of_none_over hpos.ne' under, ?_⟩
      rw [dif_pos none, Dict.update_eq_append (by
        rwa [Dict.keys_append, hkeys, ← Dict.keys_append]), proposals]
      simp only [mul_div_right_comm, List.Perm.refl]
    · have shorter := length_without_capped_lt none
      rw [dif_neg none]
      dsimp only
      rw [without_cappedIds hremaining] at shorter ⊢
      rw [cappedIds_eq, List.length_map]
      set level := mass / total remaining
      set high := remaining.filter (exceeds cap (1 / 10 ^ 15) level) with hhigh
      set low := remaining.filter fun e => !exceeds cap (1 / 10 ^ 15) level e with hlow
      have split : (high ++ low).Perm remaining := List.filter_append_perm _ remaining
      obtain ⟨hcut, hdistinct⟩ := update_capped
        (((split.append_left weights).map Prod.fst).nodup_iff.mpr distinct) cap
      by_cases last : low = []
      · have all : high.Perm remaining := by simpa [last] using split
        refine ⟨_, filled_of_all_over hslack nonempty positive fun e he => (List.mem_filter.mp (all.mem_iff.mpr he)).2, ?_⟩
        rw [last, capLoop, if_pos rfl]
        exact hcut.trans ((all.map _).append_left _)
      · obtain ⟨out, hout, hperm⟩ := ih _ (hn ▸ shorter) _ (mass - high.length * cap) last
          (fun e he => positive e (List.mem_filter.mp he).1) hdistinct rfl
        obtain ⟨whole, hwhole, hparts⟩ := filled_of_round hslack positive last hout
        refine ⟨whole, hwhole, (hperm.trans (hcut.append_right out)).trans ?_⟩
        rw [List.append_assoc]
        exact hparts.symm.append_left weights

omit [Field K] [IsStrictOrderedRing K] in
theorem weightLe_total (x y : Text × K) : weightLe x y ∨ weightLe y x := by
  rcases lt_trichotomy x.2 y.2 with h | h | h
  · exact Or.inl (Or.inl h)
  · exact (lexLe_total Char.toNat x.1 y.1).imp (fun hx => Or.inr ⟨h, hx⟩)
      fun hy => Or.inr ⟨h.symm, hy⟩
  · exact Or.inr (Or.inl h)

omit [Field K] [IsStrictOrderedRing K] in
theorem weightLe_trans {x y z : Text × K} (hxy : weightLe x y) (hyz : weightLe y z) :
    weightLe x z := by
  rcases hxy with hxy | ⟨hxy, hkey⟩
  · rcases hyz with hyz | ⟨hyz, -⟩
    · exact Or.inl (hxy.trans hyz)
    · exact Or.inl (hyz ▸ hxy)
  · rcases hyz with hyz | ⟨hyz, hkey'⟩
    · exact Or.inl (hxy ▸ hyz)
    · exact Or.inr ⟨hxy.trans hyz, lexLe_trans _ hkey hkey'⟩

instance : Std.Total (weightLe (K := K)) := ⟨weightLe_total⟩

instance : IsTrans (Text × K) weightLe := ⟨fun _ _ _ => weightLe_trans⟩

/-- What `_capped_normalize` returns: the values filled to a level with nothing
left over, or every value at the cap and the least key above it by the rest. -/
inductive Normalized (cap : K) (raw out : List (Text × K)) : Prop where
  | level (s : K) (positive : 0 < s) (exhausted : total out = 1)
      (parts : out.Perm (raw.map fun e => (e.1, fill cap (1 / 10 ^ 15) s e.2)))
  | topped (first : Text) (key : first ∈ Dict.keys raw)
      (least : ∀ k ∈ Dict.keys raw, lexLe Char.toNat first k = true)
      (left : 1 / 10 ^ 15 < 1 - raw.length * cap) (small : 1 - raw.length * cap ≤ 1 / 10 ^ 12)
      (parts : out.Perm
        (raw.map fun e => (e.1, if e.1 = first then cap + (1 - raw.length * cap) else cap)))

/-- A residue on equal weights goes to the least key. -/
theorem addResidue_of_flat {cap : K} {raw weights : List (Text × K)} (nonempty : raw ≠ [])
    (flat : weights.Perm (raw.map fun e => (e.1, cap)))
    (left : 1 / 10 ^ 15 < |1 - raw.length * cap|) (small : 1 - raw.length * cap ≤ 1 / 10 ^ 12) :
    ∃ first ∈ Dict.keys raw, (∀ k ∈ Dict.keys raw, lexLe Char.toNat first k = true) ∧
      (addResidue cap weights).Perm
        (raw.map fun e => (e.1, if e.1 = first then cap + (1 - raw.length * cap) else cap)) := by
  have hsum : (weights.map Prod.snd).sum = raw.length * cap := by
    rw [(flat.map Prod.snd).sum_eq]
    simp [Function.comp_def]
  have atCap : ∀ e ∈ weights, e.2 = cap := by
    intro e he
    obtain ⟨x, -, rfl⟩ := List.mem_map.mp (flat.mem_iff.mp he)
    rfl
  have keys : (Dict.keys weights).Perm (Dict.keys raw) := by
    simpa [Dict.keys, Function.comp_def] using flat.map Prod.fst
  have ordered := List.pairwise_insertionSort weightLe weights
  have hsorted := List.perm_insertionSort weightLe weights
  unfold addResidue
  dsimp only
  rw [hsum, if_pos left]
  cases hlist : weights.insertionSort weightLe with
  | nil =>
    rw [hlist] at hsorted
    have hlength := (hsorted.trans flat).length_eq
    rw [List.length_map, List.length_nil] at hlength
    exact absurd (List.length_eq_zero_iff.mp hlength.symm) nonempty
  | cons e rest =>
    rw [hlist] at hsorted ordered
    have he : e ∈ weights := hsorted.mem_iff.mp List.mem_cons_self
    have found : (e :: rest).find? (fun x => x.2 + (1 - raw.length * cap) ≤ cap + 1 / 10 ^ 12) =
        some e := by
      refine List.find?_cons_of_pos ?_
      rw [atCap e he, decide_eq_true_eq]
      linarith
    have hkey : e.1 ∈ Dict.keys weights := List.mem_map_of_mem he
    refine ⟨e.1, keys.mem_iff.mp hkey, fun k hk => ?_, ?_⟩
    · obtain ⟨x, hx, rfl⟩ := List.mem_map.mp (keys.mem_iff.mpr hk)
      rcases List.mem_cons.mp (hsorted.mem_iff.mpr hx) with rfl | hrest
      · exact lexLe_refl _ _
      · rcases (List.pairwise_cons.mp ordered).1 x hrest with hlt | ⟨-, hle⟩
        · rw [atCap e he, atCap x hx] at hlt
          exact absurd hlt (lt_irrefl cap)
        · exact hle
    · rw [found]
      dsimp only
      rw [atCap e he]
      rw [Dict.set, if_pos hkey]
      have h := flat.map fun x => if x.1 = e.1 then (e.1, cap + (1 - raw.length * cap)) else x
      rw [List.map_map] at h
      refine h.trans (List.Perm.of_eq (List.map_congr_left fun x _ => ?_))
      by_cases hx : x.1 = e.1 <;> simp [hx]

theorem addResidue_of_exhausted (cap : K) {weights : List (Text × K)}
    (exhausted : total weights = 1) : addResidue cap weights = weights := by
  have nonnegative : (0 : K) ≤ 1 / 10 ^ 15 := by positivity
  unfold addResidue
  dsimp only
  rw [if_neg]
  rw [← total, exhausted, sub_self, abs_zero]
  exact not_lt.mpr nonnegative

/-- Normalising succeeds exactly when the cap leaves room, and then ends in one
of the two outcomes. -/
theorem cappedNormalize_normalized {cap : K} {raw : List (Text × K)}
    (positive : ∀ e ∈ raw, 0 < e.2) (distinct : (Dict.keys raw).Nodup)
    (room : ¬ (raw.length * cap < 1 - 1 / 10 ^ 12)) :
    ∃ out, cappedNormalize raw cap = .ok out ∧ Normalized cap raw out := by
  have nonempty : raw ≠ [] := by
    rintro rfl
    refine room ?_
    norm_num
  have hpos := total_pos nonempty positive
  refine ⟨_, if_neg room, ?_⟩
  obtain ⟨out, hfilled, hperm⟩ := capLoop_filled cap [] 1 nonempty positive distinct
  rw [List.nil_append] at hperm
  cases hfilled with
  | level s high exhausted =>
    have hexhausted : total (capLoop cap raw [] 1) = 1 := (total_perm hperm).trans exhausted
    rw [addResidue_of_exhausted cap hexhausted]
    exact .level s ((div_pos one_pos hpos).trans_le high) hexhausted hperm
  | full room' =>
    have left : 1 / 10 ^ 15 < 1 - raw.length * cap := by linarith
    have small : 1 - raw.length * cap ≤ 1 / 10 ^ 12 := by linarith [not_lt.mp room]
    obtain ⟨first, key, least, parts⟩ :=
      addResidue_of_flat nonempty hperm (lt_of_lt_of_le left (le_abs_self _)) small
    exact .topped first key least left small parts

/-- Values that sum to one and do not exceed the cap are kept. -/
theorem cappedNormalize_of_balanced {cap : K} {raw : List (Text × K)}
    (distinct : (Dict.keys raw).Nodup) (exhausted : total raw = 1)
    (below : ∀ e ∈ raw, e.2 ≤ cap + 1 / 10 ^ 15)
    (room : ¬ (raw.length * cap < 1 - 1 / 10 ^ 12)) : cappedNormalize raw cap = .ok raw := by
  have nonempty : raw ≠ [] := by
    rintro rfl
    exact zero_ne_one exhausted
  have proposed : proposals raw 1 = raw := by
    simp [proposals, exhausted]
  have none : cappedIds cap (proposals raw 1) = [] := by
    rw [proposed, cappedIds, List.map_eq_nil_iff, List.filter_eq_nil_iff]
    intro e he
    simpa using below e he
  have loop : capLoop cap raw [] 1 = raw := by
    rw [capLoop, if_neg nonempty, if_neg (by rw [exhausted]; exact not_le.mpr one_pos), dif_pos none,
      proposed, Dict.update_eq_append (by simpa using distinct), List.nil_append]
  rw [cappedNormalize, if_neg room, loop, addResidue_of_exhausted cap exhausted]

namespace Normalized

variable {cap : K} {raw out : List (Text × K)}

omit [IsStrictOrderedRing K] in
theorem keys_perm (h : Normalized cap raw out) : (Dict.keys out).Perm (Dict.keys raw) := by
  cases h with
  | level s positive exhausted parts =>
    simpa [Dict.keys, Function.comp_def] using parts.map Prod.fst
  | topped first key least left small parts =>
    simpa [Dict.keys, Function.comp_def] using parts.map Prod.fst

omit [IsStrictOrderedRing K] in
theorem total_eq_one (h : Normalized cap raw out) (distinct : (Dict.keys raw).Nodup) :
    total out = 1 := by
  cases h with
  | level s positive exhausted parts => exact exhausted
  | topped first key least left small parts =>
    rw [total_perm parts, total_raised distinct key]
    ring

theorem le_cap (h : Normalized cap raw out) : ∀ e ∈ out, e.2 ≤ cap + 1 / 10 ^ 12 := by
  have hslack : (0 : K) ≤ 1 / 10 ^ 15 := by positivity
  have hsmall : (1 : K) / 10 ^ 15 ≤ 1 / 10 ^ 12 := by norm_num
  intro e he
  cases h with
  | level s positive exhausted parts =>
    obtain ⟨x, -, rfl⟩ := List.mem_map.mp (parts.mem_iff.mp he)
    exact (fill_le hslack s x.2).trans (by linarith)
  | topped first key least left small parts =>
    obtain ⟨x, -, rfl⟩ := List.mem_map.mp (parts.mem_iff.mp he)
    dsimp only
    split_ifs <;> linarith

theorem pos (h : Normalized cap raw out) (hcap : 0 < cap) (positive : ∀ e ∈ raw, 0 < e.2) :
    ∀ e ∈ out, 0 < e.2 := by
  have hslack : (0 : K) ≤ 1 / 10 ^ 15 := by positivity
  intro e he
  cases h with
  | level s level exhausted parts =>
    obtain ⟨x, hx, rfl⟩ := List.mem_map.mp (parts.mem_iff.mp he)
    exact fill_pos hcap level (positive x hx)
  | topped first key least left small parts =>
    obtain ⟨x, -, rfl⟩ := List.mem_map.mp (parts.mem_iff.mp he)
    dsimp only
    split_ifs <;> linarith

end Normalized

end Loop

section Groups

variable {K : Type} [Field K] [LinearOrder K]

/-- The least exact-strategy mass of a group, 0 of no members. -/
def leastMass (members : List (MinerAggregate K)) : K :=
  match strategyMasses members with
  | [] => 0
  | mass :: rest => rest.foldl min mass

/-- The masses before normalisation, `raw_groups`. -/
def rawGroups (aggregates : List (MinerAggregate K)) : List (Text × K) :=
  (behaviorGroups aggregates).map fun g => (g.1, leastMass g.2)

/-- The parts of a group whose members' rewards do not sum to zero. -/
def partsOf (normalizedGroups : List (Text × K)) (group : Text × List (MinerAggregate K)) :
    List (Text × K) :=
  group.2.map fun a => (a.minerId, (Dict.get? normalizedGroups group.1).getD 0 * a.reward /
    (group.2.map MinerAggregate.reward).sum)

omit [LinearOrder K] in
theorem strategyMasses_ne_nil {members : List (MinerAggregate K)} (h : members ≠ []) :
    strategyMasses members ≠ [] := by
  obtain ⟨a, ha⟩ := List.exists_mem_of_ne_nil _ h
  have hgroup : (a.strategyDigest, under MinerAggregate.strategyDigest members a.strategyDigest) ∈
      groupBy MinerAggregate.strategyDigest members :=
    mem_groupBy.mpr ⟨List.mem_map_of_mem ha, rfl⟩
  exact List.ne_nil_of_mem (List.mem_map_of_mem hgroup)

theorem leastMass_isLeast {members : List (MinerAggregate K)} (h : members ≠ []) :
    IsLeast {x | x ∈ strategyMasses members} (leastMass members) := by
  unfold leastMass
  cases hm : strategyMasses members with
  | nil => exact absurd hm (strategyMasses_ne_nil h)
  | cons mass rest => exact foldl_min_isLeast mass rest

theorem groupMass_eq {members : List (MinerAggregate K)} (h : members ≠ []) :
    groupMass members = .ok (leastMass members) := by
  unfold groupMass leastMass
  cases hm : strategyMasses members with
  | nil => exact absurd hm (strategyMasses_ne_nil h)
  | cons mass rest => rfl

theorem mem_recipients {aggregates : List (MinerAggregate K)} {a : MinerAggregate K} :
    a ∈ recipients aggregates ↔ a ∈ aggregates ∧ a.eligible = true ∧ 0 < a.reward := by
  simp [recipients]

theorem mem_behaviorGroups {aggregates : List (MinerAggregate K)}
    {g : Text × List (MinerAggregate K)} (h : g ∈ behaviorGroups aggregates) :
    g.2 ≠ [] ∧ ∀ a, a ∈ g.2 ↔ a ∈ recipients aggregates ∧ a.behaviorDigest = g.1 := by
  refine ⟨members_ne_nil h, fun a => ?_⟩
  rw [(mem_groupBy.mp h).2, mem_under]

theorem keys_rawGroups (aggregates : List (MinerAggregate K)) :
    Dict.keys (rawGroups aggregates) =
      distinct ((recipients aggregates).map MinerAggregate.behaviorDigest) := by
  rw [← map_fst_groupBy, Dict.keys, rawGroups, List.map_map]
  rfl

theorem nodup_keys_rawGroups (aggregates : List (MinerAggregate K)) :
    (Dict.keys (rawGroups aggregates)).Nodup := by
  rw [keys_rawGroups]
  exact nodup_distinct _

theorem rawGroups_eq_mapM (aggregates : List (MinerAggregate K)) :
    ((behaviorGroups aggregates).mapM fun g => do
      let mass ← groupMass g.2
      return (g.1, mass)) = .ok (rawGroups aggregates) := by
  refine mapM_eq_map fun g hg => ?_
  rw [groupMass_eq (mem_behaviorGroups hg).1]
  rfl

variable [IsStrictOrderedRing K]

theorem sum_rewards_pos {members : List (MinerAggregate K)} (h : members ≠ [])
    (positive : ∀ a ∈ members, 0 < a.reward) : 0 < (members.map MinerAggregate.reward).sum := by
  refine List.sum_pos _ (fun x hx => ?_) (by simpa using h)
  obtain ⟨a, ha, rfl⟩ := List.mem_map.mp hx
  exact positive a ha

theorem leastMass_pos {members : List (MinerAggregate K)} (h : members ≠ [])
    (positive : ∀ a ∈ members, 0 < a.reward) : 0 < leastMass members := by
  obtain ⟨g, hg, hmass⟩ := List.mem_map.mp (leastMass_isLeast h).1
  rw [← hmass]
  refine sum_rewards_pos (members_ne_nil hg) fun a ha => positive a ?_
  rw [(mem_groupBy.mp hg).2] at ha
  exact (mem_under.mp ha).1

theorem rawGroups_pos (aggregates : List (MinerAggregate K)) :
    ∀ e ∈ rawGroups aggregates, 0 < e.2 := by
  intro e he
  obtain ⟨g, hg, rfl⟩ := List.mem_map.mp he
  obtain ⟨nonempty, members⟩ := mem_behaviorGroups hg
  exact leastMass_pos nonempty fun a ha => (mem_recipients.mp ((members a).mp ha).1).2.2

omit [IsStrictOrderedRing K] in
theorem memberWeights_eq {normalizedGroups : List (Text × K)}
    {group : Text × List (MinerAggregate K)} (key : group.1 ∈ Dict.keys normalizedGroups)
    (nonzero : (group.2.map MinerAggregate.reward).sum ≠ 0) :
    memberWeights normalizedGroups group = .ok (partsOf normalizedGroups group) := by
  obtain ⟨weight, hweight⟩ := Dict.mem_keys_iff.mp key
  unfold memberWeights partsOf
  dsimp only
  rw [hweight]
  refine mapM_eq_map fun a _ => ?_
  have part : quotient (weight * a.reward) (group.2.map MinerAggregate.reward).sum =
      .ok (weight * a.reward / (group.2.map MinerAggregate.reward).sum) := if_neg nonzero
  dsimp only
  rw [part]
  rfl

theorem sum_squares_pos {values : List K} (h : values.sum ≠ 0) :
    0 < (values.map fun value => value * value).sum := by
  have some : ∃ v ∈ values, v ≠ 0 := by
    by_contra none
    push Not at none
    exact h (List.sum_eq_zero none)
  obtain ⟨v, hv, hne⟩ := some
  have hle := List.single_le_sum (l := values.map fun value => value * value) (by
    intro x hx
    obtain ⟨y, -, rfl⟩ := List.mem_map.mp hx
    exact mul_self_nonneg y) _ (List.mem_map_of_mem hv)
  exact (mul_self_pos.mpr hne).trans_le hle

/-- The metrics of non-negative weights are defined. -/
theorem concentrationMetrics_ok (weights : List (Text × K)) (nonnegative : ∀ w ∈ weights, 0 ≤ w.2) :
    ∃ metrics, concentrationMetrics weights = .ok metrics := by
  have valid : (weights.any fun w => decide (w.2 < 0)) = false := by
    rw [List.any_eq_false]
    intro w hw
    simpa using nonnegative w hw
  unfold concentrationMetrics
  dsimp only
  rw [valid, if_neg Bool.false_ne_true]
  by_cases empty : sorted (weights.map Prod.snd) = [] ∨ (sorted (weights.map Prod.snd)).sum = 0
  · exact ⟨_, if_pos empty⟩
  · rw [if_neg empty]
    push Not at empty
    have hhi : (((sorted (weights.map Prod.snd)).map
        (· / (sorted (weights.map Prod.snd)).sum)).map fun value => value * value).sum ≠ 0 := by
      refine (sum_squares_pos ?_).ne'
      simp only [div_eq_mul_inv, List.sum_map_mul_right, List.map_id']
      rw [mul_inv_cancel₀ empty.2]
      exact one_ne_zero
    rw [quotient, if_neg hhi]
    exact ⟨_, rfl⟩

end Groups

section Result

variable {K : Type} [Field K] [LinearOrder K]

/-- The conditions for an update. -/
structure Plannable (aggregates : List (MinerAggregate K)) (policy : AggregationPolicy K) :
    Prop where
  someone : recipients aggregates ≠ []
  diverse : policy.minimumDistinctStrategies ≤ (rawGroups aggregates).length
  room : 1 - 1 / 10 ^ 12 ≤ (rawGroups aggregates).length * policy.maximumWeight

/-- The members' parts of all groups. -/
def allParts (aggregates : List (MinerAggregate K)) (normalizedGroups : List (Text × K)) :
    List (Text × K) :=
  (behaviorGroups aggregates).flatMap (partsOf normalizedGroups)

def plannedResult (aggregates : List (MinerAggregate K)) (normalizedGroups : List (Text × K))
    (concentration : ConcentrationMetrics K) : AllocationResult K :=
  ⟨true, none, sortedItems (Dict.update [] (allParts aggregates normalizedGroups)),
    duplicateGroups (behaviorGroups aggregates), sortedItems normalizedGroups, concentration⟩

/-- A recipient's part of the weight of its group. -/
def partOf (aggregates : List (MinerAggregate K)) (normalizedGroups : List (Text × K))
    (a : MinerAggregate K) : K :=
  (Dict.get? normalizedGroups a.behaviorDigest).getD 0 * a.reward /
    ((under MinerAggregate.behaviorDigest (recipients aggregates) a.behaviorDigest).map
      MinerAggregate.reward).sum

theorem partsOf_eq {aggregates : List (MinerAggregate K)} (normalizedGroups : List (Text × K))
    {g : Text × List (MinerAggregate K)} (h : g ∈ behaviorGroups aggregates) :
    partsOf normalizedGroups g =
      g.2.map fun a => (a.minerId, partOf aggregates normalizedGroups a) := by
  refine List.map_congr_left fun a ha => ?_
  have hkey := (((mem_behaviorGroups h).2 a).mp ha).2
  rw [partOf, hkey, ← (mem_groupBy.mp h).2]

/-- Every recipient has one part. -/
theorem allParts_perm (aggregates : List (MinerAggregate K)) (normalizedGroups : List (Text × K)) :
    (allParts aggregates normalizedGroups).Perm ((recipients aggregates).map fun a =>
      (a.minerId, partOf aggregates normalizedGroups a)) := by
  have h := (flatMap_groupBy_perm MinerAggregate.behaviorDigest (recipients aggregates)).map
    fun a => (a.minerId, partOf aggregates normalizedGroups a)
  rw [List.map_flatMap] at h
  rw [allParts, List.flatMap_congr fun g hg => partsOf_eq normalizedGroups hg]
  exact h

theorem keys_allParts_perm (aggregates : List (MinerAggregate K)) (normalizedGroups : List (Text × K)) :
    (Dict.keys (allParts aggregates normalizedGroups)).Perm
      ((recipients aggregates).map MinerAggregate.minerId) := by
  simpa [Dict.keys, Function.comp_def] using
    (allParts_perm aggregates normalizedGroups).map Prod.fst

theorem nodup_recipients {aggregates : List (MinerAggregate K)}
    (distinct : (aggregates.map MinerAggregate.minerId).Nodup) :
    ((recipients aggregates).map MinerAggregate.minerId).Nodup :=
  distinct.sublist (List.filter_sublist.map _)

/-- Distinct miners do not overwrite each other's parts. -/
theorem update_allParts {aggregates : List (MinerAggregate K)}
    (distinct : (aggregates.map MinerAggregate.minerId).Nodup) (normalizedGroups : List (Text × K)) :
    Dict.update [] (allParts aggregates normalizedGroups) = allParts aggregates normalizedGroups := by
  refine Dict.update_eq_append (d := []) ?_
  rw [List.nil_append]
  exact (keys_allParts_perm aggregates normalizedGroups).nodup_iff.mpr (nodup_recipients distinct)

theorem allocateWeights_of_not_plannable {aggregates : List (MinerAggregate K)}
    {policy : AggregationPolicy K} (h : ¬ Plannable aggregates policy) :
    ∃ reason groups, allocateWeights aggregates policy = .ok (unplanned reason groups) := by
  have hlength : (rawGroups aggregates).length = (behaviorGroups aggregates).length :=
    List.length_map _
  unfold allocateWeights
  dsimp only
  by_cases none : recipients aggregates = []
  · exact ⟨_, _, if_pos none⟩
  rw [if_neg none]
  by_cases few : ((behaviorGroups aggregates).length : Int) < policy.minimumDistinctStrategies
  · exact ⟨_, _, if_pos few⟩
  rw [if_neg few, rawGroups_eq_mapM]
  have full : cappedNormalize (rawGroups aggregates) policy.maximumWeight =
      .error .concentrationCap := by
    refine if_pos (not_le.mp fun room => h ⟨none, ?_, room⟩)
    rw [hlength]
    exact not_lt.mp few
  refine ⟨.insufficientRecipientsForCap, duplicateGroups (behaviorGroups aggregates), ?_⟩
  change (match cappedNormalize (rawGroups aggregates) policy.maximumWeight with
    | .error _ => _
    | .ok normalizedGroups => _) = _
  rw [full]
  rfl

variable [IsStrictOrderedRing K]

/-- Where one strategy may take all, one recipient is enough. -/
theorem plannable_of_recipient {aggregates : List (MinerAggregate K)} {policy : AggregationPolicy K}
    {a : MinerAggregate K} (ha : a ∈ recipients aggregates)
    (one : policy.minimumDistinctStrategies = 1) (whole : policy.maximumWeight = 1) :
    Plannable aggregates policy := by
  have grouped : (a.behaviorDigest, under MinerAggregate.behaviorDigest (recipients aggregates)
      a.behaviorDigest) ∈ behaviorGroups aggregates :=
    mem_groupBy.mpr ⟨List.mem_map_of_mem ha, rfl⟩
  have some : 1 ≤ (rawGroups aggregates).length := by
    rw [rawGroups, List.length_map]
    exact List.length_pos_of_mem grouped
  refine ⟨List.ne_nil_of_mem ha, by rw [one]; exact_mod_cast some, ?_⟩
  have groups : (1 : K) ≤ (rawGroups aggregates).length := by exact_mod_cast some
  have slack : (0 : K) ≤ 1 / 10 ^ 12 := by positivity
  rw [whole, mul_one]
  linarith

theorem allocateWeights_of_plannable {aggregates : List (MinerAggregate K)}
    {policy : AggregationPolicy K} (h : Plannable aggregates policy) :
    ∃ normalizedGroups concentration,
      cappedNormalize (rawGroups aggregates) policy.maximumWeight = .ok normalizedGroups ∧
        Normalized policy.maximumWeight (rawGroups aggregates) normalizedGroups ∧
        allocateWeights aggregates policy =
          .ok (plannedResult aggregates normalizedGroups concentration) := by
  have hlength : (rawGroups aggregates).length = (behaviorGroups aggregates).length :=
    List.length_map _
  have few : ¬ ((behaviorGroups aggregates).length : Int) < policy.minimumDistinctStrategies := by
    rw [← hlength]
    exact not_lt.mpr h.diverse
  obtain ⟨normalizedGroups, hok, hnormalized⟩ :=
    cappedNormalize_normalized (rawGroups_pos aggregates) (nodup_keys_rawGroups aggregates)
      (not_lt.mpr h.room)
  have parts : (behaviorGroups aggregates).mapM (memberWeights normalizedGroups) =
      .ok ((behaviorGroups aggregates).map (partsOf normalizedGroups)) := by
    refine mapM_eq_map fun g hg => memberWeights_eq ?_ ?_
    · refine hnormalized.keys_perm.mem_iff.mpr ?_
      exact List.mem_map.mpr ⟨_, List.mem_map_of_mem hg, rfl⟩
    · obtain ⟨nonempty, members⟩ := mem_behaviorGroups hg
      exact (sum_rewards_pos nonempty fun a ha => (mem_recipients.mp ((members a).mp ha).1).2.2).ne'
  have hweights := hnormalized.pos policy.weightBounds.1 (rawGroups_pos aggregates)
  obtain ⟨concentration, hmetrics⟩ := concentrationMetrics_ok
    (sortedItems normalizedGroups) fun w hw => (hweights w (mem_sortBy.mp hw)).le
  refine ⟨normalizedGroups, concentration, hok, hnormalized, ?_⟩
  unfold allocateWeights
  dsimp only
  rw [if_neg h.someone, if_neg few, rawGroups_eq_mapM]
  change (match cappedNormalize (rawGroups aggregates) policy.maximumWeight with
    | .error _ => _
    | .ok normalizedGroups => _) = _
  rw [hok]
  dsimp only
  rw [parts]
  change (concentrationMetrics (sortedItems normalizedGroups) >>= fun concentration => _) = _
  rw [hmetrics]
  rfl

/-- A group's weight is divided among its members. -/
theorem sum_partOf {aggregates : List (MinerAggregate K)} (normalizedGroups : List (Text × K))
    (digest : Text) (nonempty : under MinerAggregate.behaviorDigest (recipients aggregates) digest ≠ []) :
    ((under MinerAggregate.behaviorDigest (recipients aggregates) digest).map
      (partOf aggregates normalizedGroups)).sum = (Dict.get? normalizedGroups digest).getD 0 := by
  have hpos := sum_rewards_pos nonempty fun a ha => (mem_recipients.mp (mem_under.mp ha).1).2.2
  have same : (under MinerAggregate.behaviorDigest (recipients aggregates) digest).map
      (partOf aggregates normalizedGroups) =
      (under MinerAggregate.behaviorDigest (recipients aggregates) digest).map fun a =>
        (Dict.get? normalizedGroups digest).getD 0 /
          ((under MinerAggregate.behaviorDigest (recipients aggregates) digest).map
            MinerAggregate.reward).sum * a.reward := by
    refine List.map_congr_left fun a ha => ?_
    rw [partOf, (mem_under.mp ha).2, mul_div_right_comm]
  rw [same, List.sum_map_mul_left, div_mul_cancel₀ _ hpos.ne']

/-- All parts together are the weights of the groups. -/
theorem total_allParts (aggregates : List (MinerAggregate K)) {normalizedGroups : List (Text × K)}
    (keys : (Dict.keys normalizedGroups).Perm (Dict.keys (rawGroups aggregates))) :
    total (allParts aggregates normalizedGroups) = total normalizedGroups := by
  have distinct := keys.nodup_iff.mpr (nodup_keys_rawGroups aggregates)
  have groups : (behaviorGroups aggregates).map (fun g => total (partsOf normalizedGroups g)) =
      (Dict.keys (rawGroups aggregates)).map fun k => (Dict.get? normalizedGroups k).getD 0 := by
    rw [Dict.keys, rawGroups, List.map_map, List.map_map]
    refine List.map_congr_left fun g hg => ?_
    have hmembers := (mem_groupBy.mp hg).2
    have h := sum_partOf normalizedGroups g.1 (hmembers ▸ members_ne_nil hg)
    rw [partsOf_eq normalizedGroups hg, total, List.map_map, hmembers]
    exact h
  have split : total (allParts aggregates normalizedGroups) =
      ((behaviorGroups aggregates).map fun g => total (partsOf normalizedGroups g)).sum := by
    rw [total, allParts, List.map_flatMap, List.flatMap, List.sum_flatten, List.map_map]
    rfl
  rw [split, groups, ← (keys.map _).sum_eq, Dict.map_get?_keys distinct]
  rfl

end Result

end Allocation
