import PlanRace.Allocation

/-!
# What an allocation guarantees

Every list of aggregates with distinct miners has an allocation. One that is
planned divides the whole weight among exactly the recipients, respects the
cap on every behavior group up to the tolerance of the source, and is
proportional to the rewards within a group.
-/

namespace AllocationInvariants

open JsonText LexOrder CanonicalJson Grouping ScoringV2 NetworkAggregation WaterFilling Allocation

variable {K : Type} [Field K] [LinearOrder K]

/-- The weight an allocation gives to a miner, 0 when it is not listed. -/
def weightOf (result : AllocationResult K) (minerId : Text) : K :=
  (Dict.get? result.weights minerId).getD 0

/-- The members of one behavior group. -/
def membersOf (aggregates : List (MinerAggregate K)) (digest : Text) : List (MinerAggregate K) :=
  under MinerAggregate.behaviorDigest (recipients aggregates) digest

/-- The guarantees of a planned allocation. -/
structure PlannedOk (aggregates : List (MinerAggregate K)) (policy : AggregationPolicy K)
    (result : AllocationResult K) : Prop where
  listed : ∀ minerId, minerId ∈ Dict.keys result.weights ↔
    ∃ a ∈ aggregates, a.minerId = minerId ∧ a.eligible = true ∧ 0 < a.reward
  listedOnce : (Dict.keys result.weights).Nodup
  positive : ∀ w ∈ result.weights, 0 < w.2
  weightsSum : (result.weights.map Prod.snd).sum = 1
  groups : ∀ digest, digest ∈ Dict.keys result.strategyWeights ↔ membersOf aggregates digest ≠ []
  groupedOnce : (Dict.keys result.strategyWeights).Nodup
  strategySum : (result.strategyWeights.map Prod.snd).sum = 1
  capped : ∀ g ∈ result.strategyWeights, g.2 ≤ policy.maximumWeight + 1 / 10 ^ 12
  divided : ∀ g ∈ result.strategyWeights,
    g.2 = ((membersOf aggregates g.1).map fun a => weightOf result a.minerId).sum
  proportional : ∀ digest, ∀ a ∈ membersOf aggregates digest, ∀ b ∈ membersOf aggregates digest,
    weightOf result a.minerId * b.reward = weightOf result b.minerId * a.reward
  diverse : policy.minimumDistinctStrategies ≤ result.strategyWeights.length

theorem membersOf_ne_nil_iff {aggregates : List (MinerAggregate K)} {digest : Text} :
    membersOf aggregates digest ≠ [] ↔ digest ∈ Dict.keys (rawGroups aggregates) := by
  rw [keys_rawGroups, mem_distinct]
  constructor
  · intro h
    obtain ⟨a, ha⟩ := List.exists_mem_of_ne_nil _ h
    obtain ⟨hin, rfl⟩ := mem_under.mp ha
    exact List.mem_map_of_mem hin
  · intro h
    obtain ⟨a, ha, rfl⟩ := List.mem_map.mp h
    exact List.ne_nil_of_mem (mem_under.mpr ⟨ha, rfl⟩)

theorem sortedItems_perm {β : Type} (entries : List (Text × β)) : (sortedItems entries).Perm entries :=
  sortBy_perm _ _ _

theorem keys_sortedItems_perm {β : Type} (entries : List (Text × β)) :
    (Dict.keys (sortedItems entries)).Perm (Dict.keys entries) :=
  (sortedItems_perm entries).map Prod.fst

section Planned

variable {aggregates : List (MinerAggregate K)} {normalizedGroups : List (Text × K)}

theorem weights_perm (distinct : (aggregates.map MinerAggregate.minerId).Nodup)
    (normalizedGroups : List (Text × K)) (concentration : ConcentrationMetrics K) :
    (plannedResult aggregates normalizedGroups concentration).weights.Perm
      (allParts aggregates normalizedGroups) := by
  rw [plannedResult, update_allParts distinct]
  exact sortedItems_perm _

theorem nodup_keys_weights (distinct : (aggregates.map MinerAggregate.minerId).Nodup)
    (normalizedGroups : List (Text × K)) (concentration : ConcentrationMetrics K) :
    (Dict.keys (plannedResult aggregates normalizedGroups concentration).weights).Nodup :=
  (((weights_perm distinct normalizedGroups concentration).map Prod.fst).trans
    (keys_allParts_perm aggregates normalizedGroups)).nodup_iff.mpr (nodup_recipients distinct)

/-- A recipient's weight is its part of its group. -/
theorem weightOf_planned (distinct : (aggregates.map MinerAggregate.minerId).Nodup)
    (concentration : ConcentrationMetrics K) {a : MinerAggregate K} (ha : a ∈ recipients aggregates) :
    weightOf (plannedResult aggregates normalizedGroups concentration) a.minerId =
      partOf aggregates normalizedGroups a := by
  have hmem : (a.minerId, partOf aggregates normalizedGroups a) ∈
      (plannedResult aggregates normalizedGroups concentration).weights := by
    refine (weights_perm distinct _ _).mem_iff.mpr ((allParts_perm _ _).mem_iff.mpr ?_)
    exact List.mem_map_of_mem (f := fun a => (a.minerId, partOf aggregates normalizedGroups a)) ha
  have hkeys := nodup_keys_weights distinct normalizedGroups concentration
  rw [weightOf, (Dict.get?_eq_some_iff hkeys).mpr hmem]
  rfl

variable [IsStrictOrderedRing K]

theorem partOf_pos {cap : K} (normalized : Normalized cap (rawGroups aggregates) normalizedGroups)
    (hcap : 0 < cap) {a : MinerAggregate K} (ha : a ∈ recipients aggregates) :
    0 < partOf aggregates normalizedGroups a := by
  have members : membersOf aggregates a.behaviorDigest ≠ [] :=
    List.ne_nil_of_mem (mem_under.mpr ⟨ha, rfl⟩)
  have hkey := normalized.keys_perm.mem_iff.mpr (membersOf_ne_nil_iff.mp members)
  obtain ⟨weight, hweight⟩ := Dict.mem_keys_iff.mp hkey
  have distinctKeys := normalized.keys_perm.nodup_iff.mpr (nodup_keys_rawGroups aggregates)
  have hpos := normalized.pos hcap (rawGroups_pos aggregates) _
    ((Dict.get?_eq_some_iff distinctKeys).mp hweight)
  have hsum := sum_rewards_pos members fun b hb => (mem_recipients.mp (mem_under.mp hb).1).2.2
  rw [partOf, hweight]
  exact div_pos (mul_pos hpos (mem_recipients.mp ha).2.2) hsum

/-- What a normalisation within the cap makes of the groups of a list of miners. -/
theorem plannedOk_of_normalized {policy : AggregationPolicy K}
    (distinct : (aggregates.map MinerAggregate.minerId).Nodup) (plannable : Plannable aggregates policy)
    (normalized : Normalized policy.maximumWeight (rawGroups aggregates) normalizedGroups)
    (concentration : ConcentrationMetrics K) :
    PlannedOk aggregates policy (plannedResult aggregates normalizedGroups concentration) where
  listed := by
    intro minerId
    have h := (((weights_perm distinct normalizedGroups concentration).map Prod.fst).trans
      (keys_allParts_perm aggregates normalizedGroups)).mem_iff (a := minerId)
    refine h.trans ?_
    simp only [List.mem_map, mem_recipients]
    constructor
    · rintro ⟨a, ⟨ha, heligible, hreward⟩, rfl⟩
      exact ⟨a, ha, rfl, heligible, hreward⟩
    · rintro ⟨a, ha, rfl, heligible, hreward⟩
      exact ⟨a, ⟨ha, heligible, hreward⟩, rfl⟩
  listedOnce := nodup_keys_weights distinct normalizedGroups concentration
  positive := by
    intro w hw
    have hpart := (allParts_perm _ _).mem_iff.mp ((weights_perm distinct _ _).mem_iff.mp hw)
    obtain ⟨a, ha, rfl⟩ := List.mem_map.mp hpart
    exact partOf_pos normalized policy.weightBounds.1 ha
  weightsSum := (total_perm (weights_perm distinct _ _)).trans
    ((total_allParts aggregates normalized.keys_perm).trans
      (normalized.total_eq_one (nodup_keys_rawGroups aggregates)))
  groups := by
    intro digest
    rw [membersOf_ne_nil_iff]
    exact ((keys_sortedItems_perm _).trans normalized.keys_perm).mem_iff
  groupedOnce := ((keys_sortedItems_perm _).trans normalized.keys_perm).nodup_iff.mpr
    (nodup_keys_rawGroups aggregates)
  strategySum :=
    (total_perm (sortedItems_perm _)).trans (normalized.total_eq_one (nodup_keys_rawGroups aggregates))
  capped := fun g hg => normalized.le_cap g ((sortedItems_perm _).mem_iff.mp hg)
  divided := by
    intro g hg
    have hentry := (sortedItems_perm _).mem_iff.mp hg
    have distinctKeys := normalized.keys_perm.nodup_iff.mpr (nodup_keys_rawGroups aggregates)
    have hget : Dict.get? normalizedGroups g.1 = some g.2 :=
      (Dict.get?_eq_some_iff distinctKeys).mpr hentry
    have nonempty := membersOf_ne_nil_iff.mpr
      (normalized.keys_perm.mem_iff.mp (List.mem_map_of_mem hentry))
    have parts : (membersOf aggregates g.1).map (fun a =>
        weightOf (plannedResult aggregates normalizedGroups concentration) a.minerId) =
        (membersOf aggregates g.1).map (partOf aggregates normalizedGroups) :=
      List.map_congr_left fun a ha => weightOf_planned distinct concentration (mem_under.mp ha).1
    rw [parts, membersOf, sum_partOf normalizedGroups g.1 nonempty, hget]
    rfl
  proportional := by
    intro digest a ha b hb
    obtain ⟨hain, rfl⟩ := mem_under.mp ha
    obtain ⟨hbin, hdigest⟩ := mem_under.mp hb
    rw [weightOf_planned distinct concentration hain, weightOf_planned distinct concentration hbin,
      partOf, partOf, hdigest]
    ring
  diverse := by
    have hlength : (rawGroups aggregates).length = (sortedItems normalizedGroups).length := by
      have h := ((keys_sortedItems_perm normalizedGroups).trans normalized.keys_perm).length_eq
      simpa [Dict.keys] using h.symm
    rw [plannedResult, ← hlength]
    exact plannable.diverse

end Planned

section Network

variable [IsStrictOrderedRing K]

/-- Allocating weights never fails. A planned update has all the guarantees,
and one that is not planned carries no weight. -/
theorem allocateWeights_invariants (aggregates : List (MinerAggregate K))
    (policy : AggregationPolicy K) (distinct : (aggregates.map MinerAggregate.minerId).Nodup) :
    ∃ result, allocateWeights aggregates policy = .ok result ∧
      (result.planned = true → PlannedOk aggregates policy result) ∧
      (result.planned = false → result.weights = [] ∧ result.strategyWeights = []) := by
  by_cases plannable : Plannable aggregates policy
  · obtain ⟨normalizedGroups, concentration, -, normalized, hresult⟩ :=
      allocateWeights_of_plannable plannable
    refine ⟨_, hresult, fun _ => ?_, fun h => ?_⟩
    · exact plannedOk_of_normalized distinct plannable normalized concentration
    · cases h
  · obtain ⟨reason, groups, hresult⟩ := allocateWeights_of_not_plannable plannable
    refine ⟨_, hresult, fun h => ?_, fun _ => ⟨rfl, rfl⟩⟩
    cases h

end Network

/-- Two miners of one behavior group and one of another. -/
def sampleAggregates : List (MinerAggregate ℚ) :=
  [Sample.aggregate ['a'] ['p'] ['s'] 3, Sample.aggregate ['b'] ['p'] ['t'] 1,
    Sample.aggregate ['c'] ['q'] ['u'] 2]

def samplePolicy : AggregationPolicy ℚ := Sample.policy (3 / 4) (by norm_num)

theorem sampleAllocation_invariants :
    ∃ result, allocateWeights sampleAggregates samplePolicy = .ok result ∧
      result.planned = true ∧ PlannedOk sampleAggregates samplePolicy result := by
  obtain ⟨result, allocated, planned, -⟩ :=
    allocateWeights_invariants sampleAggregates samplePolicy (by decide)
  have shown : (allocateWeights sampleAggregates samplePolicy).toOption.map
      AllocationResult.planned = some true := by
    decide +kernel
  rw [allocated] at shown
  have known : result.planned = true := Option.some.inj shown
  exact ⟨result, allocated, known, planned known⟩

end AllocationInvariants
