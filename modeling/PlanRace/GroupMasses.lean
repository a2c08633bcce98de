import PlanRace.AllocationInvariants

/-!
# The masses of behavior groups

What the masses before normalisation and the strategy weights after it are for
each behavior digest, whatever the order of the aggregates.
-/

namespace GroupMasses

open JsonText LexOrder CanonicalJson Grouping ScoringV2 NetworkAggregation WaterFilling Allocation
  AllocationInvariants

section Entries

variable {K : Type} [Field K]

/-- The value of a key, 0 when it is absent. -/
def valueOf (entries : List (Text × K)) (key : Text) : K := (Dict.get? entries key).getD 0

theorem valueOf_eq {entries : List (Text × K)} (distinct : (Dict.keys entries).Nodup)
    {e : Text × K} (he : e ∈ entries) : valueOf entries e.1 = e.2 := by
  rw [valueOf, (Dict.get?_eq_some_iff distinct).mpr he]
  rfl

end Entries

section Groups

variable {K : Type} [Field K] [LinearOrder K]

/-- The strategy weight of a behavior group, 0 when it is not listed. -/
def strategyWeight (result : AllocationResult K) (digest : Text) : K :=
  (Dict.get? result.strategyWeights digest).getD 0

omit [LinearOrder K] in
theorem mem_strategyMasses {members : List (MinerAggregate K)} {mass : K} :
    mass ∈ strategyMasses members ↔ ∃ a ∈ members,
      mass = ((under MinerAggregate.strategyDigest members a.strategyDigest).map
        MinerAggregate.reward).sum := by
  simp only [strategyMasses, List.mem_map]
  constructor
  · rintro ⟨g, hg, rfl⟩
    obtain ⟨hkey, hmembers⟩ := mem_groupBy.mp hg
    obtain ⟨a, ha, hdigest⟩ := List.mem_map.mp hkey
    exact ⟨a, ha, by rw [hmembers, hdigest]⟩
  · rintro ⟨a, ha, rfl⟩
    exact ⟨(a.strategyDigest, under MinerAggregate.strategyDigest members a.strategyDigest),
      mem_groupBy.mpr ⟨List.mem_map_of_mem ha, rfl⟩, rfl⟩

omit [LinearOrder K] in
theorem strategyMasses_perm {xs ys : List (MinerAggregate K)} (h : xs.Perm ys) {mass : K} :
    mass ∈ strategyMasses xs ↔ mass ∈ strategyMasses ys := by
  rw [mem_strategyMasses, mem_strategyMasses]
  refine exists_congr fun a => and_congr h.mem_iff ?_
  rw [((under_perm _ h _).map MinerAggregate.reward).sum_eq]

/-- The least mass depends on the set of masses only. -/
theorem leastMass_congr {xs ys : List (MinerAggregate K)}
    (h : ∀ mass, mass ∈ strategyMasses xs ↔ mass ∈ strategyMasses ys) :
    leastMass xs = leastMass ys := by
  have empty : ∀ {zs : List (MinerAggregate K)}, strategyMasses zs = [] → zs = [] := fun hz => by
    by_contra hne
    exact strategyMasses_ne_nil hne hz
  by_cases nonempty : xs = []
  · subst nonempty
    have hys : strategyMasses ys = [] :=
      List.eq_nil_iff_forall_not_mem.mpr fun mass hmass => by cases (h mass).mpr hmass
    rw [empty hys]
  · obtain ⟨hxmem, hxle⟩ := leastMass_isLeast nonempty
    have hys : ys ≠ [] := by
      rintro rfl
      cases (h _).mp hxmem
    obtain ⟨hymem, hyle⟩ := leastMass_isLeast hys
    exact le_antisymm (hxle ((h _).mpr hymem)) (hyle ((h _).mp hxmem))

theorem leastMass_eq_of_perm {xs ys : List (MinerAggregate K)} (h : xs.Perm ys) :
    leastMass xs = leastMass ys :=
  leastMass_congr fun _ => strategyMasses_perm h

theorem recipients_append (xs ys : List (MinerAggregate K)) :
    recipients (xs ++ ys) = recipients xs ++ recipients ys := List.filter_append _ _

theorem membersOf_perm {xs ys : List (MinerAggregate K)} (h : xs.Perm ys) (digest : Text) :
    (membersOf xs digest).Perm (membersOf ys digest) :=
  under_perm _ (h.filter _) digest

theorem membersOf_append (xs ys : List (MinerAggregate K)) (digest : Text) :
    membersOf (xs ++ ys) digest = membersOf xs digest ++ membersOf ys digest := by
  rw [membersOf, recipients_append, under, List.filter_append]
  rfl

/-- The mass of a group before normalisation. -/
theorem get?_rawGroups {aggregates : List (MinerAggregate K)} {digest : Text}
    (h : digest ∈ Dict.keys (rawGroups aggregates)) :
    Dict.get? (rawGroups aggregates) digest = some (leastMass (membersOf aggregates digest)) := by
  refine (Dict.get?_eq_some_iff (nodup_keys_rawGroups aggregates)).mpr ?_
  refine List.mem_map.mpr ⟨(digest, membersOf aggregates digest), mem_groupBy.mpr ⟨?_, rfl⟩, rfl⟩
  rw [keys_rawGroups, mem_distinct] at h
  exact h

theorem valueOf_rawGroups {aggregates : List (MinerAggregate K)} {k : Text} (h : k ∈ Dict.keys (rawGroups aggregates)) :
    valueOf (rawGroups aggregates) k = leastMass (membersOf aggregates k) := by
  rw [valueOf, get?_rawGroups h]
  rfl

end Groups

section Result

variable {K : Type} [Field K] [LinearOrder K] {aggregates : List (MinerAggregate K)}

omit [Field K] [LinearOrder K] in
theorem keys_sortedItems_eq_of_perm {d e : List (Text × K)} (h : (Dict.keys d).Perm (Dict.keys e)) :
    Dict.keys (sortedItems d) = Dict.keys (sortedItems e) := by
  have keys : ∀ d : List (Text × K), Dict.keys (sortedItems d) = sortedTexts (Dict.keys d) :=
    fun d => map_sortBy Char.toNat Prod.fst id Prod.fst d fun _ _ => rfl
  rw [keys, keys]
  exact sortBy_eq_of_perm (fun _ _ he => Char.toNat_inj.mp he) (fun _ _ _ _ he => he) h

variable {policy : AggregationPolicy K} {result : AllocationResult K}

theorem plannable_of_planned (h : allocateWeights aggregates policy = .ok result)
    (planned : result.planned = true) : Plannable aggregates policy := by
  by_contra none
  obtain ⟨reason, groups, hresult⟩ := allocateWeights_of_not_plannable none
  rw [hresult] at h
  cases h
  cases planned

theorem strategyWeight_planned {normalizedGroups : List (Text × K)}
    (distinct : (Dict.keys normalizedGroups).Nodup) (concentration : ConcentrationMetrics K) (k : Text) :
    strategyWeight (plannedResult aggregates normalizedGroups concentration) k =
      valueOf normalizedGroups k := by
  rw [strategyWeight, valueOf, Dict.get?_eq_of_perm (sortedItems_perm normalizedGroups).symm distinct]
  rfl

end Result

end GroupMasses
