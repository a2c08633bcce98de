import PlanRace.AllocationOrder

/-!
# Splitting one aggregate evenly

Identities that divide one miner's reward evenly under its digests are, to the
allocation, that miner: groups, strategy weights and everyone else's weights
stay, and the parts together weigh what the whole did.
-/

namespace RewardSplit

open JsonText LexOrder CanonicalJson Grouping ScoringV2 NetworkAggregation WaterFilling Allocation
  AllocationInvariants GroupMasses AllocationOrder

variable {K : Type} [Field K] [LinearOrder K]

/-- The parts share eligibility and digests of an aggregate, and its reward evenly. -/
structure EvenSplit (a : MinerAggregate K) (parts : List (MinerAggregate K)) : Prop where
  some : parts ≠ []
  eligible : ∀ c ∈ parts, c.eligible = a.eligible
  strategy : ∀ c ∈ parts, c.strategyDigest = a.strategyDigest
  behavior : ∀ c ∈ parts, c.behaviorDigest = a.behaviorDigest
  reward : ∀ c ∈ parts, c.reward = a.reward / parts.length

variable [IsStrictOrderedRing K] {a : MinerAggregate K} {parts rest : List (MinerAggregate K)}

namespace EvenSplit

theorem length_pos (h : EvenSplit a parts) : (0 : K) < parts.length := by
  exact_mod_cast List.length_pos_iff.mpr h.some

theorem sum_reward (h : EvenSplit a parts) : (parts.map MinerAggregate.reward).sum = a.reward := by
  have same : parts.map MinerAggregate.reward = parts.map fun _ => a.reward / parts.length :=
    List.map_congr_left h.reward
  rw [same, List.map_const', List.sum_replicate, nsmul_eq_mul, mul_div_cancel₀ _ h.length_pos.ne']

theorem recipient_iff (h : EvenSplit a parts) {c : MinerAggregate K} (hc : c ∈ parts) :
    (c.eligible = true ∧ 0 < c.reward) ↔ (a.eligible = true ∧ 0 < a.reward) := by
  rw [h.eligible c hc, h.reward c hc, div_pos_iff_of_pos_right h.length_pos]

/-- The parts are in one group when the whole is, and else in none. -/
theorem membersOf_cases (h : EvenSplit a parts) (digest : Text) :
    (membersOf [a] digest = [a] ∧ membersOf parts digest = parts) ∨
      (membersOf [a] digest = [] ∧ membersOf parts digest = []) := by
  by_cases member : (a.eligible = true ∧ 0 < a.reward) ∧ a.behaviorDigest = digest
  · left
    have all : ∀ {xs : List (MinerAggregate K)},
        (∀ c ∈ xs, (c.eligible = true ∧ 0 < c.reward) ∧ c.behaviorDigest = digest) →
        membersOf xs digest = xs := by
      intro xs hxs
      have recipients : recipients xs = xs := List.filter_eq_self.mpr fun c hc => by
        simp [(hxs c hc).1]
      rw [membersOf, recipients]
      exact List.filter_eq_self.mpr fun c hc => by simp [(hxs c hc).2]
    refine ⟨all ?_, all fun c hc => ?_⟩
    · intro c hc
      rw [List.mem_singleton.mp hc]
      exact member
    · exact ⟨(h.recipient_iff hc).mpr member.1, (h.behavior c hc).trans member.2⟩
  · right
    have none : ∀ {xs : List (MinerAggregate K)},
        (∀ c ∈ xs, ¬ ((c.eligible = true ∧ 0 < c.reward) ∧ c.behaviorDigest = digest)) →
        membersOf xs digest = [] := by
      intro xs hxs
      refine List.eq_nil_iff_forall_not_mem.mpr fun c hc => ?_
      obtain ⟨hin, hdigest⟩ := mem_under.mp hc
      obtain ⟨hmem, hrecipient⟩ := mem_recipients.mp hin
      exact hxs c hmem ⟨hrecipient, hdigest⟩
    refine ⟨none ?_, none fun c hc hmember => ?_⟩
    · intro c hc
      rw [List.mem_singleton.mp hc]
      exact member
    · rw [h.recipient_iff hc, h.behavior c hc] at hmember
      exact member hmember

/-- The mass of a strategy is the same with the parts. -/
theorem strategyMasses_iff (h : EvenSplit a parts) {mass : K} :
    mass ∈ strategyMasses (parts ++ rest) ↔ mass ∈ strategyMasses (a :: rest) := by
  have massOf : ∀ s, ((under MinerAggregate.strategyDigest parts s).map MinerAggregate.reward).sum =
      ((under MinerAggregate.strategyDigest [a] s).map MinerAggregate.reward).sum := by
    intro s
    by_cases hs : a.strategyDigest = s
    · have all : under MinerAggregate.strategyDigest parts s = parts :=
        List.filter_eq_self.mpr fun c hc => by simp [h.strategy c hc, hs]
      have one : under MinerAggregate.strategyDigest [a] s = [a] := by simp [under, hs]
      rw [all, one, h.sum_reward]
      simp
    · have none : under MinerAggregate.strategyDigest parts s = [] :=
        List.filter_eq_nil_iff.mpr fun c hc => by simp [h.strategy c hc, hs]
      have none' : under MinerAggregate.strategyDigest [a] s = [] := by simp [under, hs]
      rw [none, none']
  have whole : ∀ s,
      ((under MinerAggregate.strategyDigest (parts ++ rest) s).map MinerAggregate.reward).sum =
        ((under MinerAggregate.strategyDigest (a :: rest) s).map MinerAggregate.reward).sum := by
    intro s
    have split : ∀ xs : List (MinerAggregate K),
        ((under MinerAggregate.strategyDigest (xs ++ rest) s).map MinerAggregate.reward).sum =
          ((under MinerAggregate.strategyDigest xs s).map MinerAggregate.reward).sum +
            ((under MinerAggregate.strategyDigest rest s).map MinerAggregate.reward).sum := by
      intro xs
      simp [under]
    rw [split parts, massOf, ← split [a], List.singleton_append]
  obtain ⟨c, hc⟩ := List.exists_mem_of_ne_nil _ h.some
  rw [mem_strategyMasses, mem_strategyMasses]
  constructor
  · rintro ⟨b, hb, rfl⟩
    rcases List.mem_append.mp hb with hb | hb
    · exact ⟨a, List.mem_cons_self, by rw [whole, h.strategy b hb]⟩
    · exact ⟨b, List.mem_cons_of_mem _ hb, whole _⟩
  · rintro ⟨b, hb, rfl⟩
    rcases List.mem_cons.mp hb with rfl | hb
    · exact ⟨c, List.mem_append_left _ hc, by rw [whole, h.strategy c hc]⟩
    · exact ⟨b, List.mem_append_right _ hb, (whole _).symm⟩

end EvenSplit

section Groups

variable {aggregates aggregates' : List (MinerAggregate K)}

/-- A group and the group with the parts: both hold the miner, or neither does. -/
theorem membersOf_split (before : aggregates.Perm (a :: rest)) (after : aggregates'.Perm (parts ++ rest))
    (split : EvenSplit a parts) (digest : Text) :
    ((membersOf aggregates digest).Perm (a :: membersOf rest digest) ∧
        (membersOf aggregates' digest).Perm (parts ++ membersOf rest digest)) ∨
      ((membersOf aggregates digest).Perm (membersOf rest digest) ∧
        (membersOf aggregates' digest).Perm (membersOf rest digest)) := by
  have hbefore := membersOf_perm (before.trans (List.Perm.refl ([a] ++ rest))) digest
  have hafter := membersOf_perm after digest
  rw [membersOf_append] at hbefore hafter
  rcases split.membersOf_cases digest with ⟨hone, hparts⟩ | ⟨hone, hparts⟩
  · rw [hone] at hbefore
    rw [hparts] at hafter
    exact Or.inl ⟨hbefore, hafter⟩
  · rw [hone, List.nil_append] at hbefore
    rw [hparts, List.nil_append] at hafter
    exact Or.inr ⟨hbefore, hafter⟩

variable (before : aggregates.Perm (a :: rest)) (after : aggregates'.Perm (parts ++ rest))
  (split : EvenSplit a parts)
include before after split

theorem membersOf_ne_nil_split (digest : Text) :
    membersOf aggregates' digest ≠ [] ↔ membersOf aggregates digest ≠ [] := by
  rcases membersOf_split before after split digest with ⟨hb, ha⟩ | ⟨hb, ha⟩
  · constructor
    · rintro - he
      rw [he] at hb
      cases hb.symm.eq_nil
    · rintro - he
      rw [he] at ha
      exact split.some (List.append_eq_nil_iff.mp ha.symm.eq_nil).1
  · rw [← List.length_pos_iff, ← List.length_pos_iff, ha.length_eq, hb.length_eq]

theorem leastMass_split (digest : Text) :
    leastMass (membersOf aggregates' digest) = leastMass (membersOf aggregates digest) := by
  rcases membersOf_split before after split digest with ⟨hb, ha⟩ | ⟨hb, ha⟩
  · rw [leastMass_eq_of_perm ha, leastMass_eq_of_perm hb]
    exact leastMass_congr fun _ => split.strategyMasses_iff
  · rw [leastMass_eq_of_perm ha, leastMass_eq_of_perm hb]

theorem sum_reward_split (digest : Text) :
    ((membersOf aggregates' digest).map MinerAggregate.reward).sum =
      ((membersOf aggregates digest).map MinerAggregate.reward).sum := by
  rcases membersOf_split before after split digest with ⟨hb, ha⟩ | ⟨hb, ha⟩
  · rw [(ha.map _).sum_eq, (hb.map _).sum_eq, List.map_append, List.sum_append, split.sum_reward,
      List.map_cons, List.sum_cons]
  · rw [(ha.map _).sum_eq, (hb.map _).sum_eq]

/-- The groups keep their masses. -/
theorem rawGroups_split : (rawGroups aggregates).Perm (rawGroups aggregates') := by
  have keys : ∀ digest, digest ∈ Dict.keys (rawGroups aggregates) ↔
      digest ∈ Dict.keys (rawGroups aggregates') := fun digest => by
    rw [← membersOf_ne_nil_iff, ← membersOf_ne_nil_iff, membersOf_ne_nil_split before after split]
  have hnodup := nodup_keys_rawGroups aggregates
  have hnodup' := nodup_keys_rawGroups aggregates'
  refine (List.perm_ext_iff_of_nodup hnodup.of_map hnodup'.of_map).mpr fun e => ?_
  rw [← Dict.get?_eq_some_iff (k := e.1) hnodup, ← Dict.get?_eq_some_iff (k := e.1) hnodup']
  by_cases h : e.1 ∈ Dict.keys (rawGroups aggregates)
  · rw [get?_rawGroups h, get?_rawGroups ((keys e.1).mp h), leastMass_split before after split]
  · have absent : ∀ {d : List (Text × K)}, e.1 ∉ Dict.keys d → Dict.get? d e.1 ≠ some e.2 :=
      fun hd he => hd (Dict.mem_keys_iff.mpr ⟨_, he⟩)
    exact iff_of_false (absent h) (absent fun h' => h ((keys e.1).mpr h'))

theorem plannable_split {policy : AggregationPolicy K} :
    Plannable aggregates policy ↔ Plannable aggregates' policy := by
  have hlength := (rawGroups_split before after split).length_eq
  have someone : recipients aggregates ≠ [] ↔ recipients aggregates' ≠ [] := by
    have groups : ∀ xs : List (MinerAggregate K), recipients xs ≠ [] ↔ ∃ d, membersOf xs d ≠ [] := by
      intro xs
      constructor
      · intro h
        obtain ⟨b, hb⟩ := List.exists_mem_of_ne_nil _ h
        exact ⟨b.behaviorDigest, List.ne_nil_of_mem (mem_under.mpr ⟨hb, rfl⟩)⟩
      · rintro ⟨d, h⟩
        obtain ⟨b, hb⟩ := List.exists_mem_of_ne_nil _ h
        exact List.ne_nil_of_mem (mem_under.mp hb).1
    rw [groups, groups]
    exact exists_congr fun d => (membersOf_ne_nil_split before after split d).symm
  constructor
  · exact fun h => ⟨someone.mp h.someone, hlength ▸ h.diverse, hlength ▸ h.room⟩
  · exact fun h => ⟨someone.mpr h.someone, hlength.symm ▸ h.diverse, hlength.symm ▸ h.room⟩

end Groups

section Result

variable {aggregates aggregates' : List (MinerAggregate K)} {normalizedGroups : List (Text × K)}

omit [IsStrictOrderedRing K] in
/-- Who receives nothing is not listed. -/
theorem weightOf_not_recipient (distinct : (aggregates.map MinerAggregate.minerId).Nodup)
    (concentration : ConcentrationMetrics K) {b : MinerAggregate K} (hb : b ∈ aggregates)
    (none : b ∉ recipients aggregates) :
    weightOf (plannedResult aggregates normalizedGroups concentration) b.minerId = 0 := by
  have keys := ((weights_perm distinct normalizedGroups concentration).map Prod.fst).trans
    (keys_allParts_perm aggregates normalizedGroups)
  have absent : b.minerId ∉ Dict.keys (plannedResult aggregates normalizedGroups concentration).weights := by
    intro h
    obtain ⟨c, hc, he⟩ := List.mem_map.mp (keys.mem_iff.mp h)
    have hsame := List.inj_on_of_nodup_map distinct (mem_recipients.mp hc).1 hb he
    exact none (hsame ▸ hc)
  cases hget : Dict.get? (plannedResult aggregates normalizedGroups concentration).weights b.minerId with
  | none => rw [weightOf, hget, Option.getD_none]
  | some w => exact absurd (Dict.mem_keys_iff.mpr ⟨w, hget⟩) absent

omit [Field K] [LinearOrder K] [IsStrictOrderedRing K] in
theorem sortedItems_eq_of_perm {xs ys : List (Text × K)} (h : xs.Perm ys)
    (distinct : (Dict.keys xs).Nodup) : sortedItems xs = sortedItems ys :=
  sortBy_eq_of_perm (fun _ _ he => Char.toNat_inj.mp he)
    (fun _ hx _ hy he => List.inj_on_of_nodup_map distinct hx hy he) h

section Planned

variable {groups groups' : List (Text × K)} {metrics metrics' : ConcentrationMetrics K}
  (before : aggregates.Perm (a :: rest)) (after : aggregates'.Perm (parts ++ rest))
  (split : EvenSplit a parts) (distinct : (aggregates.map MinerAggregate.minerId).Nodup)
  (distinct' : (aggregates'.map MinerAggregate.minerId).Nodup) (same : groups.Perm groups')
  (unique : (Dict.keys groups).Nodup)
include before after split same unique

/-- A part of a group, read off the aggregates before the split. -/
theorem partOf_split {b c : MinerAggregate K} (hc : c.behaviorDigest = b.behaviorDigest) :
    partOf aggregates' groups' c = (Dict.get? groups b.behaviorDigest).getD 0 * c.reward /
      ((membersOf aggregates b.behaviorDigest).map MinerAggregate.reward).sum := by
  rw [partOf, hc, ← Dict.get?_eq_of_perm same unique, ← sum_reward_split before after split]
  rfl

include distinct distinct'

/-- The other miners keep their weights. -/
theorem weightOf_rest_split {b : MinerAggregate K} (hb : b ∈ rest) :
    weightOf (plannedResult aggregates' groups' metrics') b.minerId =
      weightOf (plannedResult aggregates groups metrics) b.minerId := by
  have hin : b ∈ aggregates := before.mem_iff.mpr (List.mem_cons_of_mem _ hb)
  have hin' : b ∈ aggregates' := after.mem_iff.mpr (List.mem_append_right _ hb)
  by_cases recipient : b.eligible = true ∧ 0 < b.reward
  · rw [weightOf_planned distinct' _ (mem_recipients.mpr ⟨hin', recipient⟩),
      weightOf_planned distinct _ (mem_recipients.mpr ⟨hin, recipient⟩),
      partOf_split before after split same unique rfl]
    rfl
  · rw [weightOf_not_recipient distinct' _ hin' fun hr => recipient (mem_recipients.mp hr).2,
      weightOf_not_recipient distinct _ hin fun hr => recipient (mem_recipients.mp hr).2]

/-- A part has its share of the weight that the miner had. -/
theorem weightOf_part_split {c : MinerAggregate K} (hc : c ∈ parts) :
    weightOf (plannedResult aggregates' groups' metrics') c.minerId =
      weightOf (plannedResult aggregates groups metrics) a.minerId / parts.length := by
  have hin : a ∈ aggregates := before.mem_iff.mpr List.mem_cons_self
  have hin' : c ∈ aggregates' := after.mem_iff.mpr (List.mem_append_left _ hc)
  by_cases recipient : a.eligible = true ∧ 0 < a.reward
  · have hc' := mem_recipients.mpr ⟨hin', (split.recipient_iff hc).mpr recipient⟩
    rw [weightOf_planned distinct' _ hc',
      partOf_split before after split same unique (split.behavior c hc), split.reward c hc,
      weightOf_planned distinct _ (mem_recipients.mpr ⟨hin, recipient⟩), ← mul_div_assoc,
      div_right_comm]
    rfl
  · rw [weightOf_not_recipient distinct' _ hin' fun hr =>
        recipient ((split.recipient_iff hc).mp (mem_recipients.mp hr).2),
      weightOf_not_recipient distinct _ hin fun hr => recipient (mem_recipients.mp hr).2, zero_div]

/-- The parts together have the weight that the miner had. -/
theorem sum_weightOf_parts :
    (parts.map fun c => weightOf (plannedResult aggregates' groups' metrics') c.minerId).sum =
      weightOf (plannedResult aggregates groups metrics) a.minerId := by
  have each : ∀ c ∈ parts, weightOf (plannedResult aggregates' groups' metrics') c.minerId =
      weightOf (plannedResult aggregates groups metrics) a.minerId / parts.length :=
    fun _ hc => weightOf_part_split before after split distinct distinct' same unique hc
  rw [List.map_congr_left each, List.map_const', List.sum_replicate, nsmul_eq_mul,
    mul_div_cancel₀ _ split.length_pos.ne']

end Planned

/-- To the allocation an evenly split miner is one miner. -/
theorem allocateWeights_split (before : aggregates.Perm (a :: rest))
    (after : aggregates'.Perm (parts ++ rest)) (split : EvenSplit a parts)
    (distinct : (aggregates.map MinerAggregate.minerId).Nodup)
    (distinct' : (aggregates'.map MinerAggregate.minerId).Nodup)
    {policy : AggregationPolicy K} {result : AllocationResult K}
    (h : allocateWeights aggregates policy = .ok result) :
    ∃ result', allocateWeights aggregates' policy = .ok result' ∧ result'.planned = result.planned ∧
      result'.strategyWeights = result.strategyWeights ∧
      (∀ b ∈ rest, weightOf result' b.minerId = weightOf result b.minerId) ∧
      (parts.map fun c => weightOf result' c.minerId).sum = weightOf result a.minerId := by
  by_cases plannable : Plannable aggregates policy
  · obtain ⟨groups, metrics, hok, normalized, hresult⟩ := allocateWeights_of_plannable plannable
    obtain ⟨groups', metrics', hok', normalized', hresult'⟩ :=
      allocateWeights_of_plannable ((plannable_split before after split).mp plannable)
    rw [h] at hresult
    cases hresult
    have hnodup := nodup_keys_rawGroups aggregates
    have unique := normalized.keys_perm.nodup_iff.mpr hnodup
    have same : groups.Perm groups' := by
      obtain ⟨out, hout, hperm⟩ :=
        cappedNormalize_perm (rawGroups_split before after split) hnodup hok
      rw [hok'] at hout
      cases hout
      exact hperm
    exact ⟨_, hresult', rfl, (sortedItems_eq_of_perm same unique).symm,
      fun b hb => weightOf_rest_split before after split distinct distinct' same unique hb,
      sum_weightOf_parts before after split distinct distinct' same unique⟩
  · obtain ⟨reason, groups, hresult⟩ := allocateWeights_of_not_plannable plannable
    obtain ⟨reason', groups', hresult'⟩ := allocateWeights_of_not_plannable
      fun h' => plannable ((plannable_split before after split).mpr h')
    rw [h] at hresult
    cases hresult
    have zero : ∀ reason groups id, weightOf (unplanned reason groups : AllocationResult K) id = 0 :=
      fun _ _ _ => rfl
    refine ⟨_, hresult', rfl, rfl, fun b _ => ?_, ?_⟩
    · rw [zero, zero]
    · simp [zero]

end Result

end RewardSplit
