import PlanRace.GroupMasses

/-!
# Near copies of a strategy

Further variants in an existing behavior group can only lower the mass of the
group. The comparison of the capping loop has a tolerance of its own, and the
bound below is that tolerance once for every other group.
-/

namespace NearCopies

open JsonText LexOrder CanonicalJson Grouping ScoringV2 NetworkAggregation WaterFilling Allocation
  AllocationInvariants GroupMasses

section Groups

variable {K : Type} [Field K] [LinearOrder K]

/-- The copies join the group of a digest with strategies that are new there. -/
def JoinWithNewStrategies (aggregates copies : List (MinerAggregate K)) (digest : Text) : Prop :=
  ∀ c ∈ copies, c.eligible = true ∧ c.behaviorDigest = digest ∧
    ∀ a ∈ membersOf aggregates digest, a.strategyDigest ≠ c.strategyDigest

/-- Members with strategies of their own leave the other masses of the group. -/
theorem leastMass_append_le {members copies : List (MinerAggregate K)} (nonempty : members ≠ [])
    (new : ∀ c ∈ copies, ∀ a ∈ members, a.strategyDigest ≠ c.strategyDigest) :
    leastMass (members ++ copies) ≤ leastMass members := by
  have hleast := leastMass_isLeast nonempty
  obtain ⟨a, ha, hmass⟩ := mem_strategyMasses.mp hleast.1
  refine (leastMass_isLeast (List.append_ne_nil_of_left_ne_nil nonempty copies)).2 ?_
  refine mem_strategyMasses.mpr ⟨a, List.mem_append_left _ ha, ?_⟩
  have none : copies.filter (fun c => decide (c.strategyDigest = a.strategyDigest)) = [] := by
    rw [List.filter_eq_nil_iff]
    intro c hc
    simpa using fun he => new c hc a ha he.symm
  rw [hmass, under, under, List.filter_append, none, List.append_nil]

end Groups

section Outcome

variable {K : Type} [Field K] [LinearOrder K] [IsStrictOrderedRing K] {cap : K}
  {raw out : List (Text × K)}

omit [IsStrictOrderedRing K] in
theorem sum_valueOf (distinct : (Dict.keys raw).Nodup) (h : Normalized cap raw out) :
    ((Dict.keys raw).map (valueOf out)).sum = 1 := by
  have hout := h.keys_perm.nodup_iff.mpr distinct
  rw [← (h.keys_perm.map (valueOf out)).sum_eq]
  exact (congrArg List.sum (Dict.map_get?_keys hout 0)).trans (h.total_eq_one distinct)

omit [IsStrictOrderedRing K] in
/-- Every group is filled to one level, or has its cap and the least one the rest. -/
theorem valueOf_normalized (distinct : (Dict.keys raw).Nodup) (h : Normalized cap raw out) :
    (∃ s, 0 < s ∧ ∀ k ∈ Dict.keys raw, valueOf out k = fill cap (1 / 10 ^ 15) s (valueOf raw k)) ∨
      ∃ first ∈ Dict.keys raw, (∀ k ∈ Dict.keys raw, lexLe Char.toNat first k = true) ∧
        1 / 10 ^ 15 < 1 - raw.length * cap ∧
        ∀ k ∈ Dict.keys raw, valueOf out k = if k = first then cap + (1 - raw.length * cap) else cap := by
  have hout := h.keys_perm.nodup_iff.mpr distinct
  have read : ∀ {f : Text × K → K}, out.Perm (raw.map fun e => (e.1, f e)) →
      ∀ e ∈ raw, valueOf out e.1 = f e := fun parts e he =>
    valueOf_eq hout (parts.mem_iff.mpr (List.mem_map_of_mem he))
  cases h with
  | level s positive exhausted parts =>
    refine Or.inl ⟨s, positive, fun k hk => ?_⟩
    obtain ⟨e, he, rfl⟩ := List.mem_map.mp hk
    rw [read parts e he, valueOf_eq distinct he]
  | topped first key least left small parts =>
    refine Or.inr ⟨first, key, least, left, fun k hk => ?_⟩
    obtain ⟨e, he, rfl⟩ := List.mem_map.mp hk
    exact read parts e he

/-- Lowering the mass of one group moves every weight by at most the slack of
the other groups. -/
theorem normalized_lowered {raw' out' : List (Text × K)} (distinct : (Dict.keys raw).Nodup)
    (keys : (Dict.keys raw').Perm (Dict.keys raw)) (positive : ∀ k ∈ Dict.keys raw, 0 < valueOf raw' k)
    (h : Normalized cap raw out) (h' : Normalized cap raw' out') {digest : Text}
    (hdigest : digest ∈ Dict.keys raw) (lowered : valueOf raw' digest ≤ valueOf raw digest)
    (unchanged : ∀ k ∈ Dict.keys raw, k ≠ digest → valueOf raw' k = valueOf raw k) :
    valueOf out' digest ≤ valueOf out digest + ((Dict.keys raw).length - 1) * (1 / 10 ^ 15) ∧
      ∀ k ∈ Dict.keys raw, k ≠ digest →
        valueOf out k ≤ valueOf out' k + ((Dict.keys raw).length - 1) * (1 / 10 ^ 15) := by
  have hslack : (0 : K) ≤ 1 / 10 ^ 15 := by positivity
  have distinct' := keys.nodup_iff.mpr distinct
  have sums : ((Dict.keys raw).map (valueOf out)).sum = ((Dict.keys raw).map (valueOf out')).sum := by
    rw [sum_valueOf distinct h, ← (keys.map (valueOf out')).sum_eq, sum_valueOf distinct' h']
  have atLeast : ∀ {first k : Text}, 1 / 10 ^ 15 < 1 - (raw.length : K) * cap →
      cap ≤ if k = first then cap + (1 - raw.length * cap) else cap := by
    intro first k left
    split_ifs <;> linarith
  have hlength : raw'.length = raw.length := by simpa [Dict.keys] using keys.length_eq
  refine shift_bounds hslack distinct sums hdigest ?_
  rcases valueOf_normalized distinct h with ⟨s, hs, before⟩ | ⟨first, hfirst, least, left, before⟩
  · rcases valueOf_normalized distinct' h' with ⟨t, ht, after⟩ | ⟨first', -, -, left', after⟩
    · have filled := fill_lowered cap hslack hs t positive lowered unchanged
      refine filled.imp (fun hloss k hk hne => ?_) fun hgain k hk => ?_
      · rw [before k hk, after k (keys.mem_iff.mpr hk)]
        exact hloss k hk hne
      · rw [before k hk, after k (keys.mem_iff.mpr hk)]
        exact hgain k hk
    · -- every group is at its cap afterwards
      refine Or.inl fun k hk _ => ?_
      rw [before k hk, after k (keys.mem_iff.mpr hk)]
      rw [hlength] at left' ⊢
      exact (fill_le hslack s _).trans (add_le_add_left (atLeast left') _)
  · rcases valueOf_normalized distinct' h' with ⟨t, ht, after⟩ | ⟨first', hfirst', least', left', after⟩
    · refine Or.inr fun k hk => ?_
      rw [before k hk, after k (keys.mem_iff.mpr hk)]
      exact (fill_le hslack t _).trans (add_le_add_left (atLeast left) _)
    · refine Or.inr fun k hk => ?_
      have same : first' = first := lexLe_antisymm (fun _ _ he => Char.toNat_inj.mp he)
        (least' first (keys.mem_iff.mpr hfirst)) (least first' (keys.mem_iff.mp hfirst'))
      rw [before k hk, after k (keys.mem_iff.mpr hk), same, hlength]
      exact le_add_of_nonneg_right hslack

end Outcome

section Joined

variable {K : Type} [Field K] [LinearOrder K] {aggregates copies aggregates' : List (MinerAggregate K)}
  {digest : Text}

/-- Copies of a group leave the groups as they are. -/
theorem keys_rawGroups_joined (joined : aggregates'.Perm (aggregates ++ copies))
    (existing : membersOf aggregates digest ≠ [])
    (near : JoinWithNewStrategies aggregates copies digest) :
    (Dict.keys (rawGroups aggregates')).Perm (Dict.keys (rawGroups aggregates)) := by
  refine (List.perm_ext_iff_of_nodup (nodup_keys_rawGroups _) (nodup_keys_rawGroups _)).mpr
    fun k => ?_
  rw [← membersOf_ne_nil_iff, ← membersOf_ne_nil_iff]
  have hperm := membersOf_perm joined k
  rw [membersOf_append] at hperm
  constructor
  · intro h he
    obtain ⟨c, hc⟩ := List.exists_mem_of_ne_nil _ h
    rw [he, List.nil_append] at hperm
    obtain ⟨hin, hkey⟩ := mem_under.mp (hperm.mem_iff.mp hc)
    have hdigest := (near c (mem_recipients.mp hin).1).2.1
    rw [← hkey, hdigest] at he
    exact existing he
  · intro h he
    rw [he, List.nil_perm, List.append_eq_nil_iff] at hperm
    exact h hperm.1

/-- The mass of the joined group does not grow. -/
theorem leastMass_joined_le (joined : aggregates'.Perm (aggregates ++ copies))
    (existing : membersOf aggregates digest ≠ [])
    (near : JoinWithNewStrategies aggregates copies digest) :
    leastMass (membersOf aggregates' digest) ≤ leastMass (membersOf aggregates digest) := by
  rw [leastMass_eq_of_perm (membersOf_perm joined digest), membersOf_append]
  refine leastMass_append_le existing fun c hc a ha => ?_
  exact (near c (mem_recipients.mp (mem_under.mp hc).1).1).2.2 a ha

/-- The other masses stay. -/
theorem leastMass_other_eq (joined : aggregates'.Perm (aggregates ++ copies))
    (near : JoinWithNewStrategies aggregates copies digest) {k : Text} (other : k ≠ digest) :
    leastMass (membersOf aggregates' k) = leastMass (membersOf aggregates k) := by
  have none : membersOf copies k = [] := by
    rw [membersOf, under, List.filter_eq_nil_iff]
    intro c hc
    rw [(near c (mem_recipients.mp hc).1).2.1]
    simpa using other.symm
  rw [leastMass_eq_of_perm (membersOf_perm joined k), membersOf_append, none, List.append_nil]

variable {policy : AggregationPolicy K} {result : AllocationResult K}

variable [IsStrictOrderedRing K]

/-- Near copies of a planned allocation's group keep it planned, with the same
groups. Their group gains nothing and the other groups lose nothing, up to the
slack of the loop's comparison once for every other group. -/
theorem nearCopies_gain_free (before : allocateWeights aggregates policy = .ok result)
    (planned : result.planned = true) (joined : aggregates'.Perm (aggregates ++ copies))
    (existing : digest ∈ Dict.keys result.strategyWeights)
    (near : JoinWithNewStrategies aggregates copies digest) :
    ∃ result', allocateWeights aggregates' policy = .ok result' ∧ result'.planned = true ∧
      Dict.keys result'.strategyWeights = Dict.keys result.strategyWeights ∧
      strategyWeight result' digest ≤ strategyWeight result digest +
        (result.strategyWeights.length - 1) * (1 / 10 ^ 15) ∧
      ∀ other ∈ Dict.keys result.strategyWeights, other ≠ digest →
        strategyWeight result other ≤ strategyWeight result' other +
          (result.strategyWeights.length - 1) * (1 / 10 ^ 15) := by
  have plannable := plannable_of_planned before planned
  obtain ⟨groups, metrics, -, normalized, hresult⟩ := allocateWeights_of_plannable plannable
  rw [before] at hresult
  cases hresult
  have distinct := nodup_keys_rawGroups aggregates
  have sortedKeys := (keys_sortedItems_perm groups).trans normalized.keys_perm
  have hdigest : digest ∈ Dict.keys (rawGroups aggregates) := sortedKeys.mem_iff.mp existing
  have members := membersOf_ne_nil_iff.mpr hdigest
  have keys := keys_rawGroups_joined joined members near
  have hlength : (rawGroups aggregates').length = (rawGroups aggregates).length := by
    simpa [Dict.keys] using keys.length_eq
  have plannable' : Plannable aggregates' policy := by
    refine ⟨?_, hlength ▸ plannable.diverse, hlength ▸ plannable.room⟩
    obtain ⟨a, ha⟩ := List.exists_mem_of_ne_nil _
      (membersOf_ne_nil_iff.mpr (keys.mem_iff.mpr hdigest))
    exact List.ne_nil_of_mem (mem_under.mp ha).1
  obtain ⟨groups', metrics', -, normalized', hresult'⟩ := allocateWeights_of_plannable plannable'
  have moved := normalized_lowered distinct keys ?_ normalized normalized' hdigest ?_ ?_
  · have hgroups := normalized.keys_perm.nodup_iff.mpr distinct
    have hgroups' := (normalized'.keys_perm.trans keys).nodup_iff.mpr distinct
    have count : (Dict.keys (rawGroups aggregates)).length = (sortedItems groups).length := by
      simpa [Dict.keys] using sortedKeys.length_eq.symm
    rw [count] at moved
    refine ⟨_, hresult', rfl, ?_, ?_, fun other hother hne => ?_⟩
    · exact keys_sortedItems_eq_of_perm
        ((normalized'.keys_perm.trans keys).trans normalized.keys_perm.symm)
    · rw [strategyWeight_planned hgroups, strategyWeight_planned hgroups']
      exact moved.1
    · rw [strategyWeight_planned hgroups, strategyWeight_planned hgroups']
      exact moved.2 other (sortedKeys.mem_iff.mp hother) hne
  · intro k hk
    have hk' := keys.mem_iff.mpr hk
    have hentry := (Dict.get?_eq_some_iff (nodup_keys_rawGroups aggregates')).mp (get?_rawGroups hk')
    rw [valueOf_rawGroups hk']
    exact rawGroups_pos aggregates' _ hentry
  · rw [valueOf_rawGroups (keys.mem_iff.mpr hdigest), valueOf_rawGroups hdigest]
    exact leastMass_joined_le joined members near
  · intro k hk hne
    rw [valueOf_rawGroups (keys.mem_iff.mpr hk), valueOf_rawGroups hk]
    exact leastMass_other_eq joined near hne

end Joined

theorem strategyMasses_of_nodup {K : Type} [Field K] {members : List (MinerAggregate K)}
    (h : (members.map MinerAggregate.strategyDigest).Nodup) :
    strategyMasses members = members.map MinerAggregate.reward := by
  rw [strategyMasses, groupBy_of_nodup h, List.map_map]
  simp [Function.comp_def]

noncomputable section Crowd

/-! ## Many groups just above the cap

Fifteen hundred groups hold the cap and the slack each. A near copy that halves
the mass of one more group takes them out of the capped ones, and the last
group pays for all of them.
-/

def crowdCap : ℝ := 2 / 3003

/-- The cap and the slack. -/
def crowdMass : ℝ := 2 / 3003 + 1 / 10 ^ 15

theorem crowdMass_bounds : 0 < crowdMass ∧ crowdMass < 1 := by norm_num [crowdMass]

def crowdName (i : Nat) : Text := List.replicate (i + 1) 'h'

def loner (name : Text) (reward : ℝ) : MinerAggregate ℝ :=
  Sample.aggregate name name name reward

def crowd : List (MinerAggregate ℝ) :=
  loner ['g'] (2 * crowdMass) :: loner ['u'] (1 - 1501 * crowdMass) ::
    (List.range 1500).map fun i => loner (crowdName i) crowdMass

def nearCopy : MinerAggregate ℝ := Sample.aggregate ['c'] ['g'] ['c'] crowdMass

def crowdPolicy : AggregationPolicy ℝ :=
  Sample.policy crowdCap ⟨by norm_num [crowdCap], by norm_num [crowdCap]⟩

/-- The names of the groups. -/
def crowdNames : List Text := ['g'] :: ['u'] :: (List.range 1500).map crowdName

theorem crowdName_ne {c : Char} (h : c ≠ 'h') (i : Nat) : crowdName i ≠ [c] := by
  intro he
  cases i with
  | zero => exact h (by simpa [crowdName] using he.symm)
  | succ i => simpa [crowdName] using congrArg List.length he

theorem not_mem_crowd {c : Char} (h : c ≠ 'h') : [c] ∉ (List.range 1500).map crowdName := by
  intro hmem
  obtain ⟨i, -, hi⟩ := List.mem_map.mp hmem
  exact crowdName_ne h i hi

theorem crowdNames_nodup : crowdNames.Nodup := by
  have injective : Function.Injective crowdName := fun i j h => by
    simpa [crowdName] using congrArg List.length h
  refine List.nodup_cons.mpr ⟨?_, List.nodup_cons.mpr ⟨not_mem_crowd (by decide), ?_⟩⟩
  · exact List.not_mem_cons_of_ne_of_not_mem (by decide) (not_mem_crowd (by decide))
  · exact (List.nodup_range).map injective

theorem map_crowd (f : MinerAggregate ℝ → Text) (h : ∀ name reward, f (loner name reward) = name) :
    crowd.map f = crowdNames := by
  simp [crowd, crowdNames, h, Function.comp_def]

theorem reward_pos_of_crowd : ∀ a ∈ crowd, a.eligible = true ∧ 0 < a.reward := by
  intro a ha
  rcases List.mem_cons.mp ha with rfl | ha
  · exact ⟨rfl, by norm_num [loner, Sample.aggregate, crowdMass]⟩
  rcases List.mem_cons.mp ha with rfl | ha
  · exact ⟨rfl, by norm_num [loner, Sample.aggregate, crowdMass]⟩
  · obtain ⟨i, -, rfl⟩ := List.mem_map.mp ha
    exact ⟨rfl, by norm_num [loner, Sample.aggregate, crowdMass]⟩

theorem recipients_crowd : recipients crowd = crowd :=
  List.filter_eq_self.mpr fun a ha => by
    obtain ⟨heligible, hpos⟩ := reward_pos_of_crowd a ha
    simp [heligible, hpos]

theorem keys_crowd : Dict.keys (rawGroups crowd) = crowdNames := by
  rw [keys_rawGroups, recipients_crowd, map_crowd _ fun _ _ => rfl, distinct_of_nodup crowdNames_nodup]

/-- Everyone in the crowd is a group of one. -/
theorem membersOf_crowd {a : MinerAggregate ℝ} (ha : a ∈ crowd) :
    membersOf crowd a.behaviorDigest = [a] := by
  rw [membersOf, recipients_crowd]
  refine under_of_nodup ?_ ha
  rw [map_crowd _ fun _ _ => rfl]
  exact crowdNames_nodup

theorem leastMass_crowd {a : MinerAggregate ℝ} (ha : a ∈ crowd) :
    leastMass (membersOf crowd a.behaviorDigest) = a.reward := by
  have alone : strategyMasses [a] = [a.reward] := strategyMasses_of_nodup (by simp)
  rw [membersOf_crowd ha, leastMass, alone]
  rfl

theorem crowd_joined : JoinWithNewStrategies crowd [nearCopy] ['g'] := by
  intro c hc
  rw [List.mem_singleton.mp hc]
  refine ⟨rfl, rfl, fun a ha => ?_⟩
  have alone : membersOf crowd ['g'] = [loner ['g'] (2 * crowdMass)] :=
    membersOf_crowd (a := loner ['g'] (2 * crowdMass)) List.mem_cons_self
  rw [alone, List.mem_singleton] at ha
  rw [ha]
  exact (by decide : ['g'] ≠ ['c'])

theorem loners_mem : loner ['g'] (2 * crowdMass) ∈ crowd ∧ loner ['u'] (1 - 1501 * crowdMass) ∈ crowd ∧
    ∀ i < 1500, loner (crowdName i) crowdMass ∈ crowd := by
  refine ⟨List.mem_cons_self, List.mem_cons_of_mem _ List.mem_cons_self, fun i hi => ?_⟩
  exact List.mem_cons_of_mem _ (List.mem_cons_of_mem _
    (List.mem_map.mpr ⟨i, List.mem_range.mpr hi, rfl⟩))

theorem key_of_loner {name : Text} {reward : ℝ} (h : loner name reward ∈ crowd) :
    name ∈ Dict.keys (rawGroups crowd) := by
  rw [keys_crowd, ← map_crowd MinerAggregate.behaviorDigest fun _ _ => rfl]
  exact List.mem_map.mpr ⟨_, h, rfl⟩

theorem valueOf_loner {name : Text} {reward : ℝ} (h : loner name reward ∈ crowd) :
    valueOf (rawGroups crowd) name = reward := by
  rw [valueOf_rawGroups (key_of_loner h)]
  exact leastMass_crowd h

/-- Nearly all groups of the crowd are alike. -/
theorem sum_crowdNames {f : Text → ℝ} {c : ℝ} (alike : ∀ i < 1500, f (crowdName i) = c) :
    (crowdNames.map f).sum = f ['g'] + f ['u'] + 1500 * c := by
  have many : ((List.range 1500).map crowdName).map f = (List.range 1500).map fun _ => c := by
    rw [List.map_map]
    exact List.map_congr_left fun i hi => alike i (List.mem_range.mp hi)
  rw [crowdNames, List.map_cons, List.map_cons, many, List.sum_cons, List.sum_cons, List.map_const',
    List.sum_replicate, List.length_range, nsmul_eq_mul]
  push_cast
  ring

/-- Without the copy the loop cuts the crowd to the cap. -/
theorem last_before {out : List (Text × ℝ)} (h : Normalized crowdCap (rawGroups crowd) out) :
    valueOf out ['u'] = 1 - 1501 * crowdCap := by
  have hnodup : (Dict.keys (rawGroups crowd)).Nodup := nodup_keys_rawGroups crowd
  have hsum := sum_valueOf hnodup h
  obtain ⟨hg, hu, hmany⟩ := loners_mem
  have hcap : crowdCap + 1 / 10 ^ 15 = crowdMass := rfl
  obtain ⟨hmass, hsmall⟩ := crowdMass_bounds
  have hlength : (rawGroups crowd).length = 1502 := by
    have h := congrArg List.length keys_crowd
    simpa [Dict.keys, crowdNames] using h
  rcases valueOf_normalized hnodup h with ⟨s, hs, level⟩ | ⟨first, -, -, left, -⟩
  · have at_ : ∀ {name reward}, loner name reward ∈ crowd →
        valueOf out name = fill crowdCap (1 / 10 ^ 15) s reward := fun hmem => by
      rw [level _ (key_of_loner hmem), valueOf_loner hmem]
    rw [keys_crowd, sum_crowdNames fun i hi => at_ (hmany i hi), at_ hg, at_ hu] at hsum
    rw [at_ hu]
    by_cases cut : crowdCap + 1 / 10 ^ 15 < s * crowdMass
    · have cutDouble : crowdCap + 1 / 10 ^ 15 < s * (2 * crowdMass) := by nlinarith
      rw [fill, if_pos cutDouble, fill, fill, if_pos cut] at hsum
      rw [fill]
      linarith
    · have hslack : (0 : ℝ) ≤ 1 / 10 ^ 15 := by positivity
      have low : s ≤ 1 := by
        rw [hcap, not_lt] at cut
        exact le_of_mul_le_mul_right (by linarith) hmass
      have double := fill_le_mul crowdCap hslack s (2 * crowdMass)
      have last := fill_le_mul crowdCap hslack s (1 - 1501 * crowdMass)
      have one := fill_le_mul crowdCap hslack s crowdMass
      by_cases cutDouble : crowdCap + 1 / 10 ^ 15 < s * (2 * crowdMass)
      · rw [fill, if_pos cutDouble] at hsum
        have rest : s * (1 - crowdMass) ≤ 1 - crowdMass := by nlinarith
        linarith
      · have half : s ≤ 1 / 2 := by
          rw [hcap, not_lt] at cutDouble
          exact le_of_mul_le_mul_right (by linarith) hmass
        nlinarith
  · rw [hlength] at left
    norm_num [crowdCap] at left

theorem keys_joined : (Dict.keys (rawGroups (crowd ++ [nearCopy]))).Perm crowdNames := by
  have h := keys_rawGroups_joined (List.Perm.refl _)
    (membersOf_ne_nil_iff.mpr (key_of_loner loners_mem.1)) crowd_joined
  rwa [keys_crowd] at h

theorem key_of_joined {name : Text} {reward : ℝ} (h : loner name reward ∈ crowd) :
    name ∈ Dict.keys (rawGroups (crowd ++ [nearCopy])) := by
  have hkey := key_of_loner h
  rw [keys_crowd] at hkey
  exact keys_joined.mem_iff.mpr hkey

theorem valueOf_joined {name : Text} {reward : ℝ} (h : loner name reward ∈ crowd)
    (other : name ≠ ['g']) : valueOf (rawGroups (crowd ++ [nearCopy])) name = reward := by
  rw [valueOf_rawGroups (key_of_joined h), leastMass_other_eq (List.Perm.refl _) crowd_joined other,
    ← valueOf_rawGroups (key_of_loner h), valueOf_loner h]

/-- The copy's lower mass is the mass of its group. -/
theorem valueOf_joined_group : valueOf (rawGroups (crowd ++ [nearCopy])) ['g'] = crowdMass := by
  have hmass := crowdMass_bounds.1
  have alone : membersOf crowd ['g'] = [loner ['g'] (2 * crowdMass)] := membersOf_crowd loners_mem.1
  have copy : membersOf [nearCopy] ['g'] = [nearCopy] := by
    simp [membersOf, recipients, under, nearCopy, Sample.aggregate, hmass]
  have masses : strategyMasses [loner ['g'] (2 * crowdMass), nearCopy] = [2 * crowdMass, crowdMass] :=
    strategyMasses_of_nodup (by decide)
  rw [valueOf_rawGroups (key_of_joined loners_mem.1), membersOf_append, alone, copy,
    List.singleton_append, leastMass, masses]
  exact min_eq_right (by linarith)

/-- With the copy the masses sum to one below the cap and the slack. -/
theorem joined_balanced : total (rawGroups (crowd ++ [nearCopy])) = 1 ∧
    ∀ e ∈ rawGroups (crowd ++ [nearCopy]), e.2 ≤ crowdCap + 1 / 10 ^ 15 := by
  obtain ⟨hg, hu, hmany⟩ := loners_mem
  have hnodup := nodup_keys_rawGroups (crowd ++ [nearCopy])
  have many : ∀ i < 1500, valueOf (rawGroups (crowd ++ [nearCopy])) (crowdName i) = crowdMass :=
    fun i hi => valueOf_joined (hmany i hi) (crowdName_ne (by decide) i)
  have last := valueOf_joined hu (by decide)
  constructor
  · have hsum := (keys_joined.map (valueOf (rawGroups (crowd ++ [nearCopy])))).sum_eq
    rw [sum_crowdNames many, valueOf_joined_group, last] at hsum
    have htotal : total (rawGroups (crowd ++ [nearCopy])) =
        ((Dict.keys (rawGroups (crowd ++ [nearCopy]))).map
          (valueOf (rawGroups (crowd ++ [nearCopy])))).sum :=
      (congrArg List.sum (Dict.map_get?_keys hnodup 0)).symm
    rw [htotal, hsum]
    ring
  · intro e he
    have hcap : crowdCap + 1 / 10 ^ 15 = crowdMass := rfl
    have hkey := keys_joined.mem_iff.mp (List.mem_map_of_mem he)
    rw [← valueOf_eq hnodup he, hcap]
    rcases List.mem_cons.mp hkey with hname | hkey
    · rw [hname, valueOf_joined_group]
    rcases List.mem_cons.mp hkey with hname | hkey
    · rw [hname, last]
      norm_num [crowdMass]
    · obtain ⟨i, hi, hname⟩ := List.mem_map.mp hkey
      rw [← hname, many i (List.mem_range.mp hi)]

theorem crowd_plannable {aggregates : List (MinerAggregate ℝ)}
    (keys : (Dict.keys (rawGroups aggregates)).Perm crowdNames) :
    Plannable aggregates crowdPolicy := by
  have hlength : (rawGroups aggregates).length = 1502 := by
    have h := keys.length_eq
    simpa [Dict.keys, crowdNames] using h
  refine ⟨?_, ?_, ?_⟩
  · have hkey : ['g'] ∈ Dict.keys (rawGroups aggregates) := keys.mem_iff.mpr List.mem_cons_self
    obtain ⟨a, ha⟩ := List.exists_mem_of_ne_nil _ (membersOf_ne_nil_iff.mpr hkey)
    exact List.ne_nil_of_mem (mem_under.mp ha).1
  · rw [hlength]
    exact (by decide : (1 : Int) ≤ (1502 : Nat))
  · rw [hlength]
    norm_num [crowdPolicy, Sample.policy, crowdCap]

theorem crowd_minersNodup : ((crowd ++ [nearCopy]).map MinerAggregate.minerId).Nodup := by
  have new : ['c'] ∉ crowdNames := by
    intro h
    rcases List.mem_cons.mp h with h | h
    · cases h
    rcases List.mem_cons.mp h with h | h
    · cases h
    · exact not_mem_crowd (by decide) h
  rw [List.map_append, map_crowd _ fun _ _ => rfl, List.nodup_append']
  refine ⟨crowdNames_nodup, List.nodup_singleton _, fun name hname hcopy => ?_⟩
  have hc : name = ['c'] := List.mem_singleton.mp hcopy
  rw [hc] at hname
  exact new hname

/-- The near copy takes more than a trillionth from the last group. -/
theorem nearCopy_costs_other :
    ((crowd ++ [nearCopy]).map MinerAggregate.minerId).Nodup ∧
    JoinWithNewStrategies crowd [nearCopy] ['g'] ∧
    ∃ result result', allocateWeights crowd crowdPolicy = .ok result ∧ result.planned = true ∧
      ['g'] ∈ Dict.keys result.strategyWeights ∧ ['u'] ∈ Dict.keys result.strategyWeights ∧
      allocateWeights (crowd ++ [nearCopy]) crowdPolicy = .ok result' ∧
      strategyWeight result' ['u'] + 1 / 10 ^ 12 < strategyWeight result ['u'] := by
  have plannable : Plannable crowd crowdPolicy := crowd_plannable (keys_crowd ▸ List.Perm.refl _)
  have plannable' := crowd_plannable keys_joined
  obtain ⟨groups, metrics, -, normalized, before⟩ := allocateWeights_of_plannable plannable
  obtain ⟨groups', metrics', hok, normalized', after⟩ := allocateWeights_of_plannable plannable'
  have hnodup := nodup_keys_rawGroups crowd
  have hnodup' := nodup_keys_rawGroups (crowd ++ [nearCopy])
  have kept := cappedNormalize_of_balanced hnodup' joined_balanced.1 joined_balanced.2
    (not_lt.mpr plannable'.room)
  have same : groups' = rawGroups (crowd ++ [nearCopy]) := Except.ok.inj (hok.symm.trans kept)
  have keys := (keys_sortedItems_perm groups).trans normalized.keys_perm
  refine ⟨crowd_minersNodup, crowd_joined, _, _, before, rfl,
    keys.mem_iff.mpr (key_of_loner loners_mem.1), keys.mem_iff.mpr (key_of_loner loners_mem.2.1),
    after, ?_⟩
  rw [strategyWeight_planned (normalized.keys_perm.nodup_iff.mpr hnodup),
    strategyWeight_planned (normalized'.keys_perm.nodup_iff.mpr hnodup'), last_before normalized, same,
    valueOf_joined loners_mem.2.1 (by decide)]
  norm_num [crowdMass, crowdCap]

theorem crowd_gain_free :
    ∃ result result', allocateWeights crowd crowdPolicy = .ok result ∧
      allocateWeights (crowd ++ [nearCopy]) crowdPolicy = .ok result' ∧ result'.planned = true ∧
      Dict.keys result'.strategyWeights = Dict.keys result.strategyWeights ∧
      strategyWeight result' ['g'] ≤ strategyWeight result ['g'] +
        (result.strategyWeights.length - 1) * (1 / 10 ^ 15) ∧
      ∀ other ∈ Dict.keys result.strategyWeights, other ≠ ['g'] →
        strategyWeight result other ≤ strategyWeight result' other +
          (result.strategyWeights.length - 1) * (1 / 10 ^ 15) := by
  have plannable : Plannable crowd crowdPolicy := crowd_plannable (keys_crowd ▸ List.Perm.refl _)
  obtain ⟨groups, metrics, -, normalized, before⟩ := allocateWeights_of_plannable plannable
  have keys := (keys_sortedItems_perm groups).trans normalized.keys_perm
  obtain ⟨result', h⟩ := nearCopies_gain_free before rfl (List.Perm.refl _)
    (keys.mem_iff.mpr (key_of_loner loners_mem.1)) crowd_joined
  exact ⟨_, result', before, h⟩

end Crowd

end NearCopies
