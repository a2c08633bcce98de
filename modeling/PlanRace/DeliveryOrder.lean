import PlanRace.RewardConservation
import PlanRace.RobustStatistics

/-!
# Delivery order

Whether a network is accepted does not depend on the order of its observations.
Its aggregates depend on it only through the reward that stands for a group of
duplicates, which is the first one delivered.
-/

namespace DeliveryOrder

open JsonText LexOrder Grouping Statistics ScoringV2 NetworkAggregation RewardConservation
  RobustStatistics

variable {K : Type} [Field K] [LinearOrder K]

section Groups

theorem cacheGroup_perm {xs ys : List (EpochObservation K)} (h : xs.Perm ys)
    (o : EpochObservation K) : (cacheGroup xs o).Perm (cacheGroup ys o) :=
  under_perm _ (h.filter _) _

/-- In both orders the same reward stands for every group of duplicates. -/
def SameRepresentatives (xs ys : List (EpochObservation K)) : Prop :=
  ∀ o ∈ xs, o.accepted = true → ∀ first ∈ (cacheGroup xs o).head?,
    ∀ first' ∈ (cacheGroup ys o).head?, first.reward = first'.reward

/-- Duplicates with exactly equal rewards have the same representative in any
order. -/
theorem sameRepresentatives_of_equal {xs ys : List (EpochObservation K)} (h : xs.Perm ys)
    (equal : ∀ o ∈ xs, ∀ p ∈ cacheGroup xs o, ∀ q ∈ cacheGroup xs o, p.reward = q.reward) :
    SameRepresentatives xs ys := by
  intro o ho _ first hfirst first' hfirst'
  apply equal o ho first (List.mem_of_mem_head? hfirst)
  exact (cacheGroup_perm h o).mem_iff.mpr (List.mem_of_mem_head? hfirst')

variable [IsStrictOrderedRing K]

theorem groupOk_of_perm {members members' : List (EpochObservation K)} (h : members.Perm members')
    (ok : GroupOk members) : GroupOk members' := by
  obtain ⟨miners, evidence, spread⟩ := groupOk_iff.mp ok
  refine groupOk_iff.mpr ⟨(h.map _).nodup_iff.mp miners, ?_, ?_⟩
  · intro p hp q hq
    exact evidence p (h.mem_iff.mpr hp) q (h.mem_iff.mpr hq)
  · intro p hp q hq
    exact spread p (h.mem_iff.mpr hp) q (h.mem_iff.mpr hq)

theorem networkOk_of_perm {xs ys : List (EpochObservation K)} (h : xs.Perm ys)
    {minerIds : List Text} {policy : AggregationPolicy K} (ok : NetworkOk xs minerIds policy) :
    NetworkOk ys minerIds policy where
  rosterNonempty := ok.rosterNonempty
  rosterUnique := ok.rosterUnique
  inRoster := fun o ho => ok.inRoster o (h.mem_iff.mpr ho)
  onSchedule := fun o ho => ok.onSchedule o (h.mem_iff.mpr ho)
  oncePerTask := by
    intro m hm
    exact ((under_perm _ h m).map _).nodup_iff.mp (ok.oncePerTask m hm)
  groups := by
    intro g hg
    obtain ⟨o, ho, accepted, members⟩ := mem_cacheGroups_iff.mp ⟨g, hg, rfl⟩
    obtain ⟨g', hg', members'⟩ := mem_cacheGroups_iff.mpr ⟨o, h.mem_iff.mpr ho, accepted, rfl⟩
    have own := ok.groups g' hg'
    rw [members'] at own
    rw [members]
    exact groupOk_of_perm (cacheGroup_perm h o) own

/-- With the same representative an observation gets the same part. -/
theorem shared_eq_of_perm {xs ys : List (EpochObservation K)} (h : xs.Perm ys)
    (same : SameRepresentatives xs ys) {o : EpochObservation K} (ho : o ∈ xs) :
    shared xs o = shared ys o := by
  by_cases accepted : o.accepted = true
  · have perm := cacheGroup_perm h o
    have representatives := same o ho accepted
    rw [shared, shared, if_pos accepted, if_pos accepted]
    cases hx : cacheGroup xs o with
    | nil =>
      rw [hx] at perm
      rw [perm.symm.eq_nil]
    | cons first rest =>
      cases hy : cacheGroup ys o with
      | nil =>
        rw [hx, hy] at perm
        cases perm.eq_nil
      | cons first' rest' =>
        rw [hx, hy] at perm representatives
        have reward := representatives first rfl first' rfl
        have size := perm.length_eq
        unfold shareWith EpochObservation.share
        simp only [reward, size]
  · rw [shared, shared, if_neg accepted, if_neg accepted]

variable [FloorSemiring K] [RealFunctions K]

theorem exists_aggregates_of_perm {xs ys : List (EpochObservation K)} (h : xs.Perm ys)
    {minerIds : List Text} {policy : AggregationPolicy K}
    (accepted : ∃ aggregates, aggregateNetwork xs minerIds policy = .ok aggregates) :
    ∃ aggregates, aggregateNetwork ys minerIds policy = .ok aggregates := by
  obtain ⟨aggregates, hx⟩ := accepted
  obtain ⟨ok, -⟩ := aggregateNetwork_ok_iff.mp hx
  exact ⟨_, aggregateNetwork_ok_iff.mpr ⟨networkOk_of_perm h ok, rfl⟩⟩

theorem memberAggregate_eq_of_perm {xs ys : List (EpochObservation K)} (h : xs.Perm ys)
    (same : SameRepresentatives xs ys) {minerIds : List Text} {policy : AggregationPolicy K}
    (ok : NetworkOk xs minerIds policy) {m : Text} (hm : m ∈ minerIds) :
    memberAggregate xs policy m = memberAggregate ys policy m := by
  have shares : (under EpochObservation.minerId ys m).map (shared xs) =
      (under EpochObservation.minerId ys m).map (shared ys) := by
    apply List.map_congr_left
    intro o ho
    exact shared_eq_of_perm h same (h.mem_iff.mpr (mem_under.mp ho).1)
  rw [memberAggregate, memberAggregate, ← shares]
  apply aggregateOf_eq_of_perm
  · exact (under_perm _ h m).map _
  · rw [map_taskId_shared]
    exact ok.oncePerTask m hm

/-- A permutation of the observations changes neither whether a network is
accepted nor, with the same representatives, any aggregate. -/
theorem aggregateNetwork_of_perm {xs ys : List (EpochObservation K)} (h : xs.Perm ys)
    (minerIds : List Text) (policy : AggregationPolicy K) :
    ((∃ aggregates, aggregateNetwork xs minerIds policy = .ok aggregates) ↔
      ∃ aggregates, aggregateNetwork ys minerIds policy = .ok aggregates) ∧
    (SameRepresentatives xs ys → ∀ aggregates, aggregateNetwork xs minerIds policy = .ok aggregates →
      aggregateNetwork ys minerIds policy = .ok aggregates) ∧
    ((∀ o ∈ xs, ∀ p ∈ cacheGroup xs o, ∀ q ∈ cacheGroup xs o, p.reward = q.reward) →
      SameRepresentatives xs ys) := by
  refine ⟨⟨exists_aggregates_of_perm h, exists_aggregates_of_perm h.symm⟩, ?_,
    sameRepresentatives_of_equal h⟩
  intro same aggregates hx
  obtain ⟨ok, rfl⟩ := aggregateNetwork_ok_iff.mp hx
  refine aggregateNetwork_ok_iff.mpr ⟨networkOk_of_perm h ok, ?_⟩
  apply List.map_congr_left
  intro m hm
  exact memberAggregate_eq_of_perm h same ok hm

end Groups

/-! ## Two duplicates a nanopoint apart -/

namespace Sample

open NetworkAggregation.Sample

noncomputable section

def network : AggregationPolicy ℝ := policy 1 full_weight

/-- A miner's observation of one shared strategy. -/
def copy (minerId : Char) (reward : ℝ) (bounds : 0 ≤ reward ∧ reward ≤ 100) : EpochObservation ℝ :=
  { (observation minerId 0 ['x'] : EpochObservation ℝ) with reward := reward, rewardBounds := bounds }

theorem networkOk {r s : ℝ} (hr : 0 ≤ r ∧ r ≤ 100) (hs : 0 ≤ s ∧ s ≤ 100)
    (close : |r - s| ≤ 1 / 10 ^ 9) :
    NetworkOk [copy 'a' r hr, copy 'b' s hs] [['a'], ['b']] network where
  rosterNonempty := by simp
  rosterUnique := by decide
  inRoster := by simp [copy, observation]
  onSchedule := by
    intro o ho
    rcases List.mem_pair.mp ho with rfl | rfl
    · exact ⟨scheduledTask 0, List.mem_cons_self, rfl, rfl⟩
    · exact ⟨scheduledTask 0, List.mem_cons_self, rfl, rfl⟩
  oncePerTask := by
    intro m hm
    rcases List.mem_pair.mp hm with rfl | rfl <;> exact List.nodup_singleton ['t', '0']
  groups := by
    have groups : cacheGroups [copy 'a' r hr, copy 'b' s hs] =
        [((['c', '0'], ['s', 'x']), [copy 'a' r hr, copy 'b' s hs])] := rfl
    obtain ⟨below, above⟩ := abs_le.mp close
    have tolerance : (0 : ℝ) ≤ 1 / 10 ^ 9 := by norm_num
    intro g hg
    rw [groups] at hg
    obtain rfl := List.mem_singleton.mp hg
    have miners : [['a'], ['b']].Nodup := by decide
    refine groupOk_iff.mpr ⟨miners, ?_, ?_⟩
    · intro p hp q hq
      rcases List.mem_pair.mp hp with rfl | rfl <;> rcases List.mem_pair.mp hq with rfl | rfl <;> rfl
    · intro p hp q hq
      rcases List.mem_pair.mp hp with rfl | rfl <;> rcases List.mem_pair.mp hq with rfl | rfl <;>
        simp only [copy] <;> linarith

/-- A cached score of nothing. -/
def nothing : EpochObservation ℝ := copy 'a' 0 (by norm_num)

/-- A duplicate within the tolerance. -/
def nearly : EpochObservation ℝ := copy 'b' (1 / 10 ^ 9) (by norm_num)

theorem bounds_ten : (0 : ℝ) ≤ 10 ∧ (10 : ℝ) ≤ 100 := by norm_num

/-- Two duplicates with one reward. -/
def mine : EpochObservation ℝ := copy 'a' 10 bounds_ten

def theirs : EpochObservation ℝ := copy 'b' 10 bounds_ten

theorem familyRewards_nothing : familyRewards network
    ((under EpochObservation.minerId [nothing, nearly] ['a']).map (shared [nothing, nearly])) ['f'] =
      [(0 : ℝ) / (2 : ℕ), 0, 0] := by
  rfl

theorem familyRewards_nearly : familyRewards network
    ((under EpochObservation.minerId [nearly, nothing] ['a']).map (shared [nearly, nothing])) ['f'] =
      [(1 / 10 ^ 9 : ℝ) / (2 : ℕ), 0, 0] := by
  rfl

/-- The aggregate of a miner has the mean reward as the score of its family. -/
theorem familyScores_eq (observations : List (EpochObservation ℝ)) (m : Text) :
    (memberAggregate observations network m).familyScores = [(['f'], max 0 (fmean
      (familyRewards network ((under EpochObservation.minerId observations m).map
        (shared observations)) ['f'])))] := by
  rw [network, ← familyScoreValue_policy]
  rfl

end

end Sample

/-- The reward delivered first stands for both duplicates. -/
theorem delivery_order_matters :
    ¬ ∀ (xs ys : List (EpochObservation ℝ)), xs.Perm ys →
      ∀ (minerIds : List Text) (policy : AggregationPolicy ℝ) (aggregates : List (MinerAggregate ℝ)),
        aggregateNetwork xs minerIds policy = .ok aggregates →
          aggregateNetwork ys minerIds policy = .ok aggregates := by
  intro order
  have ok : NetworkOk [Sample.nothing, Sample.nearly] [['a'], ['b']] Sample.network :=
    Sample.networkOk _ _ (by norm_num)
  have first := aggregateNetwork_ok_iff.mpr ⟨ok, rfl⟩
  have second := order _ [Sample.nearly, Sample.nothing] (.swap _ _ []) _ _ _ first
  obtain ⟨-, same⟩ := aggregateNetwork_ok_iff.mp second
  have scores := congrArg MinerAggregate.familyScores (List.cons.inj same).1
  rw [Sample.familyScores_eq, Sample.familyScores_eq, Sample.familyRewards_nothing,
    Sample.familyRewards_nearly] at scores
  have value := congrArg Prod.snd (List.cons.inj scores).1
  norm_num [fmean] at value

/-- Equal duplicates may be delivered in either order. -/
theorem aggregateNetwork_of_swap :
    ∃ aggregates,
      aggregateNetwork [Sample.mine, Sample.theirs] [['a'], ['b']] Sample.network =
        .ok aggregates ∧
      aggregateNetwork [Sample.theirs, Sample.mine] [['a'], ['b']] Sample.network =
        .ok aggregates := by
  have ok : NetworkOk [Sample.mine, Sample.theirs] [['a'], ['b']] Sample.network :=
    Sample.networkOk _ _ (by norm_num)
  have first := aggregateNetwork_ok_iff.mpr ⟨ok, rfl⟩
  have swap := List.Perm.swap Sample.theirs Sample.mine []
  obtain ⟨-, ordered, representatives⟩ := aggregateNetwork_of_perm swap [['a'], ['b']] Sample.network
  refine ⟨_, first, ordered (representatives ?_) _ first⟩
  intro o _ p hp q hq
  have ten : ∀ r ∈ [Sample.mine, Sample.theirs], r.reward = 10 := by
    intro r hr
    rcases List.mem_pair.mp hr with rfl | rfl <;> rfl
  rw [ten p (mem_cacheGroup.mp hp).1, ten q (mem_cacheGroup.mp hq).1]

end DeliveryOrder
