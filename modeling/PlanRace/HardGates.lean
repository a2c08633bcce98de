import PlanRace.AllocationInvariants
import PlanRace.CohortEvaluation
import PlanRace.DeliveryOrder
import PlanRace.PortfolioDiversity
import PlanRace.SilentObservations

/-!
# The hard gates, end to end

A miner with a positive weight passed every gate of its policy, and in every
required family some accepted observation of its own kept a reward when the
rewards of duplicates were shared. A holdout is rewarded behind the gates on
its fixtures.
-/

namespace HardGates

open JsonText LexOrder Grouping Statistics ScoringV2 NetworkAggregation Allocation
  AllocationInvariants RobustStatistics EvaluationV2 CohortEvaluation TaskgenV2 IndexAst

section Scores

/-- A positive share of a family is what one accepted observation kept. -/
theorem exists_of_gatedReward_pos {observations : List (EpochObservation ℝ)} {t : ScheduledTask}
    (h : 0 < gatedReward observations t) :
    ∃ o ∈ observations, o.taskId = t.taskId ∧ o.accepted = true ∧ 0 < o.reward := by
  unfold gatedReward at h
  cases hfind : observations.find? fun o => o.taskId = t.taskId with
  | none =>
    rw [hfind] at h
    exact absurd h (lt_irrefl 0)
  | some o =>
    rw [hfind] at h
    dsimp only at h
    have hid := List.find?_some hfind
    by_cases accepted : o.accepted = true
    · rw [if_pos accepted] at h
      exact ⟨o, List.mem_of_find?_eq_some hfind, of_decide_eq_true hid, accepted, h⟩
    · rw [if_neg accepted] at h
      exact absurd h (lt_irrefl 0)

theorem gatedReward_bounds (observations : List (EpochObservation ℝ)) (t : ScheduledTask) :
    0 ≤ gatedReward observations t ∧ gatedReward observations t ≤ 100 := by
  unfold gatedReward
  cases observations.find? fun o => o.taskId = t.taskId with
  | none => exact ⟨le_refl 0, by norm_num⟩
  | some o =>
    dsimp only
    split_ifs
    · exact o.rewardBounds
    · exact ⟨le_refl 0, by norm_num⟩

theorem familyScoreValue_le {policy : AggregationPolicy ℝ} (observations : List (EpochObservation ℝ))
    {family : Text} (h : family ∈ policy.requiredFamilies) :
    familyScoreValue policy observations family ≤ 100 := by
  have mean : clippedMean (familyRewards policy observations family)
      (winsorWidth (familyRewards policy observations family).length policy.winsorFraction 0) ≤
        100 := by
    apply clippedMean_le (familyRewards_ne_nil policy observations h)
    intro x hx
    obtain ⟨t, -, rfl⟩ := List.mem_map.mp hx
    exact (gatedReward_bounds observations t).2
  have penalty := mul_nonneg policy.zNonnegative
    (robustStandardError_nonneg (familyRewards policy observations family))
  unfold familyScoreValue
  exact max_le (by norm_num) (by linarith)

/-- A family with a positive score has a scheduled task with a positive share. -/
theorem exists_of_familyScoreValue_pos {policy : AggregationPolicy ℝ}
    {observations : List (EpochObservation ℝ)} {family : Text} (h : family ∈ policy.requiredFamilies)
    (positive : 0 < familyScoreValue policy observations family) :
    ∃ t ∈ policy.taskSchedule, t.family = family ∧ 0 < gatedReward observations t := by
  by_contra none
  push Not at none
  have mean : clippedMean (familyRewards policy observations family)
      (winsorWidth (familyRewards policy observations family).length policy.winsorFraction 0) ≤
        0 := by
    apply clippedMean_le (familyRewards_ne_nil policy observations h)
    intro x hx
    obtain ⟨t, ht, rfl⟩ := List.mem_map.mp hx
    obtain ⟨hin, hfamily⟩ := List.mem_filter.mp ht
    exact none t hin (of_decide_eq_true hfamily)
  have penalty := mul_nonneg policy.zNonnegative
    (robustStandardError_nonneg (familyRewards policy observations family))
  unfold familyScoreValue at positive
  rcases lt_max_iff.mp positive with impossible | impossible
  · exact absurd impossible (lt_irrefl 0)
  · linarith

theorem geometricCenter_bounds {scores : List ℝ} (some : scores ≠ []) (h : ∀ s ∈ scores, s ≤ 100) :
    0 ≤ geometricCenter scores ∧ geometricCenter scores ≤ 100 := by
  unfold geometricCenter
  split_ifs with positive
  · refine ⟨(Real.exp_pos _).le, ?_⟩
    have mean : fmean (scores.map Real.log) ≤ Real.log 100 := by
      apply fmean_le (fun he => some (List.map_eq_nil_iff.mp he))
      intro x hx
      obtain ⟨s, hs, rfl⟩ := List.mem_map.mp hx
      exact Real.log_le_log (positive s hs) (h s hs)
    calc Real.exp (fmean (scores.map Real.log)) ≤ Real.exp (Real.log 100) := Real.exp_le_exp.mpr mean
      _ = 100 := Real.exp_log (by norm_num)
  · exact ⟨le_refl 0, by norm_num⟩

end Scores

section Aggregate

variable {policy : AggregationPolicy ℝ} {observations : List (EpochObservation ℝ)}

/-- No more tasks are observed than scheduled. -/
theorem length_le_schedule (onSchedule : ∀ o ∈ observations, OnSchedule policy o)
    (once : (observations.map EpochObservation.taskId).Nodup) :
    observations.length ≤ policy.taskSchedule.length := by
  have tasks : observations.map EpochObservation.taskId ⊆
      policy.taskSchedule.map ScheduledTask.taskId := by
    intro taskId h
    obtain ⟨o, ho, rfl⟩ := List.mem_map.mp h
    obtain ⟨t, ht, hid, -⟩ := onSchedule o ho
    exact List.mem_map.mpr ⟨t, ht, hid⟩
  have count := (List.subperm_of_subset once tasks).length_le
  rwa [List.length_map, List.length_map] at count

theorem aggregateOf_uncertainty_nonneg (m : Text) :
    0 ≤ (aggregateOf m observations policy).uncertainty :=
  mul_nonneg policy.zNonnegative (robustStandardError_nonneg _)

theorem aggregateOf_reward_bounds (m : Text) (onSchedule : ∀ o ∈ observations, OnSchedule policy o)
    (once : (observations.map EpochObservation.taskId).Nodup) :
    0 ≤ (aggregateOf m observations policy).reward ∧
      (aggregateOf m observations policy).reward ≤ 100 := by
  have center : (aggregateOf m observations policy).center ≤ 100 := by
    rw [aggregateOf_center]
    apply (geometricCenter_bounds _ _).2
    · exact fun he => policy.familiesUnique.1 (List.map_eq_nil_iff.mp he)
    · intro s hs
      obtain ⟨family, hfamily, rfl⟩ := List.mem_map.mp hs
      exact familyScoreValue_le observations hfamily
  have uncertainty : 0 ≤ (aggregateOf m observations policy).uncertainty :=
    aggregateOf_uncertainty_nonneg m
  have availability : 0 ≤ (aggregateOf m observations policy).availability ∧
      (aggregateOf m observations policy).availability ≤ 1 := by
    have scheduled : (0 : ℝ) < policy.taskSchedule.length := by
      exact_mod_cast List.length_pos_iff.mpr policy.scheduled
    have available : ((observations.filter EpochObservation.available).length : ℝ) ≤
        policy.taskSchedule.length := by
      exact_mod_cast (List.length_filter_le _ _).trans (length_le_schedule onSchedule once)
    exact ⟨div_nonneg (Nat.cast_nonneg _) scheduled.le, (div_le_one scheduled).mpr available⟩
  have compliance : 0 ≤ (aggregateOf m observations policy).compliance ∧
      (aggregateOf m observations policy).compliance ≤ 1 := rate_bounds _ _
  have product : 0 ≤ max 0 ((aggregateOf m observations policy).center -
        (aggregateOf m observations policy).uncertainty) *
          (aggregateOf m observations policy).availability *
          (aggregateOf m observations policy).compliance ∧
      max 0 ((aggregateOf m observations policy).center -
        (aggregateOf m observations policy).uncertainty) *
          (aggregateOf m observations policy).availability *
          (aggregateOf m observations policy).compliance ≤ 100 := by
    have least : (0 : ℝ) ≤ max 0 ((aggregateOf m observations policy).center -
        (aggregateOf m observations policy).uncertainty) := le_max_left _ _
    have most : max 0 ((aggregateOf m observations policy).center -
        (aggregateOf m observations policy).uncertainty) ≤ 100 :=
      max_le (by norm_num) (by linarith)
    refine ⟨mul_nonneg (mul_nonneg least availability.1) compliance.1, ?_⟩
    have scaled := mul_le_of_le_one_right least availability.2
    have gated := mul_le_of_le_one_right (mul_nonneg least availability.1) compliance.2
    linarith
  have shown : (aggregateOf m observations policy).reward =
      if (aggregateOf m observations policy).eligible then
        max 0 ((aggregateOf m observations policy).center -
            (aggregateOf m observations policy).uncertainty) *
          (aggregateOf m observations policy).availability *
          (aggregateOf m observations policy).compliance
      else 0 := rfl
  rw [shown]
  split_ifs
  · exact product
  · exact ⟨le_refl 0, by norm_num⟩

/-- What the gates of an eligible aggregate say about its observations. -/
structure Passed (policy : AggregationPolicy ℝ) (observations : List (EpochObservation ℝ)) : Prop where
  tasks : policy.minimumTasks ≤ (observations.filter EpochObservation.available).length
  familyTasks : ∀ family ∈ policy.requiredFamilies, policy.minimumTasksPerFamily ≤
    ((observations.filter EpochObservation.available).map EpochObservation.family).count family
  availability : policy.minimumAvailability ≤
    (observations.filter EpochObservation.available).length / policy.taskSchedule.length
  compliance : policy.minimumCompliance ≤
    rate (observations.filter EpochObservation.available) EpochObservation.compliant
  correctness : policy.minimumCorrectness ≤
    rate (observations.filter EpochObservation.available) EpochObservation.correct
  families : ∀ family ∈ policy.requiredFamilies, 0 < familyScoreValue policy observations family

theorem passed_of_eligible {m : Text}
    (eligible : (aggregateOf m observations policy).eligible = true) : Passed policy observations := by
  have gates := (aggregateOf_eligible_iff m observations policy).mp eligible
  simp only [failureGates, List.forall_mem_cons, List.any_eq_false, decide_eq_false_iff_not,
    decide_eq_true_eq, not_lt, not_le] at gates
  obtain ⟨tasks, familyTasks, availability, compliance, correctness, worst, -⟩ := gates
  refine ⟨tasks, familyTasks, availability, compliance, correctness, ?_⟩
  intro family hfamily
  exact worst _ (List.mem_map_of_mem hfamily)

end Aggregate

section Network

/-- The gates of a policy, on the observations that were submitted. The rewards
are those after duplicates have shared theirs. -/
structure GatesMet (policy : AggregationPolicy ℝ) (observations : List (EpochObservation ℝ))
    (m : Text) : Prop where
  tasks : policy.minimumTasks ≤
    ((under EpochObservation.minerId observations m).filter EpochObservation.available).length
  familyTasks : ∀ family ∈ policy.requiredFamilies, policy.minimumTasksPerFamily ≤
    (((under EpochObservation.minerId observations m).filter EpochObservation.available).map
      EpochObservation.family).count family
  availability : policy.minimumAvailability ≤
    ((under EpochObservation.minerId observations m).filter EpochObservation.available).length /
      policy.taskSchedule.length
  compliance : policy.minimumCompliance ≤
    rate ((under EpochObservation.minerId observations m).filter EpochObservation.available)
      EpochObservation.compliant
  correctness : policy.minimumCorrectness ≤
    rate ((under EpochObservation.minerId observations m).filter EpochObservation.available)
      EpochObservation.correct
  families : ∃ deduplicated, deduplicateTaskRewards observations = .ok deduplicated ∧
    ∀ family ∈ policy.requiredFamilies, ∃ t ∈ policy.taskSchedule, t.family = family ∧
      ∃ o ∈ deduplicated, o.minerId = m ∧ o.taskId = t.taskId ∧ o.available = true ∧
        o.correct = true ∧ o.compliant = true ∧ 0 < o.reward

variable {policy : AggregationPolicy ℝ} {observations : List (EpochObservation ℝ)}

theorem gatesMet_of_eligible {minerIds : List Text} (ok : NetworkOk observations minerIds policy)
    {m : Text} (eligible : (memberAggregate observations policy m).eligible = true) :
    GatesMet policy observations m := by
  have passed := passed_of_eligible eligible
  have available : ((under EpochObservation.minerId observations m).map
      (shared observations)).filter EpochObservation.available =
        ((under EpochObservation.minerId observations m).filter EpochObservation.available).map
          (shared observations) := by
    rw [List.filter_map]
    congr 1
    exact List.filter_congr fun o _ => SilentObservations.available_shared observations o
  have families : EpochObservation.family ∘ shared observations = EpochObservation.family := by
    funext o
    exact congrArg (fun fields => fields.2.1) (shared_frame observations o).2.1
  have rates : ∀ (holds : EpochObservation ℝ → Bool) (xs : List (EpochObservation ℝ)),
      (∀ o, holds (shared observations o) = holds o) →
        rate (xs.map (shared observations)) holds = rate xs holds := by
    intro holds xs same
    apply SilentObservations.rate_congr
    rw [List.map_map]
    exact List.map_congr_left fun o _ => same o
  have dedup := deduplicateTaskRewards_eq (metadataConsistent_of_onSchedule ok.onSchedule) ok.groups
  have perm := deduplicateTaskRewards_perm dedup
  refine ⟨?_, ?_, ?_, ?_, ?_, _, dedup, ?_⟩
  · have tasks := passed.tasks
    rwa [available, List.length_map] at tasks
  · have familyTasks := passed.familyTasks
    rwa [available, List.map_map, families] at familyTasks
  · have availability := passed.availability
    rwa [available, List.length_map] at availability
  · have compliance := passed.compliance
    rwa [available, rates _ _ fun o => (shared_frame observations o).2.2.2.2.2.1] at compliance
  · have correctness := passed.correctness
    rwa [available, rates _ _ fun o => (shared_frame observations o).2.2.2.2.1] at correctness
  · intro family hfamily
    obtain ⟨t, ht, own, positive⟩ := exists_of_familyScoreValue_pos hfamily
      (passed.families family hfamily)
    obtain ⟨o, ho, hid, accepted, reward⟩ := exists_of_gatedReward_pos positive
    obtain ⟨p, hp, rfl⟩ := List.mem_map.mp ho
    obtain ⟨hin, hminer⟩ := mem_under.mp hp
    simp only [EpochObservation.accepted, Bool.and_eq_true] at accepted
    refine ⟨t, ht, own, _, perm.mem_iff.mpr (List.mem_map_of_mem hin), ?_, hid, accepted.1.1,
      accepted.2, accepted.1.2, reward⟩
    rw [(shared_frame observations p).1, hminer]

/-- Only eligible aggregates are weighted. -/
theorem eligible_of_weight {aggregates : List (MinerAggregate ℝ)} {result : AllocationResult ℝ}
    (distinct : (aggregates.map MinerAggregate.minerId).Nodup)
    (h : allocateWeights aggregates policy = .ok result) {w : Text × ℝ} (hw : w ∈ result.weights) :
    ∃ a ∈ aggregates, a.minerId = w.1 ∧ a.eligible = true := by
  by_cases plannable : Plannable aggregates policy
  · obtain ⟨groups, concentration, -, normalized, planned⟩ := allocateWeights_of_plannable plannable
    obtain rfl := Except.ok.inj (h.symm.trans planned)
    have ok := plannedOk_of_normalized distinct plannable normalized concentration
    obtain ⟨a, ha, hid, eligible, -⟩ := (ok.listed w.1).mp (List.mem_map_of_mem hw)
    exact ⟨a, ha, hid, eligible⟩
  · obtain ⟨reason, groups, unplanned⟩ := allocateWeights_of_not_plannable plannable
    obtain rfl := Except.ok.inj (h.symm.trans unplanned)
    cases hw

/-- Weights, aggregates and evaluations, each behind its gates. -/
theorem gates_hold (policy : AggregationPolicy ℝ) (observations : List (EpochObservation ℝ))
    (minerIds : List Text) (aggregates : List (MinerAggregate ℝ))
    (accepted : aggregateNetwork observations minerIds policy = .ok aggregates) :
    (∀ result, allocateWeights aggregates policy = .ok result →
      ∀ w ∈ result.weights, 0 < w.2 → GatesMet policy observations w.1) ∧
    (∀ a ∈ aggregates, 0 ≤ a.reward ∧ a.reward ≤ 100) ∧
    ∀ (isWord : Char → Bool) (task : PrivateTaskV2) (bundle : OptimizationBundle) (familyId : Text)
      (evaluations : List (FixtureEvaluationV2 ℝ)) (e : HoldoutEvaluationV2 ℝ),
      finalizeHoldoutEvaluation isWord task bundle familyId evaluations = .ok e → 0 < e.reward →
        Rewarded bundle evaluations := by
  obtain ⟨ok, rfl⟩ := aggregateNetwork_ok_iff.mp accepted
  refine ⟨?_, ?_, ?_⟩
  · intro result allocated w hw _
    have distinct : ((minerIds.map (memberAggregate observations policy)).map
        MinerAggregate.minerId).Nodup := by
      have ids : (minerIds.map (memberAggregate observations policy)).map MinerAggregate.minerId =
          minerIds := by
        rw [List.map_map]
        exact List.map_id minerIds
      rw [ids]
      exact ok.rosterUnique
    obtain ⟨a, ha, hid, eligible⟩ := eligible_of_weight distinct allocated hw
    obtain ⟨m, -, rfl⟩ := List.mem_map.mp ha
    obtain rfl : m = w.1 := hid
    exact gatesMet_of_eligible ok eligible
  · intro a ha
    obtain ⟨m, hm, rfl⟩ := List.mem_map.mp ha
    apply aggregateOf_reward_bounds
    · intro o ho
      obtain ⟨p, hp, rfl⟩ := List.mem_map.mp ho
      exact (onSchedule_shared observations p).mpr (ok.onSchedule p (mem_under.mp hp).1)
    · rw [map_taskId_shared]
      exact ok.oncePerTask m hm
  · intro isWord task bundle familyId evaluations e finalized positive
    rcases (finalizeHoldoutEvaluation_finalized finalized).reward with ⟨rewarded, -⟩ | ⟨-, zero⟩
    · exact rewarded
    · exact absurd zero positive.ne'

end Network

/-! ## A share of a duplicate's reward -/

noncomputable section Share

open DeliveryOrder.Sample

/-- Two duplicates of which the second scored nothing. -/
def observations : List (EpochObservation ℝ) := [nearly, nothing]

theorem networkOk : NetworkOk observations [['a'], ['b']] network :=
  DeliveryOrder.networkOk_of_perm (.swap nearly nothing [])
    (DeliveryOrder.Sample.networkOk _ _ (by norm_num))

theorem good_shared : ∀ o ∈ (under EpochObservation.minerId observations ['a']).map
    (shared observations), o.accepted = true ∧ o.family = ['f'] := by
  have members : (under EpochObservation.minerId observations ['a']).map (shared observations) =
      [shared observations nothing] := rfl
  intro o ho
  rw [members] at ho
  obtain rfl := List.mem_singleton.mp ho
  exact ⟨rfl, rfl⟩

/-- Half of the representative's reward makes the second miner eligible. -/
theorem eligible_share : (memberAggregate observations network ['a']).eligible = true := by
  apply PortfolioDiversity.eligible_of_positive
  · exact List.cons_ne_nil _ _
  · exact good_shared
  · have rewards := familyRewards_nearly
    change 0 < fmean (familyRewards network
      ((under EpochObservation.minerId [nearly, nothing] ['a']).map (shared [nearly, nothing])) ['f'])
    rw [rewards]
    norm_num [fmean]

theorem exists_weight : ∃ result,
    allocateWeights ([['a'], ['b']].map (memberAggregate observations network)) network =
        .ok result ∧ ∃ w ∈ result.weights, w.1 = ['a'] ∧ 0 < w.2 := by
  have member : memberAggregate observations network ['a'] ∈
      [['a'], ['b']].map (memberAggregate observations network) :=
    List.mem_map_of_mem List.mem_cons_self
  have recipient : memberAggregate observations network ['a'] ∈
      recipients ([['a'], ['b']].map (memberAggregate observations network)) :=
    mem_recipients.mpr ⟨member, eligible_share, aggregateOf_reward_pos eligible_share⟩
  have plannable : Plannable ([['a'], ['b']].map (memberAggregate observations network)) network :=
    plannable_of_recipient recipient rfl rfl
  have distinct : (([['a'], ['b']].map (memberAggregate observations network)).map
      MinerAggregate.minerId).Nodup := by
    have ids : [['a'], ['b']].Nodup := by decide
    exact ids
  obtain ⟨groups, concentration, -, normalized, planned⟩ := allocateWeights_of_plannable plannable
  have ok := plannedOk_of_normalized distinct plannable normalized concentration
  have key := (ok.listed ['a']).mpr
    ⟨_, member, rfl, eligible_share, aggregateOf_reward_pos eligible_share⟩
  obtain ⟨w, hw, hid⟩ := List.mem_map.mp key
  exact ⟨_, planned, w, hw, hid, ok.positive w hw⟩

/-- A miner is weighted though nothing it submitted has a reward of its own. -/
theorem unrewarded_miner_weighted :
    ¬ ∀ (policy : AggregationPolicy ℝ) (observations : List (EpochObservation ℝ))
      (minerIds : List Text) (aggregates : List (MinerAggregate ℝ)) (result : AllocationResult ℝ),
      aggregateNetwork observations minerIds policy = .ok aggregates →
      allocateWeights aggregates policy = .ok result → ∀ w ∈ result.weights, 0 < w.2 →
        ∀ family ∈ policy.requiredFamilies, ∃ t ∈ policy.taskSchedule, t.family = family ∧
          ∃ o ∈ observations, o.minerId = w.1 ∧ o.taskId = t.taskId ∧ o.available = true ∧
            o.correct = true ∧ o.compliant = true ∧ 0 < o.reward := by
  intro gates
  obtain ⟨result, allocated, w, hw, hid, positive⟩ := exists_weight
  obtain ⟨t, -, -, o, ho, own, -, -, -, -, reward⟩ := gates network observations [['a'], ['b']] _
    result (aggregateNetwork_ok_iff.mpr ⟨networkOk, rfl⟩) allocated w hw positive ['f']
    List.mem_cons_self
  rw [hid] at own
  rcases List.mem_pair.mp ho with rfl | rfl
  · exact absurd own (by decide)
  · exact absurd reward (lt_irrefl 0)

/-- A fixture that used the index of its bundle. -/
def evaluated : FixtureEvaluationV2 ℝ where
  fixtureId := "first".toList
  result := {
    success := true
    failureCode := none
    engine := []
    artifactDigest := []
    taskId := []
    taskCommitment := []
    fixtureId := "first".toList
    fixtureContentDigest := []
    hiddenFixtureMerkleRoot := []
    correct := true
    compliant := true
    setupMs := 0
    usedIndexNames := ["i".toList]
    setupNonnegative := le_refl 0 }
  score := ⟨true, true, 10, none, none, 0, 0, []⟩

theorem short_rationale : ([] : Text).length ≤ 512 := by decide

def bundle : OptimizationBundle := CohortEvaluation.Sample.bundle [] short_rationale

theorem rewarded_evaluated : Rewarded bundle [evaluated] where
  correct := by
    intro item h
    obtain rfl := List.mem_singleton.mp h
    rfl
  compliant := by
    intro item h
    obtain rfl := List.mem_singleton.mp h
    rfl
  valid := by
    intro item h
    obtain rfl := List.mem_singleton.mp h
    rfl
  indexed := List.cons_ne_nil _ _
  used := ⟨evaluated, List.mem_singleton.mpr rfl, List.cons_ne_nil _ _⟩

theorem exists_rewarded : ∃ e : HoldoutEvaluationV2 ℝ,
    finalizeHoldoutEvaluation (fun _ => false) CohortEvaluation.Sample.task bundle [] [evaluated] =
      .ok e ∧ 0 < e.reward := by
  have nonnegative : ∀ item ∈ [evaluated], 0 ≤ item.score.reward := by
    intro item h
    obtain rfl := List.mem_singleton.mp h
    exact Nat.ofNat_nonneg 10
  obtain ⟨e, finalized⟩ := finalizeHoldoutEvaluation_ok (fun _ => false)
    CohortEvaluation.Sample.task bundle [] (List.cons_ne_nil evaluated []) nonnegative
  refine ⟨e, finalized, ?_⟩
  rcases (finalizeHoldoutEvaluation_finalized finalized).reward with ⟨-, robust⟩ | ⟨unrewarded, -⟩
  · have reward : robustHoldoutReward [(10 : ℝ)] = .ok (60 / 100 * fmean [10] +
        40 / 100 * (Real.exp (fmean [Real.log (1 + 10)]) - 1)) := by
      unfold robustHoldoutReward
      rw [if_neg (by norm_num)]
      rfl
    have center : Real.exp (fmean [Real.log (1 + 10)]) = 11 := by
      norm_num [fmean, Real.exp_log]
    have value := Except.ok.inj (reward.symm.trans robust)
    rw [← value, center]
    norm_num [fmean]
  · exact absurd rewarded_evaluated unrewarded

theorem gates_hold_share :
    GatesMet network observations ['a'] ∧
      (∀ a ∈ [['a'], ['b']].map (memberAggregate observations network),
        0 ≤ a.reward ∧ a.reward ≤ 100) ∧
      Rewarded bundle [evaluated] := by
  obtain ⟨weights, rewards, evaluations⟩ := gates_hold network observations [['a'], ['b']] _
    (aggregateNetwork_ok_iff.mpr ⟨networkOk, rfl⟩)
  obtain ⟨result, allocated, w, hw, hid, positive⟩ := exists_weight
  obtain ⟨e, finalized, rewarded⟩ := exists_rewarded
  refine ⟨?_, rewards, evaluations _ _ _ _ _ e finalized rewarded⟩
  rw [← hid]
  exact weights result allocated w hw positive

end Share

end HardGates
