import PlanRace.PortfolioDiversity
import PlanRace.RobustStatistics
import PlanRace.SilentObservations

/-!
# What a higher reward does to its miner

Raising one accepted reward raises every winsorized mean. It raises the reward
of the miner too unless a subtracted error grows: a reward that is far from the
others costs confidence.
-/

namespace RewardMonotonicity

open JsonText LexOrder CanonicalJson Grouping Statistics ScoringV2 NetworkAggregation
  RobustStatistics

section Raise

/-- An observation with another reward. -/
def withReward (o : EpochObservation ℝ) (reward : ℝ) (bounds : 0 ≤ reward ∧ reward ≤ 100) :
    EpochObservation ℝ :=
  { o with reward := reward, rewardBounds := bounds }

/-- One accepted observation of a list has its reward raised. -/
inductive Raised : List (EpochObservation ℝ) → List (EpochObservation ℝ) → Prop
  | single (before after : List (EpochObservation ℝ)) (o : EpochObservation ℝ) (reward : ℝ)
      (bounds : 0 ≤ reward ∧ reward ≤ 100) (accepted : o.accepted = true)
      (more : o.reward ≤ reward) :
      Raised (before ++ o :: after) (before ++ withReward o reward bounds :: after)

variable {xs ys : List (EpochObservation ℝ)}

/-- A raise does not change what is read of an observation besides its reward. -/
theorem map_eq_of_raised {β : Type} (h : Raised xs ys) (f : EpochObservation ℝ → β)
    (kept : ∀ o reward bounds, f (withReward o reward bounds) = f o) : ys.map f = xs.map f := by
  cases h with
  | single before after o reward bounds accepted more =>
    rw [List.map_append, List.map_append, List.map_cons, List.map_cons, kept]

theorem available_of_raised {β : Type} (h : Raised xs ys) (f : EpochObservation ℝ → β)
    (kept : ∀ o reward bounds, f (withReward o reward bounds) = f o) :
    (ys.filter EpochObservation.available).map f = (xs.filter EpochObservation.available).map f := by
  cases h with
  | single before after o reward bounds accepted more =>
    have same : (withReward o reward bounds).available = o.available := rfl
    rw [List.filter_append, List.filter_append, List.filter_cons, List.filter_cons, same]
    split_ifs
    · rw [List.map_append, List.map_append, List.map_cons, List.map_cons, kept]
    · rfl

theorem gatedReward_of_raised (h : Raised xs ys) (t : ScheduledTask) :
    gatedReward xs t ≤ gatedReward ys t := by
  cases h with
  | single before after o reward bounds accepted more =>
    unfold gatedReward
    rw [List.find?_append, List.find?_append]
    cases before.find? fun p => p.taskId = t.taskId with
    | some p => exact le_refl _
    | none =>
      have same : (withReward o reward bounds).taskId = o.taskId := rfl
      rw [Option.none_or, Option.none_or, List.find?_cons, List.find?_cons, same]
      by_cases hid : o.taskId = t.taskId
      · rw [decide_eq_true hid]
        have gate : (withReward o reward bounds).accepted = o.accepted := rfl
        dsimp only
        rw [gate, if_pos accepted, if_pos accepted]
        exact more
      · rw [decide_eq_false hid]

theorem familyRewards_of_raised (h : Raised xs ys) (policy : AggregationPolicy ℝ) (family : Text) :
    List.Forall₂ (· ≤ ·) (familyRewards policy xs family) (familyRewards policy ys family) := by
  unfold familyRewards
  rw [List.forall₂_map_left_iff, List.forall₂_map_right_iff]
  exact List.forall₂_same.mpr fun t _ => gatedReward_of_raised h t

/-- The winsorized mean of a family's rewards. -/
noncomputable def familyMean (policy : AggregationPolicy ℝ) (observations : List (EpochObservation ℝ))
    (family : Text) : ℝ :=
  clippedMean (familyRewards policy observations family)
    (winsorWidth (familyRewards policy observations family).length policy.winsorFraction 0)

/-- What is subtracted from the mean of a family. -/
noncomputable def familyError (policy : AggregationPolicy ℝ) (observations : List (EpochObservation ℝ))
    (family : Text) : ℝ :=
  policy.confidenceZ * robustStandardError (familyRewards policy observations family)

theorem familyScoreValue_eq (policy : AggregationPolicy ℝ) (observations : List (EpochObservation ℝ))
    (family : Text) : familyScoreValue policy observations family =
      max 0 (familyMean policy observations family - familyError policy observations family) := rfl

theorem familyMean_of_raised (h : Raised xs ys) (policy : AggregationPolicy ℝ) (family : Text) :
    familyMean policy xs family ≤ familyMean policy ys family := by
  have rewards := familyRewards_of_raised h policy family
  unfold familyMean
  rw [rewards.length_eq]
  exact clippedMean_mono rewards _

theorem geometricCenter_mono {scores scores' : List ℝ} (h : List.Forall₂ (· ≤ ·) scores scores') :
    geometricCenter scores ≤ geometricCenter scores' := by
  have least : 0 ≤ geometricCenter scores' := by
    unfold geometricCenter
    split_ifs
    · exact (Real.exp_pos _).le
    · exact le_refl 0
  by_cases positive : ∀ s ∈ scores, 0 < s
  · have logs : List.Forall₂ (· ≤ ·) (scores.map Real.log) (scores'.map Real.log) ∧
        ∀ s ∈ scores', 0 < s := by
      clear least
      induction h with
      | nil => exact ⟨.nil, by simp⟩
      | @cons x y xs ys hxy _ ih =>
        obtain ⟨hx, hxs⟩ := List.forall_mem_cons.mp positive
        obtain ⟨logs, positives⟩ := ih hxs
        exact ⟨.cons (Real.log_le_log hx hxy) logs,
          List.forall_mem_cons.mpr ⟨hx.trans_le hxy, positives⟩⟩
    unfold geometricCenter
    rw [if_pos positive, if_pos logs.2]
    exact Real.exp_le_exp.mpr (fmean_mono logs.1)
  · rw [geometricCenter, if_neg positive]
    exact least

end Raise

section Aggregate

variable {xs ys : List (EpochObservation ℝ)} {policy : AggregationPolicy ℝ}

/-- The reward of an aggregate before the gates. -/
noncomputable def robustReward (a : MinerAggregate ℝ) : ℝ :=
  max 0 (a.center - a.uncertainty) * a.availability * a.compliance

theorem aggregateOf_reward_eq (m : Text) (observations : List (EpochObservation ℝ)) :
    (aggregateOf m observations policy).reward =
      if (aggregateOf m observations policy).eligible then
        robustReward (aggregateOf m observations policy)
      else 0 := rfl

theorem rates_of_raised (policy : AggregationPolicy ℝ) (h : Raised xs ys) (m : Text) :
    (aggregateOf m ys policy).availability = (aggregateOf m xs policy).availability ∧
      (aggregateOf m ys policy).compliance = (aggregateOf m xs policy).compliance ∧
      (aggregateOf m ys policy).correctness = (aggregateOf m xs policy).correctness := by
  have count : (ys.filter EpochObservation.available).length =
      (xs.filter EpochObservation.available).length := by
    have lengths := congrArg List.length (available_of_raised h (fun _ => ()) fun _ _ _ => rfl)
    rwa [List.length_map, List.length_map] at lengths
  refine ⟨?_, ?_, ?_⟩
  · change ((ys.filter EpochObservation.available).length : ℝ) / _ = _
    rw [count]
    rfl
  · exact SilentObservations.rate_congr
      (available_of_raised h EpochObservation.compliant fun _ _ _ => rfl)
  · exact SilentObservations.rate_congr
      (available_of_raised h EpochObservation.correct fun _ _ _ => rfl)

theorem robustReward_of_scores {m : Text} (h : Raised xs ys)
    (scores : ∀ family ∈ policy.requiredFamilies,
      familyScoreValue policy xs family ≤ familyScoreValue policy ys family)
    (uncertainty : (aggregateOf m ys policy).uncertainty ≤ (aggregateOf m xs policy).uncertainty) :
    robustReward (aggregateOf m xs policy) ≤ robustReward (aggregateOf m ys policy) := by
  have center : (aggregateOf m xs policy).center ≤ (aggregateOf m ys policy).center := by
    rw [aggregateOf_center, aggregateOf_center]
    apply geometricCenter_mono
    rw [List.forall₂_map_left_iff, List.forall₂_map_right_iff]
    exact List.forall₂_same.mpr scores
  obtain ⟨availability, compliance, -⟩ := rates_of_raised policy h m
  have available : 0 ≤ (aggregateOf m xs policy).availability :=
    div_nonneg (Nat.cast_nonneg _) (Nat.cast_nonneg _)
  have compliant : 0 ≤ (aggregateOf m xs policy).compliance := (rate_bounds _ _).1
  rw [robustReward, robustReward, availability, compliance]
  have lower : max 0 ((aggregateOf m xs policy).center - (aggregateOf m xs policy).uncertainty) ≤
      max 0 ((aggregateOf m ys policy).center - (aggregateOf m ys policy).uncertainty) :=
    max_le_max le_rfl (by linarith)
  exact mul_le_mul_of_nonneg_right (mul_le_mul_of_nonneg_right lower available) compliant

/-- The first five gates do not look at rewards, and the last two pass with
higher scores. -/
theorem eligible_of_scores {m : Text} (h : Raised xs ys)
    (scores : ∀ family ∈ policy.requiredFamilies,
      familyScoreValue policy xs family ≤ familyScoreValue policy ys family)
    (uncertainty : (aggregateOf m ys policy).uncertainty ≤ (aggregateOf m xs policy).uncertainty)
    (eligible : (aggregateOf m xs policy).eligible = true) :
    (aggregateOf m ys policy).eligible = true := by
  have reward := robustReward_of_scores h scores uncertainty
  obtain ⟨availability, compliance, correctness⟩ := rates_of_raised policy h m
  have families := available_of_raised h EpochObservation.family fun _ _ _ => rfl
  have count : (ys.filter EpochObservation.available).length =
      (xs.filter EpochObservation.available).length := by
    have lengths := congrArg List.length families
    rwa [List.length_map, List.length_map] at lengths
  rw [aggregateOf_eligible_iff] at eligible ⊢
  change ∀ gate ∈ failureGates policy _ _ _ _ (robustReward (aggregateOf m xs policy)) _, _ at eligible
  change ∀ gate ∈ failureGates policy _ _ _ _ (robustReward (aggregateOf m ys policy)) _, _
  rw [availability, compliance, correctness]
  simp only [failureGates, List.forall_mem_cons, count, families, List.any_eq_false,
    decide_eq_false_iff_not, decide_eq_true_eq, not_lt, not_le, List.not_mem_nil, false_implies,
    implies_true, and_true] at eligible ⊢
  obtain ⟨tasks, familyTasks, minAvailability, minCompliance, minCorrectness, worst, positive⟩ :=
    eligible
  refine ⟨tasks, familyTasks, minAvailability, minCompliance, minCorrectness, ?_,
    positive.trans_le reward⟩
  intro score hscore
  obtain ⟨family, hfamily, rfl⟩ := List.mem_map.mp hscore
  exact (worst _ (List.mem_map_of_mem hfamily)).trans_le (scores family hfamily)

theorem reward_of_scores {m : Text} (h : Raised xs ys)
    (scores : ∀ family ∈ policy.requiredFamilies,
      familyScoreValue policy xs family ≤ familyScoreValue policy ys family)
    (uncertainty : (aggregateOf m ys policy).uncertainty ≤ (aggregateOf m xs policy).uncertainty) :
    (aggregateOf m xs policy).reward ≤ (aggregateOf m ys policy).reward := by
  by_cases eligible : (aggregateOf m xs policy).eligible = true
  · rw [aggregateOf_reward_eq, aggregateOf_reward_eq, if_pos eligible,
      if_pos (eligible_of_scores h scores uncertainty eligible)]
    exact robustReward_of_scores h scores uncertainty
  · rw [aggregateOf_reward_eq, if_neg eligible]
    by_cases eligible' : (aggregateOf m ys policy).eligible = true
    · exact (aggregateOf_reward_pos eligible').le
    · rw [aggregateOf_reward_eq, if_neg eligible']

/-- A call of `aggregate_miner` that is accepted. -/
theorem aggregateMiner_ok_iff {observations : List (EpochObservation ℝ)} {a : MinerAggregate ℝ} :
    aggregateMiner observations policy = .ok a ↔
      ∃ m, observations ≠ [] ∧ (∀ o ∈ observations, o.minerId = m) ∧
        checkScheduled policy observations [] = .ok () ∧ a = aggregateOf m observations policy := by
  cases observations with
  | nil =>
    constructor
    · intro h
      cases h
    · rintro ⟨m, some, -⟩
      exact absurd rfl some
  | cons first rest =>
    unfold aggregateMiner
    dsimp only
    by_cases mixed : (rest.any fun o => decide (o.minerId ≠ first.minerId)) = true
    · rw [if_pos mixed]
      constructor
      · intro h
        cases h
      · rintro ⟨m, -, same, -⟩
        obtain ⟨o, ho, other⟩ := List.any_eq_true.mp mixed
        have equal := (same o (List.mem_cons_of_mem _ ho)).trans
          (same first List.mem_cons_self).symm
        exact absurd equal (of_decide_eq_true other)
    · rw [if_neg mixed, aggregateScheduledMiner_ok_iff]
      constructor
      · rintro ⟨check, rfl⟩
        refine ⟨first.minerId, List.cons_ne_nil _ _, ?_, check, rfl⟩
        intro o ho
        rcases List.mem_cons.mp ho with rfl | ho
        · rfl
        · by_contra other
          exact mixed (List.any_eq_true.mpr ⟨o, ho, decide_eq_true other⟩)
      · rintro ⟨m, -, same, check, rfl⟩
        rw [same first List.mem_cons_self]
        exact ⟨check, rfl⟩

theorem aggregateMiner_of_raised (h : Raised xs ys) {a : MinerAggregate ℝ}
    (accepted : aggregateMiner xs policy = .ok a) :
    ∃ m, a = aggregateOf m xs policy ∧ aggregateMiner ys policy = .ok (aggregateOf m ys policy) := by
  obtain ⟨m, some, same, check, rfl⟩ := aggregateMiner_ok_iff.mp accepted
  obtain ⟨onSchedule, once⟩ := (checkScheduled_ok_iff policy xs []).mp check
  refine ⟨m, rfl, aggregateMiner_ok_iff.mpr ⟨m, ?_, ?_, ?_, rfl⟩⟩
  · have lengths := map_eq_of_raised h (fun _ => ()) fun _ _ _ => rfl
    intro empty
    rw [empty] at lengths
    exact some (List.map_eq_nil_iff.mp lengths.symm)
  · have ids := map_eq_of_raised h EpochObservation.minerId fun _ _ _ => rfl
    intro o ho
    have hid : o.minerId ∈ xs.map EpochObservation.minerId := ids ▸ List.mem_map_of_mem ho
    obtain ⟨p, hp, hid⟩ := List.mem_map.mp hid
    rw [← hid, same p hp]
  · have tasks := map_eq_of_raised h EpochObservation.taskId fun _ _ _ => rfl
    have read := map_eq_of_raised h (fun o => (o.taskId, o.metadata)) fun _ _ _ => rfl
    refine (checkScheduled_ok_iff policy ys []).mpr ⟨?_, tasks ▸ once⟩
    intro o ho
    have hin : (o.taskId, o.metadata) ∈ xs.map fun o => (o.taskId, o.metadata) :=
      read ▸ List.mem_map_of_mem ho
    obtain ⟨p, hp, same⟩ := List.mem_map.mp hin
    obtain ⟨hid, hmeta⟩ := Prod.mk.inj same
    obtain ⟨t, ht, htask, hscheduled⟩ := (onSchedule p hp).1
    exact ⟨⟨t, ht, htask.trans hid, hmeta.symm.trans hscheduled⟩, List.not_mem_nil⟩

/-- What a raise of one reward does to an aggregate: every family mean is at
least as high, and with no larger errors so are the reward and the eligibility. -/
structure NotHurt (policy : AggregationPolicy ℝ) (xs ys : List (EpochObservation ℝ))
    (a b : MinerAggregate ℝ) : Prop where
  means : ∀ family ∈ policy.requiredFamilies,
    familyMean policy xs family ≤ familyMean policy ys family
  reward : (∀ family ∈ policy.requiredFamilies,
      familyError policy ys family ≤ familyError policy xs family) →
    b.uncertainty ≤ a.uncertainty → a.reward ≤ b.reward ∧ (a.eligible = true → b.eligible = true)
  unpenalized : policy.confidenceZ = 0 →
    a.reward ≤ b.reward ∧ (a.eligible = true → b.eligible = true)

/-- A raised reward hurts its miner through the subtracted errors only. -/
theorem raise_hurts_by_error_only (h : Raised xs ys) {a : MinerAggregate ℝ}
    (accepted : aggregateMiner xs policy = .ok a) :
    ∃ b, aggregateMiner ys policy = .ok b ∧ NotHurt policy xs ys a b := by
  obtain ⟨m, rfl, raised⟩ := aggregateMiner_of_raised h accepted
  have higher : (∀ family ∈ policy.requiredFamilies,
        familyError policy ys family ≤ familyError policy xs family) →
      (aggregateOf m ys policy).uncertainty ≤ (aggregateOf m xs policy).uncertainty →
      (aggregateOf m xs policy).reward ≤ (aggregateOf m ys policy).reward ∧
        ((aggregateOf m xs policy).eligible = true → (aggregateOf m ys policy).eligible = true) := by
    intro errors uncertainty
    have scores : ∀ family ∈ policy.requiredFamilies,
        familyScoreValue policy xs family ≤ familyScoreValue policy ys family := by
      intro family hfamily
      have mean := familyMean_of_raised h policy family
      have error := errors family hfamily
      rw [familyScoreValue_eq, familyScoreValue_eq]
      exact max_le_max le_rfl (by linarith)
    exact ⟨reward_of_scores h scores uncertainty, eligible_of_scores h scores uncertainty⟩
  refine ⟨_, raised, fun family _ => familyMean_of_raised h policy family, higher, ?_⟩
  intro z
  apply higher
  · intro family _
    rw [familyError, familyError, z, zero_mul, zero_mul]
  · have none : ∀ zs, (aggregateOf m zs policy).uncertainty = 0 := by
      intro zs
      change policy.confidenceZ * _ = 0
      rw [z, zero_mul]
    rw [none, none]

end Aggregate

/-! ## A reward far from the others -/

noncomputable section Outlier

open NetworkAggregation.Sample

/-- One family of three tasks, and one standard error is subtracted. -/
def cautious : AggregationPolicy ℝ :=
  { policy 1 full_weight with confidenceZ := 1, zNonnegative := zero_le_one }

/-- An observation of one strategy with a reward of its own. -/
def rewarded (epoch : Nat) (reward : ℝ) (bounds : 0 ≤ reward ∧ reward ≤ 100) : EpochObservation ℝ :=
  withReward (observation 'a' epoch ['x']) reward bounds

theorem bounds_low : (0 : ℝ) ≤ 10 ∧ (10 : ℝ) ≤ 100 := by norm_num

theorem bounds_middle : (0 : ℝ) ≤ 20 ∧ (20 : ℝ) ≤ 100 := by norm_num

theorem bounds_high : (0 : ℝ) ≤ 30 ∧ (30 : ℝ) ≤ 100 := by norm_num

def even : List (EpochObservation ℝ) :=
  [rewarded 0 10 bounds_low, rewarded 1 20 bounds_middle, rewarded 2 20 bounds_middle]

/-- The third reward is raised. -/
def uneven : List (EpochObservation ℝ) :=
  [rewarded 0 10 bounds_low, rewarded 1 20 bounds_middle, rewarded 2 30 bounds_high]

theorem raised_uneven : Raised even uneven :=
  .single [rewarded 0 10 bounds_low, rewarded 1 20 bounds_middle] []
    (rewarded 2 20 bounds_middle) 30 bounds_high rfl (by norm_num [rewarded, withReward])

theorem familyRewards_even : familyRewards cautious even ['f'] = [10, 20, 20] := rfl

theorem familyRewards_uneven : familyRewards cautious uneven ['f'] = [10, 20, 30] := rfl

theorem sorted_of_pairwise {values : List ℝ} (h : values.Pairwise (· ≤ ·)) :
    sorted values = values :=
  (sorted_perm values).eq_of_pairwise (fun _ _ _ _ hxy hyx => le_antisymm hxy hyx)
    (List.pairwise_insertionSort _ values) h

/-- The score of three rewards in order, of which the highest is at least as
near to the middle as the lowest. -/
theorem score_of_three {xs : List (EpochObservation ℝ)} {low middle high : ℝ}
    (rewards : familyRewards cautious xs ['f'] = [low, middle, high]) (ordered : low ≤ middle)
    (upper : middle ≤ high) (near : high - middle ≤ middle - low) :
    familyScoreValue cautious xs ['f'] =
      max 0 ((low + middle + high) / 3 - 14826 / 10000 * (high - middle) / √3) := by
  have three : sorted [low, middle, high] = [low, middle, high] := by
    apply sorted_of_pairwise
    simp [ordered, upper, ordered.trans upper]
  have median : median [low, middle, high] = middle := by
    simp [Statistics.median, three]
  have deviations : ([low, middle, high].map fun value => |value - middle|) =
      [middle - low, 0, high - middle] := by
    have below : |low - middle| = middle - low := by
      rw [abs_of_nonpos (by linarith)]
      ring
    have above : |high - middle| = high - middle := abs_of_nonneg (by linarith)
    simp [below, above]
  have spread : Statistics.median [middle - low, 0, high - middle] = high - middle := by
    have order : sorted [middle - low, 0, high - middle] = [0, high - middle, middle - low] := by
      rw [← sorted_eq_of_perm (List.perm_append_singleton (middle - low) [0, high - middle])]
      apply sorted_of_pairwise
      have least : 0 ≤ high - middle := by linarith
      have most : 0 ≤ middle - low := by linarith
      simp only [List.cons_append, List.nil_append, List.pairwise_cons, List.mem_cons,
        List.not_mem_nil, or_false, forall_eq_or_imp, forall_eq, List.Pairwise.nil, and_true,
        false_implies, implies_true]
      exact ⟨⟨least, most⟩, near⟩
    simp [Statistics.median, order]
  have error : robustStandardError [low, middle, high] = 14826 / 10000 * (high - middle) / √3 := by
    rw [robustStandardError, if_neg (by simp), median]
    dsimp only
    rw [deviations, spread]
    rfl
  have width : winsorWidth [low, middle, high].length cautious.winsorFraction 0 = 0 := by
    simp [winsorWidth, cautious, policy]
  have z : cautious.confidenceZ = 1 := rfl
  rw [familyScoreValue_eq, familyMean, familyError, rewards, error, width, clippedMean, if_pos rfl,
    three, z, one_mul]
  norm_num [fmean, add_assoc]

/-- With one family a positive score is the robust reward. -/
theorem robustReward_cautious {xs : List (EpochObservation ℝ)}
    (accepted : ∀ o ∈ xs, o.available = true ∧ o.compliant = true) (three : xs.length = 3)
    (positive : 0 < familyScoreValue cautious xs ['f']) :
    robustReward (aggregateOf ['a'] xs cautious) = familyScoreValue cautious xs ['f'] := by
  have available : xs.filter EpochObservation.available = xs :=
    List.filter_eq_self.mpr fun o ho => (accepted o ho).1
  have availability : (aggregateOf ['a'] xs cautious).availability = 1 := by
    change ((xs.filter EpochObservation.available).length : ℝ) / ((3 : Nat) : ℝ) = 1
    rw [available, three, div_self (by norm_num)]
  have compliance : (aggregateOf ['a'] xs cautious).compliance = 1 := by
    change rate (xs.filter EpochObservation.available) EpochObservation.compliant = 1
    rw [available]
    exact PortfolioDiversity.rate_eq_one (List.ne_nil_of_length_pos (by omega))
      fun o ho => (accepted o ho).2
  have center : (aggregateOf ['a'] xs cautious).center = familyScoreValue cautious xs ['f'] := by
    have family : cautious.requiredFamilies = [['f']] := rfl
    have all : ∀ s ∈ [familyScoreValue cautious xs ['f']], 0 < s := by simpa using positive
    rw [aggregateOf_center, family, List.map_cons, List.map_nil, geometricCenter, if_pos all]
    change Real.exp (fmean [Real.log _]) = _
    rw [fmean, List.sum_singleton, List.length_singleton, Nat.cast_one, div_one,
      Real.exp_log positive]
  have uncertainty : (aggregateOf ['a'] xs cautious).uncertainty = 0 := mul_zero _
  rw [robustReward, center, uncertainty, availability, compliance, sub_zero, mul_one, mul_one,
    max_eq_right positive.le]

theorem score_even : familyScoreValue cautious even ['f'] = 50 / 3 := by
  rw [score_of_three familyRewards_even (by norm_num) (by norm_num) (by norm_num)]
  norm_num

theorem score_uneven_bounds : 0 < familyScoreValue cautious uneven ['f'] ∧
    familyScoreValue cautious uneven ['f'] < 50 / 3 := by
  have root : 1 ≤ √(3 : ℝ) ∧ √(3 : ℝ) < 2 :=
    ⟨Real.one_le_sqrt.mpr (by norm_num), (Real.sqrt_lt' two_pos).mpr (by norm_num)⟩
  have positive : 0 < √(3 : ℝ) := by linarith
  have error : 14826 / 2000 < 14826 / 10000 * (30 - 20) / √(3 : ℝ) ∧
      14826 / 10000 * (30 - 20) / √(3 : ℝ) ≤ 14826 / 1000 := by
    rw [lt_div_iff₀ positive, div_le_iff₀ positive]
    constructor <;> linarith
  rw [score_of_three familyRewards_uneven (by norm_num) (by norm_num) (by norm_num)]
  constructor
  · apply lt_max_of_lt_right
    linarith
  · apply max_lt <;> linarith

theorem accepted_of_rewarded {xs : List (EpochObservation ℝ)} (h : xs = even ∨ xs = uneven) :
    ∀ o ∈ xs, o.available = true ∧ o.compliant = true := by
  intro o ho
  rcases h with rfl | rfl
  · simp only [even, List.mem_cons, List.not_mem_nil, or_false] at ho
    rcases ho with rfl | rfl | rfl <;> exact ⟨rfl, rfl⟩
  · simp only [uneven, List.mem_cons, List.not_mem_nil, or_false] at ho
    rcases ho with rfl | rfl | rfl <;> exact ⟨rfl, rfl⟩

theorem robustReward_even : robustReward (aggregateOf ['a'] even cautious) = 50 / 3 := by
  have positive : 0 < familyScoreValue cautious even ['f'] := by
    rw [score_even]
    norm_num
  rw [robustReward_cautious (accepted_of_rewarded (.inl rfl)) rfl positive, score_even]

theorem robustReward_uneven : robustReward (aggregateOf ['a'] uneven cautious) < 50 / 3 := by
  rw [robustReward_cautious (accepted_of_rewarded (.inr rfl)) rfl score_uneven_bounds.1]
  exact score_uneven_bounds.2

theorem eligible_even : (aggregateOf ['a'] even cautious).eligible = true := by
  rw [aggregateOf_eligible_iff]
  change ∀ gate ∈ failureGates cautious _ _ _ _ (robustReward (aggregateOf ['a'] even cautious)) _, _
  have families : cautious.requiredFamilies = [['f']] := rfl
  have tasks : (even.filter EpochObservation.available).length = 3 := rfl
  have familyTasks : ((even.filter EpochObservation.available).map EpochObservation.family) =
      [['f'], ['f'], ['f']] := rfl
  have gates : cautious.minimumTasks = 1 ∧ cautious.minimumTasksPerFamily = 1 ∧
      cautious.minimumAvailability = 0 ∧ cautious.minimumCompliance = 0 ∧
      cautious.minimumCorrectness = 0 := ⟨rfl, rfl, rfl, rfl, rfl⟩
  have availability : 0 ≤ (aggregateOf ['a'] even cautious).availability :=
    div_nonneg (Nat.cast_nonneg _) (Nat.cast_nonneg _)
  have compliance : 0 ≤ (aggregateOf ['a'] even cautious).compliance :=
    (rate_bounds (even.filter EpochObservation.available) EpochObservation.compliant).1
  have correctness : 0 ≤ (aggregateOf ['a'] even cautious).correctness :=
    (rate_bounds (even.filter EpochObservation.available) EpochObservation.correct).1
  obtain ⟨hTasks, hFamily, hAvailability, hCompliance, hCorrectness⟩ := gates
  rw [robustReward_even, families, List.map_cons, List.map_nil, score_even]
  simp only [failureGates, List.forall_mem_cons, List.any_cons, List.any_nil, Bool.or_false, families,
    tasks, familyTasks, hTasks, hFamily, hAvailability, hCompliance, hCorrectness,
    decide_eq_false_iff_not, not_lt, not_le, List.not_mem_nil, false_implies, implies_true, and_true]
  refine ⟨by norm_num, by decide, availability, compliance, correctness, ?_, ?_⟩ <;> norm_num

theorem aggregateMiner_even :
    aggregateMiner even cautious = .ok (aggregateOf ['a'] even cautious) := by
  refine aggregateMiner_ok_iff.mpr ⟨['a'], List.cons_ne_nil _ _, ?_, ?_, rfl⟩
  · intro o ho
    simp only [even, List.mem_cons, List.not_mem_nil, or_false] at ho
    rcases ho with rfl | rfl | rfl <;> rfl
  · refine (checkScheduled_ok_iff cautious even []).mpr ⟨?_, ?_⟩
    · have scheduled : ∀ epoch reward bounds, epoch ∈ [0, 1, 2] →
          OnSchedule cautious (rewarded epoch reward bounds) := fun epoch _ _ h =>
        ⟨scheduledTask epoch, List.mem_map_of_mem h, rfl, rfl⟩
      intro o ho
      refine ⟨?_, List.not_mem_nil⟩
      simp only [even, List.mem_cons, List.not_mem_nil, or_false] at ho
      rcases ho with rfl | rfl | rfl <;> exact scheduled _ _ _ (by decide)
    · have ids : even.map EpochObservation.taskId = [['t', '0'], ['t', '1'], ['t', '2']] := rfl
      rw [ids]
      decide

/-- A reward of 30 instead of 20 beside 10 and 20 lowers the aggregate. -/
theorem higher_reward_hurts :
    ¬ ∀ (policy : AggregationPolicy ℝ) (xs ys : List (EpochObservation ℝ)), Raised xs ys →
      ∀ a b, aggregateMiner xs policy = .ok a → aggregateMiner ys policy = .ok b →
        a.reward ≤ b.reward := by
  intro monotone
  obtain ⟨m, same, raised⟩ := aggregateMiner_of_raised raised_uneven aggregateMiner_even
  obtain rfl : ['a'] = m := congrArg MinerAggregate.minerId same
  have reward := monotone cautious even uneven raised_uneven _ _ aggregateMiner_even raised
  rw [aggregateOf_reward_eq, if_pos eligible_even, robustReward_even] at reward
  have lower := robustReward_uneven
  rw [aggregateOf_reward_eq] at reward
  split_ifs at reward <;> linarith

theorem raise_hurts_by_error_only_uneven :
    ∃ b, aggregateMiner uneven cautious = .ok b ∧
      NotHurt cautious even uneven (aggregateOf ['a'] even cautious) b :=
  raise_hurts_by_error_only raised_uneven aggregateMiner_even

end Outlier

end RewardMonotonicity
