import PlanRace.HardGates

/-!
# The holdout reward is a monotone mean

Six parts of the lower quartile and four of a geometric mean: the reward of
several fixtures lies among theirs, follows each of them and is zero only where
all of them are.
-/

namespace HoldoutReward

open JsonText TaskModels TaskgenV2 IndexAst Statistics ScoringV2 EvaluationV2 CohortEvaluation
  Fallible

section Quartile

variable {K : Type} [Field K] [LinearOrder K]

def quartileWidth (count : Nat) : Nat := max 1 ((count + 3) / 4)

def lowerQuartile (rewards : List K) : K :=
  fmean ((sorted rewards).take (quartileWidth rewards.length))

omit [Field K] in
theorem quartile_ne_nil {rewards : List K} (nonempty : rewards ≠ []) :
    (sorted rewards).take (quartileWidth rewards.length) ≠ [] := by
  have positive : 0 < rewards.length := List.length_pos_iff.mpr nonempty
  apply List.ne_nil_of_length_pos
  rw [List.length_take, length_sorted, quartileWidth]
  omega

omit [Field K] in
theorem mem_of_mem_quartile {rewards : List K} {x : K}
    (h : x ∈ (sorted rewards).take (quartileWidth rewards.length)) : x ∈ rewards :=
  (sorted_perm rewards).mem_iff.mp (List.mem_of_mem_take h)

variable [IsStrictOrderedRing K]

theorem lowerQuartile_mono {xs ys : List K} (h : List.Forall₂ (· ≤ ·) xs ys) :
    lowerQuartile xs ≤ lowerQuartile ys := by
  rw [lowerQuartile, lowerQuartile, h.length_eq]
  exact fmean_mono (List.forall₂_take _ (sorted_mono h))

end Quartile

section Geometric

noncomputable def geometricMean (rewards : List ℝ) : ℝ :=
  Real.exp (fmean (rewards.map fun value => Real.log (1 + value))) - 1

variable {rewards : List ℝ}

theorem logs_ne_nil (nonempty : rewards ≠ []) :
    rewards.map (fun value => Real.log (1 + value)) ≠ [] := fun he =>
  nonempty (List.map_eq_nil_iff.mp he)

theorem geometricMean_eq_of_perm {others : List ℝ} (h : rewards.Perm others) :
    geometricMean rewards = geometricMean others := by
  rw [geometricMean, geometricMean, fmean_eq_of_perm (h.map _)]

theorem geometricMean_mono {xs ys : List ℝ} (h : List.Forall₂ (· ≤ ·) xs ys)
    (nonnegative : ∀ x ∈ xs, 0 ≤ x) : geometricMean xs ≤ geometricMean ys := by
  have logs : List.Forall₂ (· ≤ ·) (xs.map fun value => Real.log (1 + value))
      (ys.map fun value => Real.log (1 + value)) := by
    induction h with
    | nil => exact .nil
    | @cons x y xs ys hxy _ ih =>
      obtain ⟨hx, hxs⟩ := List.forall_mem_cons.mp nonnegative
      exact .cons (Real.log_le_log (by linarith) (by linarith)) (ih hxs)
  exact sub_le_sub_right (Real.exp_le_exp.mpr (fmean_mono logs)) 1

theorem geometricMean_le (nonempty : rewards ≠ []) {c : ℝ}
    (bounds : ∀ x ∈ rewards, 0 ≤ x ∧ x ≤ c) : geometricMean rewards ≤ c := by
  obtain ⟨first, hfirst⟩ := List.exists_mem_of_ne_nil rewards nonempty
  have positive : 0 < 1 + c := by linarith [(bounds first hfirst).1, (bounds first hfirst).2]
  have mean : fmean (rewards.map fun value => Real.log (1 + value)) ≤ Real.log (1 + c) := by
    refine fmean_le (logs_ne_nil nonempty) fun x hx => ?_
    obtain ⟨y, hy, rfl⟩ := List.mem_map.mp hx
    obtain ⟨least, most⟩ := bounds y hy
    exact Real.log_le_log (by linarith) (by linarith)
  have raised := Real.exp_le_exp.mpr mean
  rw [Real.exp_log positive] at raised
  rw [geometricMean]
  linarith

theorem le_geometricMean (nonempty : rewards ≠ []) {c : ℝ} (hc : 0 ≤ c)
    (bounds : ∀ x ∈ rewards, c ≤ x) : c ≤ geometricMean rewards := by
  have mean : Real.log (1 + c) ≤ fmean (rewards.map fun value => Real.log (1 + value)) := by
    refine le_fmean (logs_ne_nil nonempty) fun x hx => ?_
    obtain ⟨y, hy, rfl⟩ := List.mem_map.mp hx
    exact Real.log_le_log (by linarith) (by linarith [bounds y hy])
  have raised := Real.exp_le_exp.mpr mean
  rw [Real.exp_log (by linarith)] at raised
  rw [geometricMean]
  linarith

/-- One positive reward makes the geometric mean positive. -/
theorem geometricMean_pos (nonnegative : ∀ x ∈ rewards, 0 ≤ x) {x : ℝ} (hx : x ∈ rewards)
    (positive : 0 < x) : 0 < geometricMean rewards := by
  have nonempty : rewards ≠ [] := List.ne_nil_of_mem hx
  have logs : ∀ y ∈ rewards.map fun value => Real.log (1 + value), 0 ≤ y := by
    intro y hy
    obtain ⟨z, hz, rfl⟩ := List.mem_map.mp hy
    exact Real.log_nonneg (by linarith [nonnegative z hz])
  have one : Real.log (1 + x) ≤ (rewards.map fun value => Real.log (1 + value)).sum :=
    List.single_le_sum logs _ (List.mem_map_of_mem (f := fun value => Real.log (1 + value)) hx)
  have mean : 0 < fmean (rewards.map fun value => Real.log (1 + value)) :=
    div_pos ((Real.log_pos (by linarith)).trans_le one) (length_cast_pos (logs_ne_nil nonempty))
  have raised := Real.exp_lt_exp.mpr mean
  rw [Real.exp_zero] at raised
  rw [geometricMean]
  linarith

end Geometric

section Reward

variable {rewards : List ℝ}

/-- The value of the reward on a list that is accepted. -/
noncomputable def rewardOf (rewards : List ℝ) : ℝ :=
  0.60 * lowerQuartile rewards + 0.40 * geometricMean (sorted rewards)

theorem rewardOf_eq (rewards : List ℝ) : rewardOf rewards =
    60 / 100 * lowerQuartile rewards + 40 / 100 * geometricMean (sorted rewards) := by
  norm_num [rewardOf]

theorem robustHoldoutReward_eq (nonempty : rewards ≠ []) (nonnegative : ∀ x ∈ rewards, 0 ≤ x) :
    robustHoldoutReward rewards = .ok (rewardOf rewards) := by
  obtain ⟨reward, h⟩ := robustHoldoutReward_ok nonempty nonnegative
  unfold robustHoldoutReward at h ⊢
  split_ifs at h ⊢
  rw [rewardOf_eq, lowerQuartile, quartileWidth, ← length_sorted rewards]
  rfl

theorem rewardOf_mono {xs ys : List ℝ} (h : List.Forall₂ (· ≤ ·) xs ys)
    (nonnegative : ∀ x ∈ xs, 0 ≤ x) : rewardOf xs ≤ rewardOf ys := by
  have quartile := lowerQuartile_mono h
  have geometric := geometricMean_mono (sorted_mono h) fun x hx =>
    nonnegative x ((sorted_perm xs).mem_iff.mp hx)
  rw [rewardOf_eq, rewardOf_eq]
  linarith

theorem rewardOf_eq_of_perm {others : List ℝ} (h : others.Perm rewards) :
    rewardOf others = rewardOf rewards := by
  rw [rewardOf, rewardOf, lowerQuartile, lowerQuartile, sorted_eq_of_perm h, h.length_eq]

theorem geometricMean_sorted (rewards : List ℝ) :
    geometricMean (sorted rewards) = geometricMean rewards :=
  geometricMean_eq_of_perm (sorted_perm rewards)

theorem rewardOf_bounds (nonempty : rewards ≠ []) {low high : ℝ} (hlow : 0 ≤ low)
    (bounds : ∀ x ∈ rewards, low ≤ x ∧ x ≤ high) :
    low ≤ rewardOf rewards ∧ rewardOf rewards ≤ high := by
  have quartile : low ≤ lowerQuartile rewards ∧ lowerQuartile rewards ≤ high :=
    ⟨le_fmean (quartile_ne_nil nonempty) fun x hx => (bounds x (mem_of_mem_quartile hx)).1,
      fmean_le (quartile_ne_nil nonempty) fun x hx => (bounds x (mem_of_mem_quartile hx)).2⟩
  have least := le_geometricMean nonempty hlow fun x hx => (bounds x hx).1
  have most := geometricMean_le nonempty fun x hx =>
    ⟨hlow.trans (bounds x hx).1, (bounds x hx).2⟩
  rw [rewardOf_eq, geometricMean_sorted]
  constructor <;> linarith [quartile.1, quartile.2]

theorem rewardOf_eq_zero_iff (nonempty : rewards ≠ []) (nonnegative : ∀ x ∈ rewards, 0 ≤ x) :
    rewardOf rewards = 0 ↔ ∀ x ∈ rewards, x = 0 := by
  constructor
  · intro zero x hx
    by_contra nonzero
    have positive : 0 < x := lt_of_le_of_ne (nonnegative x hx) (Ne.symm nonzero)
    have quartile : 0 ≤ lowerQuartile rewards :=
      le_fmean (quartile_ne_nil nonempty) fun y hy => nonnegative y (mem_of_mem_quartile hy)
    have geometric := geometricMean_pos nonnegative hx positive
    rw [rewardOf_eq, geometricMean_sorted] at zero
    linarith
  · intro zeros
    have bounds := rewardOf_bounds nonempty (le_refl 0) fun x hx =>
      ⟨(zeros x hx).ge, (zeros x hx).le⟩
    exact le_antisymm bounds.2 bounds.1

end Reward

section Evaluation

/-- Every evaluation that is finalized is eligible exactly for a positive reward. -/
theorem eligible_iff {isWord : Char → Bool} {task : PrivateTaskV2} {bundle : OptimizationBundle}
    {familyId : Text} {evaluations : List (FixtureEvaluationV2 ℝ)} {e : HoldoutEvaluationV2 ℝ}
    (h : finalizeHoldoutEvaluation isWord task bundle familyId evaluations = .ok e) :
    e.eligible = true ↔ 0 < e.reward := by
  have gate : ∀ code, .ok (failed isWord task bundle familyId evaluations code) =
      (.ok e : Except EvaluationError _) → (e.eligible = true ↔ 0 < e.reward) := by
    intro code he
    obtain rfl := Except.ok.inj he
    exact iff_of_false (by simp [failed]) (by simp [failed])
  unfold finalizeHoldoutEvaluation at h
  by_cases correct : (evaluations.all fun item => item.result.correct) = true
  case neg =>
    rw [if_pos correct] at h
    exact gate _ h
  by_cases compliant : (evaluations.all fun item => item.result.compliant) = true
  case neg =>
    rw [if_neg (not_not.mpr correct), if_pos compliant] at h
    exact gate _ h
  rw [if_neg (not_not.mpr correct), if_neg (not_not.mpr compliant)] at h
  split_ifs at h
  · exact gate _ h
  · exact gate _ h
  · obtain ⟨reward, -, h⟩ := bind_ok h
    obtain rfl := Except.ok.inj h
    exact decide_eq_true_iff

/-- What is promised of the reward of a list. -/
structure MonotoneMean (rewards : List ℝ) (reward : ℝ) : Prop where
  between : ∃ least ∈ rewards, ∃ greatest ∈ rewards,
    (∀ x ∈ rewards, least ≤ x ∧ x ≤ greatest) ∧ least ≤ reward ∧ reward ≤ greatest
  permuted : ∀ others, others.Perm rewards → robustHoldoutReward others = .ok reward
  monotone : ∀ others, List.Forall₂ (· ≤ ·) rewards others →
    ∃ reward', robustHoldoutReward others = .ok reward' ∧ reward ≤ reward'
  zero : reward = 0 ↔ ∀ x ∈ rewards, x = 0

theorem monotoneMean_rewardOf {rewards : List ℝ} (nonempty : rewards ≠ [])
    (nonnegative : ∀ x ∈ rewards, 0 ≤ x) : MonotoneMean rewards (rewardOf rewards) := by
  constructor
  · obtain ⟨least, hleast, below⟩ : ∃ least ∈ rewards, ∀ x ∈ rewards, least ≤ x := by
      cases rewards with
      | nil => exact absurd rfl nonempty
      | cons first rest => exact ⟨_, foldl_min_isLeast first rest⟩
    obtain ⟨greatest, hgreatest, above⟩ : ∃ greatest ∈ rewards, ∀ x ∈ rewards, x ≤ greatest := by
      cases rewards with
      | nil => exact absurd rfl nonempty
      | cons first rest => exact ⟨_, foldl_max_isGreatest first rest⟩
    exact ⟨least, hleast, greatest, hgreatest, fun x hx => ⟨below x hx, above x hx⟩,
      rewardOf_bounds nonempty (nonnegative least hleast) fun x hx => ⟨below x hx, above x hx⟩⟩
  · intro others permuted
    have some : others ≠ [] := fun he => nonempty (List.nil_perm.mp (he ▸ permuted))
    rw [robustHoldoutReward_eq some fun x hx => nonnegative x (permuted.mem_iff.mp hx),
      rewardOf_eq_of_perm permuted]
  · intro others raised
    have some : others ≠ [] := by
      intro he
      rw [he] at raised
      exact nonempty (List.forall₂_nil_right_iff.mp raised)
    have nonnegative' : ∀ y ∈ others, 0 ≤ y := by
      intro y hy
      obtain ⟨x, hx, hxy⟩ := exists_of_forall₂ raised hy
      exact (nonnegative x hx).trans hxy
    exact ⟨_, robustHoldoutReward_eq some nonnegative', rewardOf_mono raised nonnegative⟩
  · exact rewardOf_eq_zero_iff nonempty nonnegative

/-- The reward is a monotone mean, and an evaluation of bounded rewards is bounded
and eligible exactly for a positive reward. -/
theorem holdoutReward_monotone_mean {rewards : List ℝ} (nonempty : rewards ≠ [])
    (nonnegative : ∀ x ∈ rewards, 0 ≤ x) (isWord : Char → Bool) (task : PrivateTaskV2)
    (bundle : OptimizationBundle) (familyId : Text)
    {evaluations : List (FixtureEvaluationV2 ℝ)}
    (bounded : ∀ item ∈ evaluations, 0 ≤ item.score.reward ∧ item.score.reward ≤ 100) :
    (∃ reward, robustHoldoutReward rewards = .ok reward ∧ MonotoneMean rewards reward) ∧
    ∃ e, finalizeHoldoutEvaluation isWord task bundle familyId evaluations = .ok e ∧
      0 ≤ e.reward ∧ e.reward ≤ 100 ∧ (e.eligible = true ↔ 0 < e.reward) := by
  refine ⟨⟨_, robustHoldoutReward_eq nonempty nonnegative,
    monotoneMean_rewardOf nonempty nonnegative⟩, ?_⟩
  obtain ⟨e, finalized⟩ : ∃ e,
      finalizeHoldoutEvaluation isWord task bundle familyId evaluations = .ok e := by
    by_cases some : evaluations = []
    · rw [some]
      unfold finalizeHoldoutEvaluation
      simp
    · exact finalizeHoldoutEvaluation_ok isWord task bundle familyId some
        fun item hitem => (bounded item hitem).1
  have within : 0 ≤ e.reward ∧ e.reward ≤ 100 := by
    rcases (finalizeHoldoutEvaluation_finalized finalized).reward with ⟨rewarded, robust⟩ | ⟨-, zero⟩
    · obtain ⟨item, hitem, -⟩ := rewarded.used
      have some : evaluations.map (fun item => item.score.reward) ≠ [] :=
        List.ne_nil_of_mem (List.mem_map_of_mem hitem)
      have bounds : ∀ x ∈ evaluations.map (fun item => item.score.reward), 0 ≤ x ∧ x ≤ 100 := by
        intro x hx
        obtain ⟨item, hitem, rfl⟩ := List.mem_map.mp hx
        exact bounded item hitem
      rw [robustHoldoutReward_eq some fun x hx => (bounds x hx).1] at robust
      rw [← Except.ok.inj robust]
      exact rewardOf_bounds some (le_refl 0) bounds
    · rw [zero]
      norm_num
  exact ⟨e, finalized, within.1, within.2, eligible_iff finalized⟩

/-- Three rewards, one of them zero, and an evaluation that is rewarded. -/
theorem holdoutReward_monotone_mean_three :
    (∃ reward, robustHoldoutReward [0, 50, 100] = .ok reward ∧ MonotoneMean [0, 50, 100] reward) ∧
    ∃ e, finalizeHoldoutEvaluation (fun _ => false) CohortEvaluation.Sample.task HardGates.bundle []
        [HardGates.evaluated] = .ok e ∧ 0 < e.reward ∧ e.reward ≤ 100 ∧ e.eligible = true := by
  have nonnegative : ∀ x ∈ [(0 : ℝ), 50, 100], 0 ≤ x := by
    intro x hx
    simp only [List.mem_cons, List.not_mem_nil, or_false] at hx
    rcases hx with rfl | rfl | rfl <;> norm_num
  have bounded : ∀ item ∈ [HardGates.evaluated],
      0 ≤ item.score.reward ∧ item.score.reward ≤ 100 := by
    intro item hitem
    obtain rfl := List.mem_singleton.mp hitem
    exact ⟨Nat.ofNat_nonneg 10, show (10 : ℝ) ≤ 100 by norm_num⟩
  obtain ⟨mean, e, finalized, -, top, eligible⟩ := holdoutReward_monotone_mean
    (List.cons_ne_nil _ _) nonnegative (fun _ => false) CohortEvaluation.Sample.task
    HardGates.bundle [] bounded
  obtain ⟨e', finalized', positive⟩ := HardGates.exists_rewarded
  obtain rfl := Except.ok.inj (finalized'.symm.trans finalized)
  exact ⟨mean, e', finalized, positive, top, eligible.mpr positive⟩

end Evaluation

end HoldoutReward
