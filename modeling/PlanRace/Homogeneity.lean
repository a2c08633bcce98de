import PlanRace.NetworkAggregation

/-!
# Rewards scale through the aggregation

Scaling every accepted reward of a miner by one positive factor scales its
aggregate reward by that factor and changes no gate and no digest.
-/

namespace Homogeneity

open JsonText CanonicalJson Grouping Statistics ScoringV2 NetworkAggregation

section Averages

variable {K : Type} [Field K] [LinearOrder K] [IsStrictOrderedRing K] {c : K}

theorem clippedMean_map_mul (hc : 0 < c) (values : List K) (width : Nat) :
    clippedMean (values.map (c * ·)) width = c * clippedMean values width := by
  unfold clippedMean
  dsimp only
  rw [sorted_map_mul hc, List.length_map, getD_map_mul, getD_map_mul]
  split_ifs
  · exact fmean_map_mul c _
  · rw [← fmean_map_mul, List.map_map, List.map_map]
    refine congrArg fmean (List.map_congr_left fun v _ => ?_)
    simp only [Function.comp_apply, mul_min_of_nonneg _ _ hc.le, mul_max_of_nonneg _ _ hc.le]

theorem robustStandardError_map_mul [RealFunctions K] (hc : 0 < c) (values : List K) :
    robustStandardError (values.map (c * ·)) = c * robustStandardError values := by
  unfold robustStandardError
  dsimp only
  rw [List.length_map, median_map_mul hc]
  have deviations : (values.map (c * ·)).map (fun v => |v - c * median values|) =
      (values.map fun v => |v - median values|).map (c * ·) := by
    rw [List.map_map, List.map_map]
    refine List.map_congr_left fun v _ => ?_
    simp only [Function.comp_apply, ← mul_sub, abs_mul, abs_of_pos hc]
  rw [deviations, median_map_mul hc]
  split_ifs
  · exact (mul_zero c).symm
  · ring

theorem familyScore_scaled [FloorSemiring K] [RealFunctions K] (hc : 0 < c)
    {policy : AggregationPolicy K} {xs ys : List (EpochObservation K)} {family : Text}
    (h : familyRewards policy ys family = (familyRewards policy xs family).map (c * ·)) :
    familyScoreValue policy ys family = c * familyScoreValue policy xs family := by
  unfold familyScoreValue
  dsimp only
  rw [h, List.length_map, clippedMean_map_mul hc, robustStandardError_map_mul hc,
    mul_max_of_nonneg _ _ hc.le]
  ring_nf

end Averages

section Center

theorem geometricCenter_map_mul {c : ℝ} (hc : 0 < c) {scores : List ℝ} (some : scores ≠ []) :
    geometricCenter (scores.map (c * ·)) = c * geometricCenter scores := by
  have hlength : (scores.length : ℝ) ≠ 0 := by simpa using some
  have positive : (∀ s ∈ scores.map (c * ·), 0 < s) ↔ ∀ s ∈ scores, 0 < s := by
    simp [mul_pos_iff_of_pos_left hc]
  unfold geometricCenter
  by_cases all : ∀ s ∈ scores, 0 < s
  · rw [if_pos (positive.mpr all), if_pos all]
    have logs : (scores.map (c * ·)).map Real.log = scores.map fun s => Real.log c + Real.log s := by
      rw [List.map_map]
      exact List.map_congr_left fun s hs => Real.log_mul hc.ne' (all s hs).ne'
    have mean : fmean ((scores.map (c * ·)).map Real.log) =
        Real.log c + fmean (scores.map Real.log) := by
      rw [logs, fmean, fmean, List.sum_map_add, List.map_const', List.sum_replicate, List.length_map,
        List.length_map, nsmul_eq_mul, add_div, mul_div_cancel_left₀ _ hlength]
    change Real.exp (fmean ((scores.map (c * ·)).map Real.log)) = c * Real.exp _
    rw [mean, Real.exp_add, Real.exp_log hc]
    rfl
  · rw [if_neg fun h => all (positive.mp h), if_neg all, mul_zero]

end Center

section Aggregate

/-- Two readings of one list of observations that differ in the accepted rewards
only, and there by a factor. -/
structure ScaledBy (c : ℝ) (base : List (EpochObservation ℝ))
    (f g : EpochObservation ℝ → EpochObservation ℝ) : Prop where
  taskId : ∀ o ∈ base, (g o).taskId = (f o).taskId
  flags : ∀ o ∈ base, (g o).available = (f o).available ∧ (g o).correct = (f o).correct ∧
    (g o).compliant = (f o).compliant
  family : ∀ o ∈ base, (g o).family = (f o).family
  digests : ∀ o ∈ base, (g o).strategyDigest = (f o).strategyDigest ∧
    (g o).behaviorDigest = (f o).behaviorDigest
  reward : ∀ o ∈ base, (f o).accepted = true → (g o).reward = c * (f o).reward

variable {c : ℝ} {base : List (EpochObservation ℝ)} {f g : EpochObservation ℝ → EpochObservation ℝ}

theorem gatedReward_scaled (h : ScaledBy c base f g) (t : ScheduledTask) :
    gatedReward (base.map g) t = c * gatedReward (base.map f) t := by
  have find : base.find? (fun o => decide ((g o).taskId = t.taskId)) =
      base.find? fun o => decide ((f o).taskId = t.taskId) :=
    List.find?_congr fun o ho => by rw [h.taskId o ho]
  unfold gatedReward
  rw [List.find?_map, List.find?_map, Function.comp_def, Function.comp_def, find]
  cases hfind : base.find? fun o => decide ((f o).taskId = t.taskId) with
  | none => exact (mul_zero c).symm
  | some o =>
    have ho := List.mem_of_find?_eq_some hfind
    obtain ⟨havailable, hcorrect, hcompliant⟩ := h.flags o ho
    have accepted : (g o).accepted = (f o).accepted := by
      rw [EpochObservation.accepted, EpochObservation.accepted, havailable, hcorrect, hcompliant]
    dsimp only [Option.map_some]
    rw [accepted]
    split_ifs with hacc
    · exact h.reward o ho hacc
    · exact (mul_zero c).symm

theorem available_scaled (h : ScaledBy c base f g) :
    (base.map g).filter EpochObservation.available =
      (base.filter fun o => (f o).available).map g ∧
    (base.map f).filter EpochObservation.available =
      (base.filter fun o => (f o).available).map f := by
  rw [List.filter_map, List.filter_map]
  refine ⟨congrArg _ (List.filter_congr fun o ho => ?_), rfl⟩
  exact (h.flags o ho).1

theorem rate_scaled (h : ScaledBy c base f g)
    {holds : EpochObservation ℝ → Bool} (same : ∀ o ∈ base, holds (g o) = holds (f o)) :
    rate ((base.map g).filter EpochObservation.available) holds =
      rate ((base.map f).filter EpochObservation.available) holds := by
  have values : ((base.filter fun o => (f o).available).map g).map
      (fun o => if holds o = true then (1 : ℝ) else 0) =
        ((base.filter fun o => (f o).available).map f).map
          fun o => if holds o = true then (1 : ℝ) else 0 := by
    rw [List.map_map, List.map_map]
    exact List.map_congr_left fun o ho => by
      simp only [Function.comp_apply, same o (List.mem_filter.mp ho).1]
  rw [(available_scaled h).1, (available_scaled h).2, rate, rate, values]
  simp only [List.map_eq_nil_iff]

theorem portfolio_scaled (h : ScaledBy c base f g) {digest : EpochObservation ℝ → Text}
    (same : ∀ o ∈ base, digest (g o) = digest (f o)) :
    portfolio digest ((base.map g).filter EpochObservation.available) =
      portfolio digest ((base.map f).filter EpochObservation.available) := by
  have pairs : ((base.filter fun o => (f o).available).map g).map (fun o => (o.family, digest o)) =
      ((base.filter fun o => (f o).available).map f).map fun o => (o.family, digest o) := by
    rw [List.map_map, List.map_map]
    refine List.map_congr_left fun o ho => ?_
    have hin := (List.mem_filter.mp ho).1
    simp only [Function.comp_apply, same o hin, h.family o hin]
  rw [(available_scaled h).1, (available_scaled h).2, portfolio, portfolio, pairs]

/-- The gates compare rewards with zero only. -/
theorem failureGates_scaled (hc : 0 < c) (policy : AggregationPolicy ℝ)
    {xs ys : List (EpochObservation ℝ)}
    (families : ys.map EpochObservation.family = xs.map EpochObservation.family)
    (availability compliance correctness reward : ℝ) (scores : List ℝ) :
    failureGates policy ys availability compliance correctness (c * reward) (scores.map (c * ·)) =
      failureGates policy xs availability compliance correctness reward scores := by
  have hlength : ys.length = xs.length := by simpa using congrArg List.length families
  have nonpositive : ∀ s : ℝ, c * s ≤ 0 ↔ s ≤ 0 := fun s => by
    rw [← not_lt, ← not_lt, mul_pos_iff_of_pos_left hc]
  simp only [failureGates, families, hlength, List.any_map, Function.comp_def, nonpositive]

/-- Scaled rewards make a scaled aggregate. -/
theorem aggregateOf_scaled (hc : 0 < c) (h : ScaledBy c base f g) (m n : Text)
    (policy : AggregationPolicy ℝ) :
    (aggregateOf n (base.map g) policy).eligible = (aggregateOf m (base.map f) policy).eligible ∧
      (aggregateOf n (base.map g) policy).reward = c * (aggregateOf m (base.map f) policy).reward ∧
      (aggregateOf n (base.map g) policy).strategyDigest =
        (aggregateOf m (base.map f) policy).strategyDigest ∧
      (aggregateOf n (base.map g) policy).behaviorDigest =
        (aggregateOf m (base.map f) policy).behaviorDigest := by
  obtain ⟨hg, hf⟩ := available_scaled h
  have families : ((base.map g).filter EpochObservation.available).map EpochObservation.family =
      ((base.map f).filter EpochObservation.available).map EpochObservation.family := by
    rw [hg, hf, List.map_map, List.map_map]
    exact List.map_congr_left fun o ho => h.family o (List.mem_filter.mp ho).1
  have hlength : ((base.map g).filter EpochObservation.available).length =
      ((base.map f).filter EpochObservation.available).length := by
    rw [hg, hf, List.length_map, List.length_map]
  have values : ∀ family, familyScoreValue policy (base.map g) family =
      c * familyScoreValue policy (base.map f) family := fun family =>
    familyScore_scaled hc (by
      rw [familyRewards, familyRewards, List.map_map]
      exact List.map_congr_left fun t _ => gatedReward_scaled h t)
  have scores : (policy.requiredFamilies.map fun family =>
      (family, familyScoreValue policy (base.map g) family)).map Prod.snd =
        ((policy.requiredFamilies.map fun family =>
          (family, familyScoreValue policy (base.map f) family)).map Prod.snd).map (c * ·) := by
    simp only [List.map_map, Function.comp_def, values]
  have some : (policy.requiredFamilies.map fun family =>
      (family, familyScoreValue policy (base.map f) family)).map Prod.snd ≠ [] := by
    simpa using policy.familiesUnique.1
  have reward : ∀ center uncertainty availability compliance : ℝ,
      max 0 (c * center - policy.confidenceZ * (c * uncertainty)) * availability * compliance =
        c * (max 0 (center - policy.confidenceZ * uncertainty) * availability * compliance) := by
    intro center uncertainty availability compliance
    have split : c * center - policy.confidenceZ * (c * uncertainty) =
        c * (center - policy.confidenceZ * uncertainty) := by ring
    have factor : max 0 (c * (center - policy.confidenceZ * uncertainty)) =
        c * max 0 (center - policy.confidenceZ * uncertainty) := by
      rw [mul_max_of_nonneg _ _ hc.le, mul_zero]
    rw [split, factor]
    ring
  refine ⟨?_, ?_, ?_, ?_⟩
  · simp only [aggregateOf, aggregateFrom, scores, geometricCenter_map_mul hc some,
      robustStandardError_map_mul hc, hlength, reward, failureGates_scaled hc policy families,
      rate_scaled h fun o ho => (h.flags o ho).2.2, rate_scaled h fun o ho => (h.flags o ho).2.1]
  · simp only [aggregateOf, aggregateFrom, scores, geometricCenter_map_mul hc some,
      robustStandardError_map_mul hc, hlength, reward, failureGates_scaled hc policy families,
      rate_scaled h fun o ho => (h.flags o ho).2.2, rate_scaled h fun o ho => (h.flags o ho).2.1,
      mul_ite, mul_zero]
  · change domainSeparatedDigest _ (portfolioPayload _ _) = domainSeparatedDigest _ (portfolioPayload _ _)
    rw [portfolio_scaled h fun o ho => (h.digests o ho).1]
  · change domainSeparatedDigest _ (portfolioPayload _ _) = domainSeparatedDigest _ (portfolioPayload _ _)
    rw [portfolio_scaled h fun o ho => (h.digests o ho).2]

end Aggregate

end Homogeneity
