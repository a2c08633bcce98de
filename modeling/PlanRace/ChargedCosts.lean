import PlanRace.BenchmarkOutcome
import PlanRace.RobustStatistics

/-!
# Setup and storage are charged

Storage shifts every log-ratio of a benchmark by one amount, so it lowers the
mean and leaves the subtracted error alone. Setup lowers every log-ratio, but
unevenly, and the error may fall faster than the mean.
-/

namespace ChargedCosts

open JsonText ScoringV2 Statistics Fallible BenchmarkScoring BenchmarkOutcome RobustStatistics

section Costs

/-- The same measurements with another storage size. -/
def withStorage (evidence : BenchmarkEvidence ℝ) (bytes : Nat) : BenchmarkEvidence ℝ :=
  { evidence with artifactStorageBytes := bytes }

/-- The same measurements with another setup time. -/
def withSetup (evidence : BenchmarkEvidence ℝ) (setupMs : ℝ) (nonnegative : 0 ≤ setupMs) :
    BenchmarkEvidence ℝ :=
  { evidence with setupMs := setupMs, setupNonnegative := nonnegative }

/-- No gate looks at the costs. -/
theorem measured_congr {policy : BenchmarkPolicy ℝ} {x y : BenchmarkEvidence ℝ}
    (trials : x.trials = y.trials) (correct : x.correct = y.correct)
    (compliant : x.compliant = y.compliant) {workerId : Text} (h : Measured policy x workerId) :
    Measured policy y workerId := by
  have rate : timeoutRate x = timeoutRate y := by rw [timeoutRate, timeoutRate, trials]
  have done : completed x = completed y := by rw [completed, completed, trials]
  exact ⟨trials ▸ h.enough, trials ▸ h.oneWorker, trials ▸ h.balanced, trials ▸ h.baseline,
    correct ▸ h.correct, compliant ▸ h.compliant, rate ▸ h.timely, done ▸ h.pairs,
    done ▸ h.completedBalanced⟩

end Costs

section Horizon

/-- The savings at a lower bound of the log-ratio. -/
noncomputable def savingsAt (lowerBound : ℝ) : ℝ := max 0 (min 1 (1 - 1 / 2 ^ lowerBound))

theorem savingsAt_mono {x y : ℝ} (h : x ≤ y) : savingsAt x ≤ savingsAt y := by
  have speedup : (2 : ℝ) ^ x ≤ 2 ^ y := Real.rpow_le_rpow_of_exponent_le one_le_two h
  have inverse := one_div_le_one_div_of_le (Real.rpow_pos_of_pos two_pos x) speedup
  exact max_le_max le_rfl (min_le_min le_rfl (by linarith))

theorem savingsAt_lt {x y : ℝ} (h : x < y) (positive : 0 < y) : savingsAt x < savingsAt y := by
  have speedup : (2 : ℝ) ^ x < 2 ^ y := Real.rpow_lt_rpow_of_exponent_lt one_lt_two h
  have inverse := one_div_lt_one_div_of_lt (Real.rpow_pos_of_pos two_pos x) speedup
  have above : (1 : ℝ) < 2 ^ y := Real.one_lt_rpow one_lt_two positive
  have some : 1 / (2 : ℝ) ^ y < 1 := (div_lt_one (by linarith)).mpr above
  have inverted : 0 < 1 / (2 : ℝ) ^ y := one_div_pos.mpr (by linarith)
  have value : savingsAt y = 1 - 1 / 2 ^ y := by
    rw [savingsAt, min_eq_right (by linarith), max_eq_right (by linarith)]
  rw [value]
  exact max_lt (by linarith) ((min_le_right _ _).trans_lt (by linarith))

variable (policy : BenchmarkPolicy ℝ) (evidence : BenchmarkEvidence ℝ)

/-- Storage shifts every log-ratio by one amount. -/
theorem logSpeedups_withStorage (bytes : Nat) {horizon : Nat} (known : 1 ≤ horizon) :
    logSpeedups policy (withStorage evidence bytes) horizon =
      (logSpeedups policy evidence horizon).map
        (· + Real.logb 2 (storageMultiplier policy evidence /
          storageMultiplier policy (withStorage evidence bytes))) := by
  rw [logSpeedups_eq, logSpeedups_eq, List.map_map]
  apply List.map_congr_left
  intro trial _
  have baseline := baselineTotal_pos known trial
  have cost := candidateCost_pos known evidence trial
  have before := storageMultiplier_pos policy evidence
  have after := storageMultiplier_pos policy (withStorage evidence bytes)
  have ratio : baselineTotal horizon trial /
      (candidateCost evidence horizon trial * storageMultiplier policy (withStorage evidence bytes)) =
        baselineTotal horizon trial /
            (candidateCost evidence horizon trial * storageMultiplier policy evidence) *
          (storageMultiplier policy evidence /
            storageMultiplier policy (withStorage evidence bytes)) := by
    field_simp
  change Real.logb 2 (baselineTotal horizon trial / (candidateCost evidence horizon trial * _)) =
    Real.logb 2 (baselineTotal horizon trial / (candidateCost evidence horizon trial * _)) + _
  rw [ratio, Real.logb_mul (div_pos baseline (mul_pos cost before)).ne' (div_pos before after).ne']

theorem storageMultiplier_mono {bytes : Nat} (more : evidence.artifactStorageBytes ≤ bytes) :
    storageMultiplier policy evidence ≤ storageMultiplier policy (withStorage evidence bytes) := by
  have size : (0 : ℝ) ≤ evidence.databaseBytes := Nat.cast_nonneg _
  have ratio : (evidence.artifactStorageBytes / evidence.databaseBytes : ℝ) ≤
      bytes / evidence.databaseBytes :=
    div_le_div_of_nonneg_right (Nat.cast_le.mpr more) size
  have penalty := mul_le_mul_of_nonneg_right ratio policy.penaltyNonnegative
  exact add_le_add_right penalty 1

/-- More storage lowers the mean and keeps the error. -/
theorem lowerBound_withStorage (nonempty : completed evidence ≠ []) {bytes : Nat}
    (more : evidence.artifactStorageBytes ≤ bytes) {horizon : Nat} (known : 1 ≤ horizon) :
    center policy (withStorage evidence bytes) horizon ≤ center policy evidence horizon ∧
      penalty policy (withStorage evidence bytes) horizon = penalty policy evidence horizon := by
  have shift : Real.logb 2 (storageMultiplier policy evidence /
      storageMultiplier policy (withStorage evidence bytes)) ≤ 0 := by
    have after := storageMultiplier_pos policy (withStorage evidence bytes)
    have before := storageMultiplier_pos policy evidence
    apply Real.logb_nonpos one_lt_two (div_pos before after).le
    exact (div_le_one after).mpr (storageMultiplier_mono policy evidence more)
  have speedups : logSpeedups policy evidence horizon ≠ [] := fun he =>
    nonempty (List.map_eq_nil_iff.mp he)
  have width : clipWidth policy evidence ≤ ((logSpeedups policy evidence horizon).length - 1) / 2 := by
    rw [logSpeedups, List.length_map]
    exact winsorWidth_le _ _ _
  constructor
  · have shifted := clippedMean_map_add speedups (Real.logb 2 (storageMultiplier policy evidence /
      storageMultiplier policy (withStorage evidence bytes))) width
    rw [← logSpeedups_withStorage policy evidence bytes known] at shifted
    change clippedMean _ (clipWidth policy evidence) ≤ clippedMean _ (clipWidth policy evidence)
    linarith
  · rw [penalty, penalty, logSpeedups_withStorage policy evidence bytes known,
      robustStandardError_map_add]

/-- More setup lowers every log-ratio, and with them the mean. -/
theorem center_withSetup {setupMs : ℝ} (nonnegative : 0 ≤ setupMs) (more : evidence.setupMs ≤ setupMs)
    {horizon : Nat} (known : 1 ≤ horizon) :
    center policy (withSetup evidence setupMs nonnegative) horizon ≤ center policy evidence horizon := by
  apply clippedMean_mono
  rw [logSpeedups_eq, logSpeedups_eq, List.forall₂_map_left_iff, List.forall₂_map_right_iff]
  apply List.forall₂_same.mpr
  intro trial _
  have baseline := baselineTotal_pos known trial
  have before := candidateTotal_pos known policy evidence trial
  have after := candidateTotal_pos known policy (withSetup evidence setupMs nonnegative) trial
  have total : candidateTotal policy evidence horizon trial ≤
      candidateTotal policy (withSetup evidence setupMs nonnegative) horizon trial := by
    have cost : candidateCost evidence horizon trial ≤
        candidateCost (withSetup evidence setupMs nonnegative) horizon trial := by
      change evidence.setupMs + _ + _ ≤ setupMs + _ + _
      linarith
    exact mul_le_mul_of_nonneg_right cost (storageMultiplier_pos policy evidence).le
  apply Real.logb_le_logb_of_le one_lt_two (div_pos baseline after)
  exact div_le_div_of_nonneg_left baseline.le before total

end Horizon

section Score

/-- No horizon saves more, and the reward is not higher. -/
structure NotHigher (score charged : BenchmarkScore ℝ) : Prop where
  reward : charged.reward ≤ score.reward
  horizons : List.Forall₂ (fun after before => after.horizon = before.horizon ∧
    after.relativeSavings ≤ before.relativeSavings) charged.horizons score.horizons

variable {policy : BenchmarkPolicy ℝ} {x y : BenchmarkEvidence ℝ}

theorem rewardOf_mono (rate : timeoutRate x = timeoutRate y)
    (savings : ∀ horizon ∈ policy.horizons, (horizonOf policy y horizon).relativeSavings ≤
      (horizonOf policy x horizon).relativeSavings) : rewardOf policy y ≤ rewardOf policy x := by
  have weighted : ∀ (weights : List ℝ) (horizons : List Nat), (∀ w ∈ weights, 0 ≤ w) →
      (∀ horizon ∈ horizons, (horizonOf policy y horizon).relativeSavings ≤
        (horizonOf policy x horizon).relativeSavings) →
      (List.zipWith (fun weight horizon => weight * (horizonOf policy y horizon).relativeSavings)
        weights horizons).sum ≤
        (List.zipWith (fun weight horizon => weight * (horizonOf policy x horizon).relativeSavings)
          weights horizons).sum := by
    intro weights
    induction weights with
    | nil => simp
    | cons weight weights ih =>
      intro horizons nonnegative less
      cases horizons with
      | nil => simp
      | cons horizon horizons =>
        obtain ⟨hweight, hweights⟩ := List.forall_mem_cons.mp nonnegative
        obtain ⟨hless, hrest⟩ := List.forall_mem_cons.mp less
        rw [List.zipWith_cons_cons, List.zipWith_cons_cons, List.sum_cons, List.sum_cons]
        exact add_le_add (mul_le_mul_of_nonneg_left hless hweight) (ih horizons hweights hrest)
  have total := weighted policy.horizonWeights policy.horizons policy.weightsNonnegative savings
  rw [rewardOf, rewardOf, rate]
  exact mul_le_mul_of_nonneg_right (mul_le_mul_of_nonneg_left total (by norm_num)) (sq_nonneg _)

/-- Scores of evidence that differs in its costs only compare as the measured ones do. -/
theorem scores_of_congr {P : BenchmarkScore ℝ → BenchmarkScore ℝ → Prop}
    (trials : x.trials = y.trials) (correct : x.correct = y.correct)
    (compliant : x.compliant = y.compliant)
    (stopped : ∀ {s t : BenchmarkScore ℝ}, s.reward = 0 → s.horizons = [] → t.reward = 0 →
      t.horizons = [] → P s t)
    (measured : ∀ workerId, Measured policy x workerId →
      P (measuredOf policy x workerId) (measuredOf policy y workerId))
    {score charged : BenchmarkScore ℝ} (hx : scoreBenchmark policy x = .ok score)
    (hy : scoreBenchmark policy y = .ok charged) : P score charged := by
  by_cases h : ∃ workerId, Measured policy x workerId
  · obtain ⟨workerId, h⟩ := h
    obtain rfl := Except.ok.inj (hx.symm.trans (scoreBenchmark_of_measured h))
    obtain rfl := Except.ok.inj
      (hy.symm.trans (scoreBenchmark_of_measured (measured_congr trials correct compliant h)))
    exact measured workerId h
  · push Not at h
    obtain ⟨s, hs, reward, horizons⟩ := scoreBenchmark_of_unmeasured h
    obtain ⟨t, ht, reward', horizons'⟩ := scoreBenchmark_of_unmeasured fun workerId h' =>
      h workerId (measured_congr trials.symm correct.symm compliant.symm h')
    obtain rfl := Except.ok.inj (hx.symm.trans hs)
    obtain rfl := Except.ok.inj (hy.symm.trans ht)
    exact stopped reward horizons reward' horizons'

/-- What a setup that costs more does to a score. -/
structure SetupCharged (policy : BenchmarkPolicy ℝ) (x y : BenchmarkEvidence ℝ)
    (score charged : BenchmarkScore ℝ) : Prop where
  horizons : List.Forall₂ (fun after before => after.horizon = before.horizon ∧
    after.relativeSpeedup ≤ before.relativeSpeedup ∧
    (penalty policy x before.horizon ≤ penalty policy y before.horizon →
      after.relativeSavings ≤ before.relativeSavings)) charged.horizons score.horizons
  reward : (∀ horizon ∈ policy.horizons, penalty policy x horizon ≤ penalty policy y horizon) →
    charged.reward ≤ score.reward

/-- Storage is always charged. Setup is charged in the mean, and in the savings
unless the subtracted error falls. -/
theorem costs_charged (policy : BenchmarkPolicy ℝ) (evidence : BenchmarkEvidence ℝ)
    (score : BenchmarkScore ℝ) (h : scoreBenchmark policy evidence = .ok score) :
    (∀ bytes, evidence.artifactStorageBytes ≤ bytes →
      ∀ charged, scoreBenchmark policy (withStorage evidence bytes) = .ok charged →
        NotHigher score charged) ∧
    ∀ setupMs (nonnegative : 0 ≤ setupMs), evidence.setupMs ≤ setupMs →
      ∀ charged, scoreBenchmark policy (withSetup evidence setupMs nonnegative) = .ok charged →
        SetupCharged policy evidence (withSetup evidence setupMs nonnegative) score charged := by
  constructor
  · intro bytes more charged hcharged
    refine scores_of_congr (x := evidence) (y := withStorage evidence bytes) rfl rfl rfl ?_ ?_ h
      hcharged
    · intro s t sReward sHorizons tReward tHorizons
      refine ⟨by rw [sReward, tReward], ?_⟩
      rw [sHorizons, tHorizons]
      exact .nil
    · intro workerId measured
      have nonempty : completed evidence ≠ [] :=
        List.ne_nil_of_length_pos (by linarith [measured.pairs])
      have savings : ∀ horizon ∈ policy.horizons,
          (horizonOf policy (withStorage evidence bytes) horizon).relativeSavings ≤
            (horizonOf policy evidence horizon).relativeSavings := by
        intro horizon hin
        obtain ⟨center, penalty⟩ := lowerBound_withStorage policy evidence nonempty more
          (policy.horizonsPositive.2 horizon hin)
        exact savingsAt_mono (by linarith)
      refine ⟨rewardOf_mono rfl savings, ?_⟩
      change List.Forall₂ _ (policy.horizons.map _) (policy.horizons.map _)
      rw [List.forall₂_map_left_iff, List.forall₂_map_right_iff]
      exact List.forall₂_same.mpr fun horizon hin => ⟨rfl, savings horizon hin⟩
  · intro setupMs nonnegative more charged hcharged
    refine scores_of_congr (x := evidence) (y := withSetup evidence setupMs nonnegative) rfl rfl rfl
      ?_ ?_ h hcharged
    · intro s t sReward sHorizons tReward tHorizons
      refine ⟨?_, fun _ => by rw [sReward, tReward]⟩
      rw [sHorizons, tHorizons]
      exact .nil
    · intro workerId _
      have center : ∀ horizon ∈ policy.horizons,
          center policy (withSetup evidence setupMs nonnegative) horizon ≤
            center policy evidence horizon := fun horizon hin =>
        center_withSetup policy evidence nonnegative more (policy.horizonsPositive.2 horizon hin)
      have savings : ∀ horizon ∈ policy.horizons, penalty policy evidence horizon ≤
          penalty policy (withSetup evidence setupMs nonnegative) horizon →
            (horizonOf policy (withSetup evidence setupMs nonnegative) horizon).relativeSavings ≤
              (horizonOf policy evidence horizon).relativeSavings := by
        intro horizon hin kept
        have lower := center horizon hin
        exact savingsAt_mono (by linarith)
      refine ⟨?_, fun kept => rewardOf_mono rfl fun horizon hin =>
        savings horizon hin (kept horizon hin)⟩
      change List.Forall₂ _ (policy.horizons.map _) (policy.horizons.map _)
      rw [List.forall₂_map_left_iff, List.forall₂_map_right_iff]
      exact List.forall₂_same.mpr fun horizon hin =>
        ⟨rfl, Real.rpow_le_rpow_of_exponent_le one_le_two (center horizon hin), savings horizon hin⟩

end Score

/-! ## A setup that pays -/

noncomputable section Pays

/-- A policy that subtracts ten standard errors. -/
def cautious : BenchmarkPolicy ℝ :=
  Sample.policy 1 10 ⟨zero_le_one, by norm_num [Sample.NearOne]⟩ (by norm_num)

/-- Two trials whose log-ratios are two apart, and one apart after three
milliseconds of setup. -/
def apart : BenchmarkEvidence ℝ :=
  Sample.evidence 0 Sample.setup_free
    [Sample.trial .baselineFirst (3 * 2 ^ 20) 3 (by norm_num),
      Sample.trial .candidateFirst (2 ^ 22) 1 (by norm_num)]

theorem nonnegative_three : (0 : ℝ) ≤ 3 := by norm_num

theorem timeoutRate_apart : timeoutRate apart = 0 := by
  change fmean [(0 : ℝ), 0] = 0
  norm_num [fmean]

theorem measured_apart : Measured cautious apart ['w'] where
  enough := le_refl 2
  oneWorker := rfl
  balanced := rfl
  baseline := rfl
  correct := rfl
  compliant := rfl
  timely := by
    have bound : cautious.maximumTimeoutRate = 1 / 5 := rfl
    rw [timeoutRate_apart, bound]
    norm_num
  pairs := le_refl 2
  completedBalanced := rfl

/-- The log-ratios of the two trials after a setup of `setupMs`. -/
theorem logSpeedups_apart {setupMs : ℝ} (nonnegative : 0 ≤ setupMs) :
    logSpeedups cautious (withSetup apart setupMs nonnegative) 1 =
      [Real.logb 2 (3 * 2 ^ 20 / (setupMs + 3)), Real.logb 2 (2 ^ 22 / (setupMs + 1))] := by
  have multiplier : storageMultiplier cautious (withSetup apart setupMs nonnegative) = 1 := by
    change 1 + ((0 : Nat) : ℝ) / ((1 : Nat) : ℝ) * _ = 1
    rw [Nat.cast_zero, zero_div, zero_mul, add_zero]
  have trial : ∀ order (baseline candidate : ℝ) positive,
      Real.logb 2 (baselineTotal 1 (Sample.trial order baseline candidate positive) /
        candidateTotal cautious (withSetup apart setupMs nonnegative) 1
          (Sample.trial order baseline candidate positive)) =
        Real.logb 2 (baseline / (setupMs + candidate)) := by
    intro order baseline candidate positive
    have total : baselineTotal 1 (Sample.trial order baseline candidate positive) = baseline := by
      change baseline + (((1 : Nat) : ℝ) - 1) * baseline = baseline
      rw [Nat.cast_one, sub_self, zero_mul, add_zero]
    have cost : candidateCost (withSetup apart setupMs nonnegative) 1
        (Sample.trial order baseline candidate positive) = setupMs + candidate := by
      change setupMs + candidate + (((1 : Nat) : ℝ) - 1) * candidate = setupMs + candidate
      rw [Nat.cast_one, sub_self, zero_mul, add_zero]
    rw [candidateTotal, multiplier, mul_one, total, cost]
  have pair : completed (withSetup apart setupMs nonnegative) =
      [Sample.trial .baselineFirst (3 * 2 ^ 20) 3 (by norm_num),
        Sample.trial .candidateFirst (2 ^ 22) 1 (by norm_num)] := rfl
  rw [logSpeedups_eq, pair, List.map_cons, List.map_cons, List.map_nil]
  exact congrArg₂ (fun a b => [a, b]) (trial _ _ _ _) (trial _ _ _ _)

/-- The lower bound that two log-ratios leave. -/
theorem lowerBound_pair {policy : BenchmarkPolicy ℝ} {evidence : BenchmarkEvidence ℝ}
    {horizon : Nat} {a b : ℝ} (speedups : logSpeedups policy evidence horizon = [a, b]) (ordered : a ≤ b) :
    center policy evidence horizon - penalty policy evidence horizon =
      (a + b) / 2 - policy.confidenceZ * (14826 / 10000 * ((b - a) / 2) / √2) := by
  have sortedPair : sorted [a, b] = [a, b] := by
    simp [sorted, List.insertionSort, ordered]
  have median : median [a, b] = (a + b) / 2 := by
    simp [Statistics.median, sortedPair]
  have deviations : ∀ x ∈ [|a - (a + b) / 2|, |b - (a + b) / 2|], x = (b - a) / 2 := by
    have first : |a - (a + b) / 2| = (b - a) / 2 := by
      rw [abs_of_nonpos (by linarith)]
      ring
    have second : |b - (a + b) / 2| = (b - a) / 2 := by
      rw [abs_of_nonneg (by linarith)]
      ring
    intro x hx
    rcases List.mem_pair.mp hx with rfl | rfl
    · exact first
    · exact second
  have error : robustStandardError [a, b] = 14826 / 10000 * ((b - a) / 2) / √2 := by
    have mad : Statistics.median ([a, b].map fun value => |value - (a + b) / 2|) = (b - a) / 2 :=
      median_of_constant (List.cons_ne_nil _ _) deviations
    rw [robustStandardError, if_neg (by simp), median]
    dsimp only
    rw [mad]
    rfl
  have width : clipWidth policy evidence = 0 := by
    have two : (completed evidence).length = 2 := by
      have lengths := congrArg List.length speedups
      rwa [logSpeedups, List.length_map] at lengths
    have least : clipWidth policy evidence ≤ ((completed evidence).length - 1) / 2 :=
      winsorWidth_le _ _ _
    rw [two] at least
    exact Nat.le_zero.mp least
  have mean : center policy evidence horizon = (a + b) / 2 := by
    rw [center, speedups, width, clippedMean, if_pos rfl, sortedPair]
    norm_num [fmean]
  rw [mean, penalty, speedups, error]

/-- The same trials after three milliseconds of setup. -/
def burdened : BenchmarkEvidence ℝ := withSetup apart 3 nonnegative_three

theorem measured_burdened : Measured cautious burdened ['w'] :=
  measured_congr (x := apart) (y := burdened) rfl rfl rfl measured_apart

theorem timeoutRate_burdened : timeoutRate burdened = 0 := timeoutRate_apart

theorem speedups_free : logSpeedups cautious apart 1 = [20, 22] := by
  have free : withSetup apart 0 (le_refl 0) = apart := rfl
  have first : (3 * 2 ^ 20 / (0 + 3) : ℝ) = 2 ^ (20 : ℝ) := by norm_num
  have second : (2 ^ 22 / (0 + 1) : ℝ) = 2 ^ (22 : ℝ) := by norm_num
  rw [← free, logSpeedups_apart, first, second, Real.logb_rpow two_pos (by norm_num),
    Real.logb_rpow two_pos (by norm_num)]

theorem speedups_burdened : logSpeedups cautious burdened 1 = [19, 20] := by
  have first : (3 * 2 ^ 20 / (3 + 3) : ℝ) = 2 ^ (19 : ℝ) := by norm_num
  have second : (2 ^ 22 / (3 + 1) : ℝ) = 2 ^ (20 : ℝ) := by norm_num
  rw [burdened, logSpeedups_apart, first, second, Real.logb_rpow two_pos (by norm_num),
    Real.logb_rpow two_pos (by norm_num)]

/-- The error falls faster than the mean. -/
theorem lowerBound_raised :
    center cautious apart 1 - penalty cautious apart 1 <
        center cautious burdened 1 - penalty cautious burdened 1 ∧
      0 < center cautious burdened 1 - penalty cautious burdened 1 := by
  have z : cautious.confidenceZ = 10 := rfl
  have root : 1 ≤ √(2 : ℝ) ∧ √(2 : ℝ) < 3 / 2 :=
    ⟨Real.one_le_sqrt.mpr one_le_two, (Real.sqrt_lt' (by norm_num)).mpr (by norm_num)⟩
  have inverse : 2 / 3 < 1 / √(2 : ℝ) ∧ 1 / √(2 : ℝ) ≤ 1 := by
    have positive : 0 < √(2 : ℝ) := by linarith
    rw [lt_div_iff₀ positive, div_le_one positive]
    constructor <;> linarith
  have error : ∀ gap : ℝ, 14826 / 10000 * (gap / 2) / √2 = 14826 / 20000 * gap * (1 / √2) := by
    intro gap
    ring
  rw [lowerBound_pair speedups_free (by norm_num), lowerBound_pair speedups_burdened (by norm_num), z,
    error, error]
  constructor <;> linarith

theorem rewardOf_cautious {evidence : BenchmarkEvidence ℝ} (rate : timeoutRate evidence = 0) :
    rewardOf cautious evidence =
      100 * savingsAt (center cautious evidence 1 - penalty cautious evidence 1) := by
  have weighted : weightedSavings cautious evidence =
      1 * savingsAt (center cautious evidence 1 - penalty cautious evidence 1) :=
    List.sum_singleton
  rw [rewardOf, weighted, rate]
  ring

/-- Three milliseconds of setup raise the reward. -/
theorem setup_pays :
    ¬ ∀ (policy : BenchmarkPolicy ℝ) (evidence : BenchmarkEvidence ℝ) (setupMs : ℝ)
      (nonnegative : 0 ≤ setupMs), evidence.setupMs ≤ setupMs →
      ∀ score charged, scoreBenchmark policy evidence = .ok score →
        scoreBenchmark policy (withSetup evidence setupMs nonnegative) = .ok charged →
          charged.reward ≤ score.reward := by
  intro charged
  have reward := charged cautious apart 3 nonnegative_three nonnegative_three _ _
    (scoreBenchmark_of_measured measured_apart) (scoreBenchmark_of_measured measured_burdened)
  change rewardOf cautious burdened ≤ rewardOf cautious apart at reward
  rw [rewardOf_cautious timeoutRate_apart, rewardOf_cautious timeoutRate_burdened] at reward
  have higher := savingsAt_lt lowerBound_raised.1 lowerBound_raised.2
  linarith

theorem costs_charged_apart :
    NotHigher (measuredOf cautious apart ['w']) (measuredOf cautious (withStorage apart 1) ['w']) ∧
      SetupCharged cautious apart burdened (measuredOf cautious apart ['w'])
        (measuredOf cautious burdened ['w']) := by
  obtain ⟨storage, setup⟩ := costs_charged cautious apart _ (scoreBenchmark_of_measured measured_apart)
  constructor
  · apply storage 1 zero_le_one
    exact scoreBenchmark_of_measured
      (measured_congr (x := apart) (y := withStorage apart 1) rfl rfl rfl measured_apart)
  · exact setup 3 nonnegative_three nonnegative_three _ (scoreBenchmark_of_measured measured_burdened)

end Pays

end ChargedCosts
