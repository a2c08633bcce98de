import PlanRace.BenchmarkInvariance
import PlanRace.SimulationReports

/-!
# Paired conditions

The conditions of one cohort are seeded alike. A validator with faster or slower
hardware, or one whose miners claim to be correct, draws what the honest one
draws, and comes to the same observations and the same weights.
-/

namespace SimulationPairing

open JsonText Grouping Draws ScoringV2 BenchmarkScoring BenchmarkOutcome BenchmarkInvariance Allocation RankAgreement
  MechanismSimulation SimulatedEvaluations SimulatedEpochs SimulatedRows SimulationReports Fallible

section Workers

/-- The same timing from another worker. -/
def renamed (workerId : Text) (identified : workerId ≠ []) (trial : InterleavedTrial ℝ) :
    InterleavedTrial ℝ :=
  { trial with workerId := workerId, identified := identified }

/-- The same measurements made by another worker. -/
def movedTo (workerId : Text) (identified : workerId ≠ []) (evidence : BenchmarkEvidence ℝ) :
    BenchmarkEvidence ℝ :=
  { evidence with trials := evidence.trials.map (renamed workerId identified) }

theorem dedup_workers {trials : List (InterleavedTrial ℝ)} {workerId : Text} (some : trials ≠ [])
    (one : ∀ trial ∈ trials, trial.workerId = workerId) :
    (trials.map InterleavedTrial.workerId).dedup = [workerId] := by
  have all : trials.map InterleavedTrial.workerId = List.replicate trials.length workerId := by
    refine List.eq_replicate_iff.mpr ⟨List.length_map _, fun id hid => ?_⟩
    obtain ⟨trial, htrial, rfl⟩ := List.mem_map.mp hid
    exact one trial htrial
  rw [all]
  obtain ⟨n, hn⟩ := Nat.exists_eq_succ_of_ne_zero fun h => some (List.length_eq_zero_iff.mp h)
  rw [hn]
  exact List.replicate_dedup (Nat.succ_ne_zero n)

variable {evidence : BenchmarkEvidence ℝ} {workerId other : Text} (identified : workerId ≠ [])

theorem unbalanced_renamed (trials : List (InterleavedTrial ℝ)) :
    unbalanced (trials.map (renamed workerId identified)) = unbalanced trials := by
  have counts : ∀ order, orderCount (trials.map (renamed workerId identified)) order =
      orderCount trials order := fun order => List.countP_map
  simp only [unbalanced, counts]

theorem completed_moved : completed (movedTo workerId identified evidence) =
    (completed evidence).map (renamed workerId identified) := List.filter_map

theorem timeoutRate_moved :
    timeoutRate (movedTo workerId identified evidence) = timeoutRate evidence := by
  rw [timeoutRate, timeoutRate, movedTo, List.map_map]
  rfl

/-- The gates do not depend on the worker. -/
theorem measured_moved {policy : BenchmarkPolicy ℝ} (h : Measured policy evidence other) :
    Measured policy (movedTo workerId identified evidence) workerId where
  enough := by
    rw [movedTo, List.length_map]
    exact h.enough
  oneWorker := by
    refine dedup_workers (fun he => ?_) fun trial htrial => ?_
    · have none := List.map_eq_nil_iff.mp he
      have worker := h.oneWorker
      rw [none] at worker
      cases worker
    · obtain ⟨t, -, rfl⟩ := List.mem_map.mp htrial
      rfl
  balanced := (unbalanced_renamed identified _).trans h.balanced
  baseline := List.any_map.trans h.baseline
  correct := h.correct
  compliant := h.compliant
  timely := (timeoutRate_moved identified).trans_le h.timely
  pairs := by
    rw [completed_moved, List.length_map]
    exact h.pairs
  completedBalanced := by
    rw [completed_moved]
    exact (unbalanced_renamed identified _).trans h.completedBalanced

theorem rewardOf_moved (policy : BenchmarkPolicy ℝ) :
    rewardOf policy (movedTo workerId identified evidence) = rewardOf policy evidence := by
  have speedups : ∀ horizon, logSpeedups policy (movedTo workerId identified evidence) horizon =
      logSpeedups policy evidence horizon := by
    intro horizon
    rw [logSpeedups, logSpeedups, completed_moved, List.map_map]
    rfl
  have horizons : ∀ horizon, (horizonOf policy (movedTo workerId identified evidence)
      horizon).relativeSavings = (horizonOf policy evidence horizon).relativeSavings := by
    intro horizon
    simp only [horizonOf, center, penalty, clipWidth, completed_moved, List.length_map, speedups]
  simp only [rewardOf, weightedSavings, horizons, timeoutRate_moved]

/-- One worker is as good as another. -/
theorem scoreBenchmark_moved (policy : BenchmarkPolicy ℝ)
    (one : ∀ trial ∈ evidence.trials, trial.workerId = other) (known : other ≠ []) :
    ∃ x y, scoreBenchmark policy evidence = .ok x ∧
      scoreBenchmark policy (movedTo workerId identified evidence) = .ok y ∧ x.reward = y.reward := by
  by_cases measured : ∃ id, Measured policy evidence id
  · obtain ⟨id, measured⟩ := measured
    exact ⟨_, _, scoreBenchmark_of_measured measured,
      scoreBenchmark_of_measured (measured_moved identified measured),
      (rewardOf_moved identified policy).symm⟩
  · have back : ∀ id, ¬ Measured policy (movedTo workerId identified evidence) id := by
      intro id h
      have home := measured_moved known h
      have same : movedTo other known (movedTo workerId identified evidence) = evidence := by
        have trials : (evidence.trials.map (renamed workerId identified)).map
            (renamed other known) = evidence.trials := by
          rw [List.map_map]
          refine (List.map_congr_left fun trial htrial => ?_).trans (List.map_id _)
          obtain rfl := one trial htrial
          rfl
        unfold movedTo
        rw [trials]
      rw [same] at home
      exact measured ⟨other, home⟩
    obtain ⟨x, hx, zero, -⟩ := scoreBenchmark_of_unmeasured (not_exists.mp measured)
    obtain ⟨y, hy, zero', -⟩ := scoreBenchmark_of_unmeasured back
    exact ⟨x, y, hx, hy, zero.trans zero'.symm⟩

end Workers

section Trials

variable {S : Type} (source : NormalSource ℝ S)

/-- The second condition differs from the first in the speed of its hardware,
by a factor, and in what it claims. -/
structure Paired (factor : ℝ) (first second : ValidatorScenario ℝ) : Prop where
  positive : 0 < factor
  hardware : second.hardwareScale = factor * first.hardwareScale
  order : second.orderBias = first.orderBias
  outliers : second.outlierProbability = first.outlierProbability
  bias : second.candidateBiasMultipliers = first.candidateBiasMultipliers
  allFail : second.allFail = first.allFail

/-- All mean times are longer by the factor. -/
def SlowerMeans (factor : ℝ) (x y : TrialMeans ℝ) : Prop :=
  y = ⟨factor * x.baseCold, factor * x.baseWarm, factor * x.candidateCold, factor * x.candidateWarm⟩

/-- The same trial in the other worker, slower by the factor. -/
def SlowerTrial (factor : ℝ) (positive : 0 < factor) (worker other : Text) (named : other ≠ [])
    (x y : InterleavedTrial ℝ) : Prop :=
  x.workerId = worker ∧ y = renamed other named (scaled factor positive x)

variable {factor : ℝ} {first second : ValidatorScenario ℝ} (paired : Paired factor first second)
  {profile : MinerProfile ℝ} {familyIndex : Nat} {worker other : Text}
include paired

theorem coupled_trialMeans : Coupled (SlowerMeans factor)
    (trialMeans profile first familyIndex : Step S (TrialMeans ℝ))
    (trialMeans profile second familyIndex) := by
  refine (coupled_refl (multiplier profile.familyMultipliers familyIndex)).bind fun m m' hm => ?_
  subst hm
  have bias : Coupled Eq
      (multiplier first.candidateBiasMultipliers familyIndex : Step S ℝ)
      (multiplier second.candidateBiasMultipliers familyIndex) := by
    rw [paired.bias]
    exact coupled_refl _
  refine bias.bind fun b b' hb => coupled_pure ?_
  subst hb
  simp only [SlowerMeans, paired.hardware, TrialMeans.mk.injEq]
  refine ⟨by ring, by ring, by ring, by ring⟩

theorem outliers_eq : (outliers source second : Step S (ℝ × ℝ)) = outliers source first := by
  rw [outliers, outliers, paired.outliers]

theorem orderMultiplier_eq (b : Bool) : orderMultiplier second b = orderMultiplier first b := by
  rw [orderMultiplier, orderMultiplier, paired.order]

omit paired in
/-- A record is made on both sides or refused on both sides. -/
theorem coupled_interleavedTrial {factor : ℝ} (positive : 0 < factor) (known : worker ≠ [])
    (named : other ≠ []) (order : ExecutionOrder) (baselineCold candidateCold baselineWarm
      candidateWarm : ℝ) (timedOut : Bool) :
    Coupled (SlowerTrial factor positive worker other named)
      (liftM (interleavedTrial worker order baselineCold candidateCold baselineWarm candidateWarm
        timedOut) : Step S (InterleavedTrial ℝ))
      (liftM (interleavedTrial other order (factor * baselineCold) (factor * candidateCold)
        (factor * baselineWarm) (factor * candidateWarm) timedOut)) := by
  have sign : ∀ x : ℝ, 0 < factor * x ↔ 0 < x := fun x => mul_pos_iff_of_pos_left positive
  refine coupled_lift ?_
  by_cases valid : worker ≠ [] ∧ 0 < baselineCold ∧ 0 < candidateCold ∧ 0 < baselineWarm ∧
      0 < candidateWarm
  · have valid' : other ≠ [] ∧ 0 < factor * baselineCold ∧ 0 < factor * candidateCold ∧
        0 < factor * baselineWarm ∧ 0 < factor * candidateWarm := by
      rw [sign, sign, sign, sign]
      exact ⟨named, valid.2⟩
    exact .inr ⟨_, _, dif_pos valid, dif_pos valid', rfl, rfl⟩
  · have invalid' : ¬ (other ≠ [] ∧ 0 < factor * baselineCold ∧ 0 < factor * candidateCold ∧
        0 < factor * baselineWarm ∧ 0 < factor * candidateWarm) := by
      rw [sign, sign, sign, sign]
      exact fun h => valid ⟨known, h.2⟩
    exact .inl ⟨_, dif_neg valid, dif_neg invalid'⟩

theorem coupled_makeTrial (known : worker ≠ []) (named : other ≠ []) {x y : TrialMeans ℝ}
    (means : SlowerMeans factor x y) (start : Bool) (trialIndex : Nat) :
    Coupled (SlowerTrial factor paired.positive worker other named)
      (makeTrial source profile first worker x start trialIndex)
      (makeTrial source profile second other y start trialIndex) := by
  subst means
  unfold makeTrial
  dsimp only
  simp only [outliers_eq source paired, orderMultiplier_eq paired]
  refine (coupled_refl _).bind fun outlier _ h => ?_
  subst h
  refine (coupled_refl _).bind fun baselineCold _ h => ?_
  subst h
  refine (coupled_refl _).bind fun candidateCold _ h => ?_
  subst h
  refine (coupled_refl _).bind fun baselineWarm _ h => ?_
  subst h
  refine (coupled_refl _).bind fun candidateWarm _ h => ?_
  subst h
  refine (coupled_refl _).bind fun timedOut _ h => ?_
  subst h
  have slower : ∀ a b c d : ℝ, factor * a * b * c * d = factor * (a * b * c * d) := fun a b c d => by
    ring
  simp only [slower]
  exact coupled_interleavedTrial paired.positive known named _ _ _ _ _ _

theorem coupled_makeTrials (known : worker ≠ []) (named : other ≠ []) (trialCount : Nat) :
    Coupled (List.Forall₂ (SlowerTrial factor paired.positive worker other named))
      (makeTrials source profile first familyIndex worker trialCount)
      (makeTrials source profile second familyIndex other trialCount) := by
  refine (coupled_trialMeans paired).bind fun x y means => ?_
  refine (coupled_refl _).bind fun start _ h => ?_
  subst h
  exact coupled_mapM _ fun i _ => coupled_makeTrial source paired known named means start i

end Trials

section Evaluations

variable {S : Type} (source : NormalSource ℝ S) {factor : ℝ} {first second : ValidatorScenario ℝ}
  (paired : Paired factor first second) {policy : BenchmarkPolicy ℝ} {profile : MinerProfile ℝ}
  {familyIndex databaseBytes : Nat} {worker other : Text}

/-- Two evaluations agree in all that the validator measured. -/
structure SameVerdict (x y : StrategyEpochEvaluation ℝ) : Prop where
  available : x.available = y.available
  compliant : x.compliant = y.compliant
  measuredCorrect : x.measuredCorrect = y.measuredCorrect
  reward : x.reward = y.reward
  invalid : x.invalid = y.invalid
  trialPairs : x.trialPairs = y.trialPairs

theorem eq_map_of_slower {positive : 0 < factor} {named : other ≠ []}
    {xs ys : List (InterleavedTrial ℝ)}
    (h : List.Forall₂ (SlowerTrial factor positive worker other named) xs ys) :
    (∀ x ∈ xs, x.workerId = worker) ∧
      ys = (xs.map (scaled factor positive)).map (renamed other named) := by
  induction h with
  | nil => exact ⟨by simp, rfl⟩
  | cons h _ ih =>
    obtain ⟨one, rest⟩ := ih
    exact ⟨List.forall_mem_cons.mpr ⟨h.1, one⟩, congrArg₂ List.cons h.2 rest⟩

include paired in
theorem coupled_measure (known : worker ≠ []) (named : other ≠ []) (trialCount : Nat)
    (measuredCorrect compliant : Bool) :
    Coupled (fun x y => x.1.reward = y.1.reward ∧ x.2 = y.2)
      (measure source policy profile first familyIndex databaseBytes worker trialCount
        measuredCorrect compliant)
      (measure source policy profile second familyIndex databaseBytes other trialCount
        measuredCorrect compliant) := by
  refine (coupled_makeTrials source paired known named trialCount).bind fun xs ys slower => ?_
  obtain ⟨one, rfl⟩ := eq_map_of_slower slower
  have setup : 80 * second.hardwareScale * profile.setupFraction =
      factor * (80 * first.hardwareScale * profile.setupFraction) := by
    rw [paired.hardware]
    ring
  have evidence : Coupled (fun x y : BenchmarkEvidence ℝ => (∀ t ∈ x.trials, t.workerId = worker) ∧
      y = movedTo other named (rescaled factor paired.positive x x.trials))
      (liftM (benchmarkEvidence profile first databaseBytes measuredCorrect compliant xs) :
        Step S (BenchmarkEvidence ℝ))
      (liftM (benchmarkEvidence profile second databaseBytes measuredCorrect compliant
        ((xs.map (scaled factor paired.positive)).map (renamed other named)))) := by
    refine coupled_lift ?_
    by_cases valid : 0 ≤ 80 * first.hardwareScale * profile.setupFraction ∧ 0 < databaseBytes
    · have valid' : 0 ≤ 80 * second.hardwareScale * profile.setupFraction ∧ 0 < databaseBytes := by
        rw [setup]
        exact ⟨mul_nonneg paired.positive.le valid.1, valid.2⟩
      refine .inr ⟨_, _, dif_pos valid, dif_pos valid', one, ?_⟩
      simp only [movedTo, rescaled, setup]
    · have invalid' : ¬ (0 ≤ 80 * second.hardwareScale * profile.setupFraction ∧
          0 < databaseBytes) := by
        rw [setup]
        exact fun h => valid ⟨nonneg_of_mul_nonneg_right h.1 paired.positive, h.2⟩
      exact .inl ⟨_, dif_neg valid, dif_neg invalid'⟩
  refine evidence.bind fun x y h => ?_
  obtain ⟨workers, rfl⟩ := h
  have moved : ∀ t ∈ (rescaled factor paired.positive x x.trials).trials, t.workerId = worker := by
    intro t ht
    obtain ⟨u, hu, rfl⟩ := List.mem_map.mp ht
    exact workers u hu
  obtain ⟨a, b, ha, hb, same⟩ := scoreBenchmark_moved named policy moved known
  rw [scoreBenchmark_eq_of_scaled] at ha
  have score : Coupled (fun x y : BenchmarkScore ℝ => x.reward = y.reward)
      (liftM ((scoreBenchmark policy x).mapError SimulationError.scoring) :
        Step S (BenchmarkScore ℝ))
      (liftM ((scoreBenchmark policy (movedTo other named
        (rescaled factor paired.positive x x.trials))).mapError SimulationError.scoring)) :=
    coupled_lift (.inr ⟨a, b, mapError_ok_iff.mpr ha, mapError_ok_iff.mpr hb, same⟩)
  refine score.bind fun u v huv => coupled_pure ⟨huv, ?_⟩
  rw [List.length_map, List.length_map]

include paired in
theorem coupled_evaluateStrategyEpoch (known : worker ≠ []) (named : other ≠ [])
    (trialCount : Nat) :
    Coupled SameVerdict
      (evaluateStrategyEpoch source policy profile first familyIndex databaseBytes worker trialCount)
      (evaluateStrategyEpoch source policy profile second familyIndex databaseBytes other
        trialCount) := by
  unfold evaluateStrategyEpoch
  rw [paired.allFail]
  refine (coupled_refl _).bind fun available _ h => ?_
  subst h
  refine (coupled_refl _).bind fun compliant _ h => ?_
  subst h
  refine (coupled_refl _).bind fun measuredCorrect _ h => ?_
  subst h
  refine coupled_ite Iff.rfl (fun _ => ?_) fun _ => ?_
  · refine (coupled_measure source paired known named trialCount measuredCorrect compliant).bind
      fun x y h => coupled_pure ?_
    exact ⟨rfl, rfl, rfl, h.1, rfl, h.2⟩
  · exact coupled_pure ⟨rfl, rfl, rfl, rfl, rfl, rfl⟩

end Evaluations

section Loops

variable {S : Type} (platform : Platform ℝ S) {factor : ℝ} {first second : ValidatorScenario ℝ}
  (paired : Paired factor first second)

/-- Two caches hold the same strategies with the same verdicts. -/
def SamePage (x y : List (Text × StrategyEpochEvaluation ℝ)) : Prop :=
  List.Forall₂ (fun e f => e.1 = f.1 ∧ SameVerdict e.2 f.2) x y

/-- Two runs have recorded the same. -/
structure SameProgress (x y : Progress ℝ) : Prop where
  observations : x.observations = y.observations
  invalid : x.counters.invalidAttempts = y.counters.invalidAttempts
  evaluations : x.counters.strategyEvaluations = y.counters.strategyEvaluations
  hits : x.counters.duplicateCacheHits = y.counters.duplicateCacheHits
  pairs : x.counters.trialPairs = y.counters.trialPairs

theorem get?_samePage {x y : List (Text × StrategyEpochEvaluation ℝ)} (h : SamePage x y) (k : Text) :
    (Dict.get? x k = none ∧ Dict.get? y k = none) ∨
      ∃ e f, Dict.get? x k = some e ∧ Dict.get? y k = some f ∧ SameVerdict e f := by
  induction h with
  | nil => exact .inl ⟨rfl, rfl⟩
  | @cons e f xs ys same _ ih =>
    by_cases own : e.1 = k
    · have own' : f.1 = k := same.1 ▸ own
      exact .inr ⟨e.2, f.2, by simp [Dict.get?, own], by simp [Dict.get?, own'], same.2⟩
    · have own' : f.1 ≠ k := same.1 ▸ own
      simpa [Dict.get?, own, own'] using ih

theorem observation_congr {x y : StrategyEpochEvaluation ℝ} (same : SameVerdict x y)
    (floatText : ℝ → Text) (task : ScheduledTask) (profile : MinerProfile ℝ) :
    observation floatText task profile x = observation floatText task profile y := by
  obtain ⟨available, compliant, correct, reward, -, pairs⟩ := same
  cases x
  cases y
  dsimp only at available compliant correct reward pairs
  subst available compliant correct reward pairs
  rfl

/-- The loops over the profiles are in the same place. -/
structure SameState (x y : EpochProgress ℝ) : Prop where
  cache : SamePage x.cache y.cache
  progress : SameProgress x.progress y.progress

theorem SameProgress.hit {x y : Progress ℝ} (h : SameProgress x y) :
    SameProgress { x with counters := x.counters.hit } { y with counters := y.counters.hit } where
  observations := h.observations
  invalid := h.invalid
  evaluations := h.evaluations
  hits := congrArg (· + 1) h.hits
  pairs := h.pairs

theorem SameProgress.evaluated {x y : Progress ℝ} (h : SameProgress x y)
    {e f : StrategyEpochEvaluation ℝ} (same : SameVerdict e f) :
    SameProgress { x with counters := x.counters.evaluated e }
      { y with counters := y.counters.evaluated f } where
  observations := h.observations
  invalid := congrArg₂ (fun n b => n + Bool.toNat b) h.invalid same.invalid
  evaluations := congrArg (· + 1) h.evaluations
  hits := h.hits
  pairs := congrArg₂ (· + ·) h.pairs same.trialPairs

variable {platform} {setting setting' : EpochSetting ℝ}

/-- One epoch in two conditions. -/
structure SameSetting (first second : ValidatorScenario ℝ) (x y : EpochSetting ℝ) : Prop where
  policy : y.policy = x.policy
  epoch : y.epoch = x.epoch
  trialCount : y.trialCount = x.trialCount
  scenarios : x.scenario = first ∧ y.scenario = second
  workers : x.workerId ≠ [] ∧ y.workerId ≠ []

include paired in
theorem coupled_lookUp (same : SameSetting first second setting setting') {x y : EpochProgress ℝ}
    (h : SameState x y) (profile : MinerProfile ℝ) :
    Coupled (fun a b => SameVerdict a.1 b.1 ∧ SameState a.2 b.2)
      (lookUp platform setting x profile) (lookUp platform setting' y profile) := by
  unfold lookUp
  rcases get?_samePage h.cache profile.strategyDigest with ⟨miss, miss'⟩ | ⟨e, f, hit, hit', verdict⟩
  · rw [miss, miss']
    dsimp only
    have evaluated : Coupled SameVerdict
        (evaluateStrategyEpoch platform.source setting.policy profile setting.scenario
          setting.familyIndex setting.databaseBytes setting.workerId setting.trialCount)
        (evaluateStrategyEpoch platform.source setting'.policy profile setting'.scenario
          setting'.familyIndex setting'.databaseBytes setting'.workerId setting'.trialCount) := by
      have index : setting'.familyIndex = setting.familyIndex := by
        rw [EpochSetting.familyIndex, EpochSetting.familyIndex, EpochSetting.task,
          EpochSetting.task, same.epoch]
      have bytes : setting'.databaseBytes = setting.databaseBytes := by
        rw [EpochSetting.databaseBytes, EpochSetting.databaseBytes, index]
      rw [same.policy, same.trialCount, same.scenarios.1, same.scenarios.2, index, bytes]
      exact coupled_evaluateStrategyEpoch platform.source paired same.workers.1 same.workers.2 _
    refine evaluated.bind fun e f verdict => coupled_pure ⟨verdict, ?_, h.progress.evaluated verdict⟩
    rw [Dict.set_of_new (Dict.get?_eq_none_iff.mp miss), Dict.set_of_new
      (Dict.get?_eq_none_iff.mp miss')]
    exact List.rel_append h.cache (.cons ⟨rfl, verdict⟩ .nil)
  · rw [hit, hit']
    exact coupled_pure ⟨verdict, h.cache, h.progress.hit⟩

include paired in
theorem coupled_runProfile (same : SameSetting first second setting setting')
    {x y : EpochProgress ℝ} (h : SameState x y) (profile : MinerProfile ℝ) :
    Coupled SameState (runProfile platform setting x profile)
      (runProfile platform setting' y profile) := by
  refine (coupled_lookUp paired same h profile).bind fun a b hab => ?_
  obtain ⟨verdict, state⟩ := hab
  have made : Coupled Eq
      (liftM (observation platform.floatText setting.task profile a.1) :
        Step S (EpochObservation ℝ))
      (liftM (observation platform.floatText setting'.task profile b.1)) := by
    have task : setting'.task = setting.task := by
      rw [EpochSetting.task, EpochSetting.task, same.epoch]
    rw [task, observation_congr verdict]
    exact coupled_refl _
  refine made.bind fun o _ ho => coupled_pure ?_
  subst ho
  obtain ⟨observations, invalid, evaluations, hits, pairs⟩ := state.progress
  exact ⟨state.cache, congrArg (· ++ [o]) observations, invalid, evaluations, hits, pairs⟩

variable (platform) in
include paired in
/-- A replication records the same in both conditions. -/
theorem coupled_runEpochs (policy : BenchmarkPolicy ℝ) (config : SimulationConfig) (cohort : Nat) :
    Coupled SameProgress (runEpochs platform policy config cohort first)
      (runEpochs platform policy config cohort second) := by
  refine coupled_foldlM _ (fun epoch _ x y h => ?_) ⟨rfl, rfl, rfl, rfl, rfl⟩
  have named : ∀ scenario : ValidatorScenario ℝ, "cohort-".toList ++ intText cohort ++
      "-scenario-".toList ++ scenario.scenarioId ++ "-epoch-".toList ++ intText epoch ≠ [] := by
    intro scenario
    simp
  have start : SameState (⟨[], x⟩ : EpochProgress ℝ) ⟨[], y⟩ := ⟨.nil, h⟩
  have same : SameSetting first second
      ⟨policy, first, epoch, _, config.trialsPerTask⟩
      ⟨policy, second, epoch, _, config.trialsPerTask⟩ :=
    ⟨rfl, rfl, rfl, ⟨rfl, rfl⟩, named first, named second⟩
  refine (coupled_foldlM _ (fun profile _ a b hab => coupled_runProfile paired same hab profile)
    start).bind fun a b hab => coupled_pure hab.progress

end Loops

section Rows

variable {policy : AggregationPolicy ℝ} {replication replication' cohort cohort' : Nat}
  {scenario scenario' : ValidatorScenario ℝ} {progress progress' : Progress ℝ}

/-- Two rows agree in what was measured and in what was made of it. They may
differ in their scenario, in what the validator claims and in the comparisons. -/
structure SameOutcome (x y : ReplicationRow ℝ) : Prop where
  planned : x.planned = y.planned
  reason : x.reason = y.reason
  winner : x.winner = y.winner
  winnerCategory : x.winnerCategory = y.winnerCategory
  invalid : x.counters.invalidAttempts = y.counters.invalidAttempts
  pairs : x.counters.trialPairs = y.counters.trialPairs
  concentration : x.concentration = y.concentration
  rankStability : x.rankStabilityTauB = y.rankStabilityTauB
  shares : (x.honestWeight, x.gamingWeight, x.sybilWeight) =
    (y.honestWeight, y.gamingWeight, y.sybilWeight)
  gains : (x.sybilStrategyAllocationGain, x.behaviorEquivalentReplicaAllocationGain) =
    (y.sybilStrategyAllocationGain, y.behaviorEquivalentReplicaAllocationGain)
  weights : x.weights = y.weights
  strategyWeights : x.strategyWeights = y.strategyWeights
  aggregateRewards : x.aggregateRewards = y.aggregateRewards
  aggregates : x.aggregates = y.aggregates

/-- What a row is made of. -/
structure Scored (policy : AggregationPolicy ℝ) (observations : List (EpochObservation ℝ))
    (row : ReplicationRow ℝ) : Prop where
  aggregates : (aggregateNetwork observations (minerIds (K := ℝ)) policy).mapError
    SimulationError.scoring = .ok row.aggregates
  rewards : row.aggregateRewards = row.aggregates.map fun aggregate =>
    (aggregate.minerId, aggregate.reward)
  allocation : ∃ allocation, (allocateWeights row.aggregates policy).mapError
      SimulationError.scoring = .ok allocation ∧
    (row.planned, row.reason, row.concentration, row.weights, row.strategyWeights) =
      (allocation.planned, allocation.reason, allocation.concentration, allocation.weights,
        allocation.strategyWeights) ∧
    (∃ gains, duplicateGroupGains observations (minerIds (K := ℝ)) row.aggregates allocation
      policy .strategy false = .ok gains ∧ row.sybilStrategyAllocationGain = meanOf gains) ∧
    ∃ gains, duplicateGroupGains observations (minerIds (K := ℝ)) row.aggregates allocation
      policy .behavior true = .ok gains ∧ row.behaviorEquivalentReplicaAllocationGain = meanOf gains
  rankStability : (if row.planned then ((kendallTauB expectedScores row.aggregateRewards).mapError
    SimulationError.rank).map some else .ok none) = .ok row.rankStabilityTauB
  winner : row.winner = winnerOf row.weights
  category : winnerCategory (K := ℝ) row.winner = .ok row.winnerCategory
  shares : (row.honestWeight, row.gamingWeight, row.sybilWeight) =
    (categoryWeight row.weights .honest, categoryWeight row.weights .gaming,
      categoryWeight row.weights .sybil)

theorem scored_of_ok {row : ReplicationRow ℝ}
    (h : scoreReplication policy replication cohort scenario progress = .ok row) :
    Scored policy (networkObservations progress) row ∧ row.scenario = scenario.scenarioId ∧
      row.counters = progress.counters ∧ row.replication = replication ∧ row.cohort = cohort := by
  unfold scoreReplication at h
  obtain ⟨aggregates, haggregates, h⟩ := bind_ok h
  obtain ⟨allocation, hallocation, h⟩ := bind_ok h
  obtain ⟨duplicates, hduplicates, h⟩ := bind_ok h
  obtain ⟨replicas, hreplicas, h⟩ := bind_ok h
  obtain ⟨stability, hstability, h⟩ := bind_ok ((ite_bind _ _ _).symm.trans h)
  obtain ⟨category, hcategory, h⟩ := bind_ok h
  obtain rfl := Except.ok.inj h
  exact ⟨⟨haggregates, rfl, ⟨allocation, hallocation, rfl, ⟨duplicates, hduplicates, rfl⟩,
    replicas, hreplicas, rfl⟩, hstability, rfl, hcategory, rfl⟩, rfl, rfl, rfl, rfl⟩

/-- A row is made of the observations and the counters alone. -/
theorem sameOutcome_of_scored {observations : List (EpochObservation ℝ)} {x y : ReplicationRow ℝ}
    (hx : Scored policy observations x) (hy : Scored policy observations y)
    (invalid : x.counters.invalidAttempts = y.counters.invalidAttempts)
    (pairs : x.counters.trialPairs = y.counters.trialPairs) : SameOutcome x y := by
  have aggregates := Except.ok.inj (hx.aggregates.symm.trans hy.aggregates)
  obtain ⟨allocation, hallocation, made, ⟨gains, hgains, gain⟩, replicas, hreplicas, replica⟩ :=
    hx.allocation
  obtain ⟨other, hother, made', ⟨gains', hgains', gain'⟩, replicas', hreplicas', replica'⟩ :=
    hy.allocation
  rw [aggregates] at hallocation hgains hreplicas
  obtain rfl := Except.ok.inj (hallocation.symm.trans hother)
  obtain rfl := Except.ok.inj (hgains.symm.trans hgains')
  obtain rfl := Except.ok.inj (hreplicas.symm.trans hreplicas')
  have same := made.trans made'.symm
  simp only [Prod.mk.injEq] at same
  obtain ⟨planned, reason, concentration, weights, strategyWeights⟩ := same
  have rewards : x.aggregateRewards = y.aggregateRewards := by
    rw [hx.rewards, hy.rewards, aggregates]
  have winner : x.winner = y.winner := by
    rw [hx.winner, hy.winner, weights]
  have category := hx.category
  rw [winner, hy.category] at category
  have stability := hx.rankStability
  rw [planned, rewards, hy.rankStability] at stability
  refine ⟨planned, reason, winner, (Except.ok.inj category).symm, invalid, pairs, concentration,
    (Except.ok.inj stability).symm, ?_, ?_, weights, strategyWeights, rewards, aggregates⟩
  · rw [hx.shares, hy.shares, weights]
  · rw [gain, gain', replica, replica']

end Rows

section Reports

variable {S : Type} {platform : Platform ℝ S} {config : SimulationConfig}

/-- Hardware of any speed, measured without bias. -/
structure Plain (scenario : ValidatorScenario ℝ) : Prop where
  hardware : 0 < scenario.hardwareScale
  order : scenario.orderBias = 0
  outliers : scenario.outlierProbability = 0
  bias : scenario.candidateBiasMultipliers = [1, 1, 1, 1]
  allFail : scenario.allFail = false

/-- The conditions that differ from the honest one in hardware and claims only. -/
def plainScenarios : List Text :=
  ["honest".toList, "fast-worker".toList, "slow-worker".toList, "false-accept-claim".toList]

theorem plain_of_id {scenario : ValidatorScenario ℝ} (h : scenario ∈ validatorScenarios)
    (id : scenario.scenarioId ∈ plainScenarios) : Plain scenario := by
  have marked : ∀ mark ∈ ["order-bias".toList, "timing-outliers".toList,
      "candidate-measurement-bias".toList, "all-fail".toList], mark ∉ plainScenarios := by
    decide
  simp only [validatorScenarios, List.mem_cons, List.not_mem_nil, or_false] at h
  rcases h with rfl | rfl | rfl | rfl | rfl | rfl | rfl | rfl
  · exact ⟨one_pos, rfl, rfl, rfl, rfl⟩
  · exact ⟨by norm_num, rfl, rfl, rfl, rfl⟩
  · exact ⟨by norm_num, rfl, rfl, rfl, rfl⟩
  · exact absurd id (marked _ (by simp))
  · exact absurd id (marked _ (by simp))
  · exact absurd id (marked _ (by simp))
  · exact ⟨one_pos, rfl, rfl, rfl, rfl⟩
  · exact absurd id (marked _ (by simp))

theorem paired_of_plain {first second : ValidatorScenario ℝ} (h : Plain first) (h' : Plain second) :
    Paired (second.hardwareScale / first.hardwareScale) first second where
  positive := div_pos h'.hardware h.hardware
  hardware := (div_mul_cancel₀ _ h.hardware.ne').symm
  order := h'.order.trans h.order.symm
  outliers := h'.outliers.trans h.outliers.symm
  bias := h'.bias.trans h.bias.symm
  allFail := h'.allFail.trans h.allFail.symm

/-- Replications of one cohort in plain conditions come to the same. -/
theorem sameOutcome_of_run {benchmark : BenchmarkPolicy ℝ} {policy : AggregationPolicy ℝ}
    {replication replication' : Nat} {x y : ReplicationRow ℝ}
    (hx : runReplication platform benchmark policy config replication = .ok x)
    (hy : runReplication platform benchmark policy config replication' = .ok y)
    (cohort : cohortOf ℝ replication = cohortOf ℝ replication')
    (plain : x.scenario ∈ plainScenarios) (plain' : y.scenario ∈ plainScenarios) :
    SameOutcome x y := by
  obtain ⟨first, hfirst, hx⟩ := bind_ok hx
  obtain ⟨second, hsecond, hy⟩ := bind_ok hy
  obtain ⟨⟨progress, s⟩, hrun, hx⟩ := bind_ok hx
  obtain ⟨⟨progress', s'⟩, hrun', hy⟩ := bind_ok hy
  obtain ⟨scored, named, counters, -⟩ := scored_of_ok hx
  obtain ⟨scored', named', counters', -⟩ := scored_of_ok hy
  rw [named] at plain
  rw [named'] at plain'
  have paired := paired_of_plain (plain_of_id (scenarioAt_mem hfirst) plain)
    (plain_of_id (scenarioAt_mem hsecond) plain')
  rw [← cohort] at hrun'
  rcases coupled_runEpochs platform paired benchmark config (cohortOf ℝ replication)
    (seedOf platform.source config (cohortOf ℝ replication)) with ⟨e, he, -⟩ | ⟨a, b, t, ha, hb, same⟩
  · cases hrun.symm.trans he
  · obtain rfl := congrArg Prod.fst (Except.ok.inj (ha.symm.trans hrun))
    obtain rfl := congrArg Prod.fst (Except.ok.inj (hb.symm.trans hrun'))
    have observations : networkObservations b = networkObservations a := by
      rw [networkObservations, networkObservations, same.observations]
    rw [observations] at scored'
    refine sameOutcome_of_scored scored scored' ?_ ?_
    · rw [counters, counters', same.invalid]
    · rw [counters, counters', same.pairs]

/-- The runs and the comparisons behind a report. -/
structure Compiled (platform : Platform ℝ S) (config : SimulationConfig)
    (report : SimulationReport ℝ) (benchmark : BenchmarkPolicy ℝ) (policy : AggregationPolicy ℝ)
    (rows : List (ReplicationRow ℝ)) (outcomes : List (CohortOutcome ℝ)) : Prop where
  runs : List.Forall₂ (fun replication row =>
    runReplication platform benchmark policy config replication = .ok row)
    (List.range config.replications) rows
  compared : List.Forall₂ (fun g outcome => compareCohort g.2 = .ok outcome)
    (groupBy ReplicationRow.cohort rows) outcomes
  summary : report.summary = summarize config outcomes
  replications : report.replications = outcomes.flatMap CohortOutcome.rows

theorem compiled_of_ok {report : SimulationReport ℝ}
    (h : runMechanismSimulation platform config = .ok report) :
    ∃ benchmark policy rows outcomes,
      Compiled platform config report benchmark policy rows outcomes := by
  obtain ⟨benchmark, -, h⟩ := bind_ok h
  obtain ⟨policy, -, h⟩ := bind_ok h
  rw [sharedCharacteristics_profiles] at h
  obtain ⟨rows, hrows, h⟩ := bind_ok h
  obtain ⟨outcomes, houtcomes, h⟩ := bind_ok h
  obtain rfl := Except.ok.inj h
  exact ⟨benchmark, policy, rows, outcomes, mapM_ok_iff.mp hrows, mapM_ok_iff.mp houtcomes, rfl, rfl⟩

section Compared

variable {report : SimulationReport ℝ} {benchmark : BenchmarkPolicy ℝ}
  {policy : AggregationPolicy ℝ} {rows : List (ReplicationRow ℝ)}
  {outcomes : List (CohortOutcome ℝ)}

theorem run_of_mem (h : Compiled platform config report benchmark policy rows outcomes)
    {row : ReplicationRow ℝ} (hrow : row ∈ rows) :
    runReplication platform benchmark policy config row.replication = .ok row ∧
      row.cohort = cohortOf ℝ row.replication := by
  obtain ⟨replication, -, run⟩ := exists_of_forall₂ h.runs hrow
  obtain ⟨scenario, -, scored⟩ := bind_ok run
  obtain ⟨⟨progress, s⟩, -, scored⟩ := bind_ok scored
  obtain ⟨-, -, -, place, cohort⟩ := scored_of_ok scored
  rw [place]
  exact ⟨run, cohort⟩

/-- Plain rows of one cohort agree. -/
theorem sameOutcome_of_mem (h : Compiled platform config report benchmark policy rows outcomes)
    {x y : ReplicationRow ℝ} (hx : x ∈ rows) (hy : y ∈ rows) (cohort : x.cohort = y.cohort)
    (plain : x.scenario ∈ plainScenarios) (plain' : y.scenario ∈ plainScenarios) :
    SameOutcome x y := by
  obtain ⟨run, place⟩ := run_of_mem h hx
  obtain ⟨run', place'⟩ := run_of_mem h hy
  exact sameOutcome_of_run run run' (place.symm.trans (cohort.trans place')) plain plain'

/-- Scores agree with themselves. -/
theorem kendallTauB_self {scores : List (Text × ℝ)} {tau : ℝ} (h : kendallTauB scores scores = .ok tau) :
    tau = 1 := by
  have shared : 2 ≤ (sharedKeys scores scores).length := by
    by_contra few
    rw [kendallTauB, if_pos (Nat.lt_of_not_le few)] at h
    cases h
  rw [kendallTauB_eq shared] at h
  rw [← Except.ok.inj h]
  exact (tauOf_countsOf_eq_one_iff _ _ _).mpr (.inl fun i _ j _ => Iff.rfl)

theorem hardwarePair_eq (h : Compiled platform config report benchmark policy rows outcomes)
    {g : Nat × List (ReplicationRow ℝ)} (hg : g ∈ groupBy ReplicationRow.cohort rows)
    {tau : Option ℝ} (htau : hardwarePair g.2 = .ok tau) : tau = none ∨ tau = some 1 := by
  have found : ∀ {name row}, rowOf g.2 name = some row →
      row ∈ rows ∧ row.cohort = g.1 ∧ row.scenario = name := by
    intro name row hrow
    have mem := List.mem_reverse.mp (List.mem_of_find?_eq_some hrow)
    rw [(mem_groupBy.mp hg).2, mem_under] at mem
    have named : decide (row.scenario = name) = true :=
      List.find?_some (p := fun row : ReplicationRow ℝ => decide (row.scenario = name)) hrow
    exact ⟨mem.1, mem.2, of_decide_eq_true named⟩
  unfold hardwarePair at htau
  cases hfast : rowOf g.2 "fast-worker".toList with
  | none =>
    rw [hfast] at htau
    exact .inl (Except.ok.inj htau).symm
  | some fast =>
    cases hslow : rowOf g.2 "slow-worker".toList with
    | none =>
      rw [hfast, hslow] at htau
      exact .inl (Except.ok.inj htau).symm
    | some slow =>
      obtain ⟨infast, cohort, named⟩ := found hfast
      obtain ⟨inslow, cohort', named'⟩ := found hslow
      have same := sameOutcome_of_mem h infast inslow (cohort.trans cohort'.symm)
        (by rw [named]; simp [plainScenarios]) (by rw [named']; simp [plainScenarios])
      rw [hfast, hslow] at htau
      dsimp only at htau
      split_ifs at htau with planned
      · rw [same.aggregateRewards] at htau
        cases hself : kendallTauB slow.aggregateRewards slow.aggregateRewards with
        | error e =>
          rw [hself] at htau
          cases htau
        | ok value =>
          rw [hself] at htau
          obtain rfl := Except.ok.inj htau
          exact .inr (congrArg some (kendallTauB_self hself))
      · exact .inl (Except.ok.inj htau).symm

end Compared

/-- In exact real arithmetic, faster or slower hardware changes nothing that is
reported, and neither does a validator that takes the miners at their word. -/
theorem report_indifferent {report : SimulationReport ℝ}
    (h : runMechanismSimulation platform config = .ok report) :
    (∀ x ∈ report.replications, ∀ y ∈ report.replications, x.cohort = y.cohort →
      x.scenario ∈ plainScenarios → y.scenario ∈ plainScenarios →
        SameOutcome x y ∧ totalVariation x.strategyWeights y.strategyWeights = 0) ∧
      (∀ row ∈ report.replications, row.hardwarePairTauB = none ∨ row.hardwarePairTauB = some 1) ∧
      (report.summary.hardwareRankStabilityTauB = none ∨
        report.summary.hardwareRankStabilityTauB = some 1) := by
  obtain ⟨benchmark, policy, rows, outcomes, compiled⟩ := compiled_of_ok h
  have origin : ∀ row ∈ report.replications, ∃ scored ∈ rows, ∃ values tau,
      (tau = none ∨ tau = some 1) ∧ row = comparedRow values tau scored := by
    intro row hrow
    rw [compiled.replications] at hrow
    obtain ⟨outcome, houtcome, hrow⟩ := List.mem_flatMap.mp hrow
    obtain ⟨g, hg, compared⟩ := exists_of_forall₂ compiled.compared houtcome
    obtain ⟨tau, htau, he⟩ := bind_ok compared
    cases he
    obtain ⟨scored, hscored, rfl⟩ := List.mem_map.mp hrow
    rw [(mem_groupBy.mp hg).2] at hscored
    exact ⟨scored, (mem_under.mp hscored).1, g.2, tau, hardwarePair_eq compiled hg htau, rfl⟩
  refine ⟨fun x hx y hy cohort plain plain' => ?_, fun row hrow => ?_, ?_⟩
  · obtain ⟨a, ha, values, tau, -, rfl⟩ := origin x hx
    obtain ⟨b, hb, values', tau', -, rfl⟩ := origin y hy
    obtain ⟨planned, reason, winner, category, invalid, pairs, concentration, rank, shares, gains,
      weights, strategyWeights, rewards, aggregates⟩ :=
      sameOutcome_of_mem compiled ha hb cohort plain plain'
    refine ⟨⟨planned, reason, winner, category, invalid, pairs, concentration, rank, shares, gains,
      weights, strategyWeights, rewards, aggregates⟩, ?_⟩
    have same : (comparedRow values tau a).strategyWeights =
        (comparedRow values' tau' b).strategyWeights := strategyWeights
    rw [same, totalVariation, List.sum_eq_zero, mul_zero]
    intro x hx
    obtain ⟨key, -, rfl⟩ := List.mem_map.mp hx
    rw [sub_self, abs_zero]
  · obtain ⟨scored, -, values, tau, one, rfl⟩ := origin row hrow
    unfold comparedRow
    dsimp only
    split_ifs
    · exact one
    · exact .inl rfl
  · rw [compiled.summary]
    change meanOf (outcomes.filterMap CohortOutcome.hardwareTau) = none ∨
      meanOf (outcomes.filterMap CohortOutcome.hardwareTau) = some 1
    by_cases empty : outcomes.filterMap CohortOutcome.hardwareTau = []
    · exact .inl (if_pos empty)
    · refine .inr ((if_neg empty).trans (congrArg some (mean_eq_one empty fun x hx => ?_)))
      obtain ⟨outcome, houtcome, htau⟩ := List.mem_filterMap.mp hx
      obtain ⟨g, hg, compared⟩ := exists_of_forall₂ compiled.compared houtcome
      obtain ⟨tau, hpair, he⟩ := bind_ok compared
      cases he
      rcases hardwarePair_eq compiled hg hpair with rfl | rfl
      · cases htau
      · exact (Option.some.inj htau).symm

theorem report_indifferent_defaults : ∃ report,
    runMechanismSimulation stillPlatform defaults = .ok report ∧
      (∀ x ∈ report.replications, ∀ y ∈ report.replications, x.cohort = y.cohort →
        x.scenario ∈ plainScenarios → y.scenario ∈ plainScenarios →
          SameOutcome x y ∧ totalVariation x.strategyWeights y.strategyWeights = 0) ∧
      (∀ row ∈ report.replications, row.hardwarePairTauB = none ∨ row.hardwarePairTauB = some 1) ∧
      (report.summary.hardwareRankStabilityTauB = none ∨
        report.summary.hardwareRankStabilityTauB = some 1) := by
  obtain ⟨report, h⟩ := exists_defaultReport
  exact ⟨report, h, report_indifferent h⟩

end Reports

end SimulationPairing
