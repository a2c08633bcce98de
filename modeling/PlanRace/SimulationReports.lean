import PlanRace.SimulatedRows

/-!
# The reports of the simulation

A simulation of enough epochs, over a schedule of distinct tasks, ends in a
report from every state of the generator, and its rows are safe: no false
acceptance, no weight for a gaming profile, no gain from an exact copy, and no
update where everybody fails.
-/

namespace SimulationReports

open JsonText Grouping ScoringV2 BenchmarkScoring RankAgreement Draws MechanismSimulation
  SimulatedEvaluations SimulatedEpochs SimulatedNetwork SimulatedRows Fallible

section Policies

variable {config : SimulationConfig}

theorem checked_ok_iff {α : Type} {valid : Prop} [Decidable valid] {value : valid → α} {a : α} :
    checked valid value = .ok a ↔ ∃ h, value h = a := by
  unfold checked
  split_ifs with h
  · exact ⟨fun he => ⟨h, Except.ok.inj he⟩, fun ⟨_, he⟩ => congrArg Except.ok he⟩
  · exact ⟨fun he => absurd he (by simp), fun ⟨known, _⟩ => absurd known h⟩

theorem exists_benchmarkPolicy (config : SimulationConfig) :
    ∃ policy, benchmarkPolicy (K := ℝ) config = .ok policy ∧ policy.horizonWeights.sum ≤ 1 := by
  have sum : ([15 / 100, 25 / 100, 30 / 100, 30 / 100] : List ℝ).sum = 1 := by norm_num
  refine ⟨_, checked_ok_iff.mpr ⟨⟨?_, ?_, ?_, ?_, ?_, ?_⟩, rfl⟩, sum.le⟩
  · rw [sum]
    norm_num
  · norm_num
  · norm_num
  · norm_num
  · norm_num
  · norm_num

theorem families_quota {epochs : Nat} (enough : 12 ≤ epochs) : ∀ family ∈ workloadFamilies,
    2 ≤ ((simulationTaskSchedule epochs).map ScheduledTask.family).count family := by
  obtain ⟨more, rfl⟩ := Nat.exists_eq_add_of_le enough
  have first : ∀ family ∈ workloadFamilies, 2 ≤ ((List.range 12).map taskFamily).count family := by
    decide
  intro family hfamily
  have split : (simulationTaskSchedule (12 + more)).map ScheduledTask.family =
      (List.range 12).map taskFamily ++ ((List.range more).map (12 + ·)).map taskFamily := by
    rw [simulationTaskSchedule, List.map_map, List.range_add, List.map_append]
    rfl
  rw [split, List.count_append]
  exact (first family hfamily).trans (Nat.le_add_right _ _)

/-- The aggregation policy of a configuration passes its checks exactly with
twelve epochs and distinct tasks. -/
theorem aggregationPolicy_ok_iff : (∃ policy, aggregationPolicy (K := ℝ) config = .ok policy) ↔
    12 ≤ config.epochs ∧ DistinctTasks config.epochs := by
  have length : (simulationTaskSchedule config.epochs).length = config.epochs := by
    rw [simulationTaskSchedule, List.length_map, List.length_range]
  have ids : (simulationTaskSchedule config.epochs).map ScheduledTask.taskId =
      (List.range config.epochs).map fun epoch => (scheduledTask epoch).taskId := List.map_map
  constructor
  · rintro ⟨policy, h⟩
    obtain ⟨⟨distinct, room, -⟩, -⟩ := checked_ok_iff.mp h
    rw [ids] at distinct
    refine ⟨?_, distinct.1⟩
    have quota := room.1
    omega
  · rintro ⟨enough, distinct⟩
    have commitments : ((simulationTaskSchedule config.epochs).map
        ScheduledTask.taskCommitment).Nodup := by
      rw [simulationTaskSchedule, List.map_map]
      refine (List.nodup_map_iff_inj_on List.nodup_range).mpr fun e he e' he' same => ?_
      exact taskId_injOn distinct (List.mem_range.mp he) (List.mem_range.mp he')
        (taskId_of_commitment same)
    have epochs : (simulationTaskSchedule config.epochs).map ScheduledTask.epoch =
        List.range config.epochs := by
      rw [simulationTaskSchedule, List.map_map]
      exact List.map_id _
    refine ⟨_, checked_ok_iff.mpr ⟨⟨⟨?_, commitments, ?_⟩, ⟨?_, ?_⟩, families_quota enough, ?_⟩, rfl⟩⟩
    · rw [ids]
      exact distinct
    · rw [epochs]
      exact List.nodup_range
    · omega
    · have families : workloadFamilies.length = 4 := rfl
      omega
    · norm_num

theorem taskSchedule_of_ok {policy : AggregationPolicy ℝ}
    (h : aggregationPolicy config = .ok policy) :
    policy.taskSchedule = simulationTaskSchedule config.epochs := by
  obtain ⟨valid, rfl⟩ := checked_ok_iff.mp h
  rfl

end Policies

section Runs

variable {S : Type} {platform : Platform ℝ S} {config : SimulationConfig}

/-- The observations of a replication, before they are scored. -/
noncomputable def recordOf (platform : Platform ℝ S) (config : SimulationConfig)
    (replication : Nat) : Except SimulationError (List (EpochObservation ℝ)) := do
  let benchmark ← benchmarkPolicy config
  let scenario ← scenarioAt replication
  let cohort := cohortOf ℝ replication
  let (progress, _) ← runEpochs platform benchmark config cohort scenario
    (seedOf platform.source config cohort)
  return progress.observations

/-- The answered evaluations of a replication. -/
noncomputable def answered (platform : Platform ℝ S) (config : SimulationConfig)
    (replication : Nat) : Nat :=
  match recordOf platform config replication with
  | .ok observations => answeredEvaluations observations
  | .error _ => 0

/-- The row of a replication, with the run it was scored from. -/
structure RowAt (platform : Platform ℝ S) (config : SimulationConfig) (replication : Nat)
    (row : ReplicationRow ℝ) : Prop where
  place : row.replication = replication
  cohort : row.cohort = cohortOf ℝ replication
  run : ∃ scenario progress, scenarioAt replication = .ok scenario ∧
    Accounted scenario config.trialsPerTask (config.epochs * 19) config.epochs
      (answered platform config replication) progress.counters ∧
    RowOk scenario config.trialsPerTask config.epochs progress row

theorem exists_scenario (replication : Nat) :
    ∃ scenario ∈ (validatorScenarios : List (ValidatorScenario ℝ)),
      scenarioAt replication = .ok scenario := by
  have inside : replication % (validatorScenarios (K := ℝ)).length <
      (validatorScenarios (K := ℝ)).length := Nat.mod_lt _ (by decide)
  refine ⟨_, List.getElem_mem inside, ?_⟩
  rw [scenarioAt, List.getElem?_eq_getElem inside]

variable (platform) in
/-- Every replication ends in its row. -/
theorem exists_rowAt {benchmark : BenchmarkPolicy ℝ} {policy : AggregationPolicy ℝ}
    (chosen : benchmarkPolicy config = .ok benchmark)
    (weights : benchmark.horizonWeights.sum ≤ 1) (distinct : DistinctTasks config.epochs)
    (schedule : policy.taskSchedule = simulationTaskSchedule config.epochs) (replication : Nat) :
    ∃ row, runReplication platform benchmark policy config replication = .ok row ∧
      RowAt platform config replication row := by
  obtain ⟨scenario, hscenario, hat⟩ := exists_scenario replication
  obtain ⟨progress, s, hrun, journal, replicated⟩ := ensures_runEpochs platform
    weights (usable_of_mem hscenario) config (cohortOf ℝ replication)
    (seedOf platform.source config (cohortOf ℝ replication))
  obtain ⟨row, hrow, place, cohort, ok⟩ := exists_row distinct replicated schedule replication
    (cohortOf ℝ replication)
  refine ⟨row, bind_ok_iff.mpr ⟨scenario, hat, bind_ok_iff.mpr ⟨_, hrun, hrow⟩⟩, place, cohort,
    scenario, progress, hat, ?_, ok⟩
  have record : recordOf platform config replication = .ok progress.observations :=
    bind_ok_iff.mpr ⟨benchmark, chosen, bind_ok_iff.mpr ⟨scenario, hat,
      bind_ok_iff.mpr ⟨_, hrun, rfl⟩⟩⟩
  have counted := replicated.counted
  rw [← answeredEvaluations_eq distinct replicated, List.length_range] at counted
  rwa [answered, record]

/-- Rows of one cohort can be compared. -/
theorem exists_compareCohort {values : List (ReplicationRow ℝ)}
    (rewards : ∀ row ∈ values, Dict.keys row.aggregateRewards = minerIds (K := ℝ)) :
    ∃ tau, hardwarePair values = .ok tau ∧
      compareCohort values = .ok ⟨values.map (comparedRow values tau), pairDisagreements values, tau⟩ := by
  have mem : ∀ {name row}, rowOf values name = some row → row ∈ values := fun h =>
    List.mem_reverse.mp (List.mem_of_find?_eq_some h)
  obtain ⟨tau, htau⟩ : ∃ tau, hardwarePair values = .ok tau := by
    unfold hardwarePair
    cases fast : rowOf values "fast-worker".toList with
    | none => exact ⟨none, rfl⟩
    | some first =>
      cases slow : rowOf values "slow-worker".toList with
      | none => exact ⟨none, rfl⟩
      | some second =>
        obtain ⟨tau, htau⟩ := exists_tau (rewards first (mem fast)) (rewards second (mem slow))
        dsimp only
        rw [htau]
        split_ifs
        · exact ⟨_, rfl⟩
        · exact ⟨_, rfl⟩
  exact ⟨tau, htau, bind_ok_iff.mpr ⟨tau, htau, rfl⟩⟩

/-- What a report is made of. -/
structure Reported (platform : Platform ℝ S) (config : SimulationConfig)
    (report : SimulationReport ℝ) (rows : List (ReplicationRow ℝ))
    (outcomes : List (CohortOutcome ℝ)) : Prop where
  enough : 12 ≤ config.epochs
  distinct : DistinctTasks config.epochs
  scored : List.Forall₂ (RowAt platform config) (List.range config.replications) rows
  compared : List.Forall₂ (fun g outcome => compareCohort g.2 = .ok outcome)
    (groupBy ReplicationRow.cohort rows) outcomes
  summary : report.summary = summarize config outcomes
  replications : report.replications = outcomes.flatMap CohortOutcome.rows

variable (platform) in
theorem exists_report (enough : 12 ≤ config.epochs) (distinct : DistinctTasks config.epochs) :
    ∃ report rows outcomes, runMechanismSimulation platform config = .ok report ∧
      Reported platform config report rows outcomes := by
  obtain ⟨benchmark, hbenchmark, weights⟩ := exists_benchmarkPolicy config
  obtain ⟨policy, hpolicy⟩ := aggregationPolicy_ok_iff.mpr ⟨enough, distinct⟩
  have row := exists_rowAt platform hbenchmark weights distinct (taskSchedule_of_ok hpolicy)
  obtain ⟨rows, hrows, -⟩ : ∃ rows, (List.range config.replications).mapM
      (runReplication platform benchmark policy config) = .ok rows ∧ ∀ row ∈ rows, True :=
    exists_mapM fun replication _ => by
      obtain ⟨made, hmade, -⟩ := row replication
      exact ⟨made, hmade, trivial⟩
  have related : List.Forall₂ (RowAt platform config) (List.range config.replications) rows := by
    refine (mapM_ok_iff.mp hrows).imp fun replication made hmade => ?_
    obtain ⟨other, hother, ok⟩ := row replication
    rwa [← Except.ok.inj (hmade.symm.trans hother)] at ok
  have rewards : ∀ g ∈ groupBy ReplicationRow.cohort rows, ∀ r ∈ g.2,
      Dict.keys r.aggregateRewards = minerIds (K := ℝ) := by
    intro g hg r hr
    rw [(mem_groupBy.mp hg).2] at hr
    obtain ⟨replication, -, at_⟩ := exists_of_forall₂ related (mem_under.mp hr).1
    obtain ⟨_, _, -, -, ok⟩ := at_.run
    exact ok.rewards
  obtain ⟨outcomes, houtcomes, -⟩ : ∃ outcomes, (groupBy ReplicationRow.cohort rows).mapM
      (fun g => compareCohort g.2) = .ok outcomes ∧ ∀ outcome ∈ outcomes, True :=
    exists_mapM fun g hg => by
      obtain ⟨tau, -, compared⟩ := exists_compareCohort (rewards g hg)
      exact ⟨_, compared, trivial⟩
  refine ⟨⟨config, benchmark, policy, summarize config outcomes,
    outcomes.flatMap CohortOutcome.rows⟩, rows, outcomes, ?_, enough, distinct, related,
    mapM_ok_iff.mp houtcomes, rfl, rfl⟩
  refine bind_ok_iff.mpr ⟨benchmark, hbenchmark, bind_ok_iff.mpr ⟨policy, hpolicy, ?_⟩⟩
  rw [sharedCharacteristics_profiles]
  exact bind_ok_iff.mpr ⟨rows, hrows, bind_ok_iff.mpr ⟨outcomes, houtcomes, rfl⟩⟩

theorem enough_of_ok {report : SimulationReport ℝ}
    (h : runMechanismSimulation platform config = .ok report) :
    12 ≤ config.epochs ∧ DistinctTasks config.epochs := by
  obtain ⟨benchmark, -, h⟩ := bind_ok h
  obtain ⟨policy, hpolicy, -⟩ := bind_ok h
  exact aggregationPolicy_ok_iff.mp ⟨policy, hpolicy⟩

/-- A simulation reports exactly when it has twelve epochs and distinct tasks. -/
theorem runMechanismSimulation_ok_iff (platform : Platform ℝ S) (config : SimulationConfig) :
    (∃ report, runMechanismSimulation platform config = .ok report) ↔
      12 ≤ config.epochs ∧ DistinctTasks config.epochs := by
  constructor
  · rintro ⟨report, h⟩
    exact enough_of_ok h
  · rintro ⟨enough, distinct⟩
    obtain ⟨report, rows, outcomes, h, -⟩ := exists_report platform enough distinct
    exact ⟨report, h⟩

/-- A generator that only draws means. -/
noncomputable def stillPlatform : Platform ℝ Unit where
  source :=
    { seeded := fun _ => ()
      random := fun _ => (1 / 2, ())
      randrange := fun start _ _ => (start, ())
      choice := fun _ _ => (0, ())
      gauss := fun mu _ _ => (mu, ())
      random_mem := fun _ => ⟨one_half_pos.le, one_half_lt_one⟩
      randrange_mem := fun start _ _ some => ⟨le_refl start, some⟩
      choice_lt := fun _ _ some => some }
  floatText := fun _ => "0.5".toList

theorem defaults_positive : 1 ≤ 512 ∧ 1 ≤ 24 ∧ 2 ≤ 10 := by decide

/-- The configuration that is run by default. -/
def defaults : SimulationConfig := { positive := defaults_positive }

theorem distinctTasks_defaults : DistinctTasks 24 := by
  unfold DistinctTasks
  decide +kernel

theorem exists_defaultReport : ∃ report, runMechanismSimulation stillPlatform defaults = .ok report := by
  have enough : 12 ≤ defaults.epochs := by decide
  obtain ⟨report, rows, outcomes, h, -⟩ := exists_report stillPlatform enough
    distinctTasks_defaults
  exact ⟨report, h⟩

/-- A report is one that the lemmas on reports describe. -/
theorem reported_of_ok {report : SimulationReport ℝ}
    (h : runMechanismSimulation platform config = .ok report) :
    ∃ rows outcomes, Reported platform config report rows outcomes := by
  obtain ⟨enough, distinct⟩ := enough_of_ok h
  obtain ⟨other, rows, outcomes, hother, reported⟩ :=
    exists_report platform enough distinct
  obtain rfl := Except.ok.inj (h.symm.trans hother)
  exact ⟨rows, outcomes, reported⟩

/-- The comparison of cohorts keeps the rows, up to what it adds to them. -/
theorem replications_perm {report : SimulationReport ℝ} {rows : List (ReplicationRow ℝ)}
    {outcomes : List (CohortOutcome ℝ)} (h : Reported platform config report rows outcomes) {α : Type}
    (f : ReplicationRow ℝ → α) (frame : ∀ values tau row, f (comparedRow values tau row) = f row) :
    (report.replications.map f).Perm (rows.map f) := by
  have groups : report.replications.map f =
      ((groupBy ReplicationRow.cohort rows).flatMap Prod.snd).map f := by
    rw [h.replications, List.map_flatMap, List.map_flatMap]
    refine congrArg List.flatten (map_eq_map_of_forall₂ h.compared fun g outcome compared => ?_).symm
    obtain ⟨tau, -, he⟩ := bind_ok compared
    cases he
    rw [List.map_map]
    exact List.map_congr_left fun row _ => (frame g.2 tau row).symm
  rw [groups]
  exact (flatMap_groupBy_perm _ _).map f

/-- Every reported row is a scored one with the comparison added. -/
theorem exists_compared {report : SimulationReport ℝ} {rows : List (ReplicationRow ℝ)}
    {outcomes : List (CohortOutcome ℝ)} (h : Reported platform config report rows outcomes)
    {row : ReplicationRow ℝ} (hrow : row ∈ report.replications) :
    ∃ replication < config.replications, ∃ scored values tau, RowAt platform config replication scored ∧
      row = comparedRow values tau scored := by
  rw [h.replications] at hrow
  obtain ⟨outcome, houtcome, hrow⟩ := List.mem_flatMap.mp hrow
  obtain ⟨g, hg, compared⟩ := exists_of_forall₂ h.compared houtcome
  obtain ⟨tau, -, he⟩ := bind_ok compared
  cases he
  obtain ⟨scored, hscored, rfl⟩ := List.mem_map.mp hrow
  rw [(mem_groupBy.mp hg).2] at hscored
  obtain ⟨replication, inside, at_⟩ := exists_of_forall₂ h.scored (mem_under.mp hscored).1
  exact ⟨replication, List.mem_range.mp inside, scored, g.2, tau, at_, rfl⟩

end Runs

section Safety

variable {S : Type} {platform : Platform ℝ S} {config : SimulationConfig}

/-- What is safe about a row. -/
structure RowSafe (row : ReplicationRow ℝ) : Prop where
  accepted : row.counters.falseAcceptances = 0
  acceptedInjected : row.counters.acceptedInjectedFalseClaims = 0
  gaming : row.gamingWeight = 0
  winner : row.winnerCategory ≠ some .gaming
  total : row.honestWeight + row.sybilWeight = if row.planned then 1 else 0
  copies : row.sybilStrategyAllocationGain = if row.planned then some 0 else none
  failing : row.scenario = "all-fail".toList →
    row.planned = false ∧ row.weights = [] ∧ row.safeNoUpdate = true

theorem allFail_of_id : ∀ s ∈ (validatorScenarios (K := ℝ)).map
    fun scenario => (scenario.scenarioId, scenario.allFail), s.1 = "all-fail".toList → s.2 = true := by
  decide

theorem scenarioAt_mem {replication : Nat} {scenario : ValidatorScenario ℝ}
    (h : scenarioAt replication = .ok scenario) : scenario ∈ (validatorScenarios (K := ℝ)) := by
  obtain ⟨other, hother, hat⟩ := exists_scenario replication
  rwa [Except.ok.inj (h.symm.trans hat)]

theorem rowSafe_of_rowAt {replication : Nat} {row : ReplicationRow ℝ}
    (h : RowAt platform config replication row) : RowSafe row := by
  obtain ⟨scenario, progress, hat, accounted, ok⟩ := h.run
  have total := ok.total
  rw [ok.gaming, add_zero] at total
  refine ⟨?_, ?_, ok.gaming, ok.winner, total, ok.copies, fun id => ?_⟩
  · rw [ok.counters, accounted.accepted]
  · rw [ok.counters, accounted.acceptedInjected]
  · have fail : scenario.allFail = true := allFail_of_id _ (List.mem_map_of_mem (scenarioAt_mem hat))
      (ok.named.symm.trans id)
    obtain ⟨unplanned, none⟩ := ok.failing fail
    exact ⟨unplanned, none, ok.safe.trans fail⟩

/-- The figures of a summary that are the same in every run. -/
structure SummarySafe (config : SimulationConfig) (summary : SimulationSummary ℝ) : Prop where
  accepted : summary.falseAcceptances = 0 ∧ summary.falseAcceptanceRate = 0
  acceptedInjected : summary.acceptedInjectedFalseClaims = 0
  gaming : summary.meanGamingWeight = 0
  shares : summary.meanHonestWeight + summary.meanSybilWeight ≤ 1
  copies : ∀ gain ∈ [summary.sybilStrategyAllocationGain, summary.meanSybilStrategyAllocationGain,
    summary.maxAbsSybilStrategyAllocationGain], gain = none ∨ gain = some 0
  scenarios : ∀ metrics ∈ summary.scenarioMetrics, metrics.2.falseAcceptanceRate = 0 ∧
    metrics.2.meanGamingWeight = 0 ∧ metrics.2.acceptedInjectedFalseClaims = 0
  failing : 8 ≤ config.replications → summary.allFailSafeNoUpdateRate = 1

theorem mean_eq_zero {values : List ℝ} (h : ∀ x ∈ values, x = 0) : mean values = 0 := by
  unfold mean
  split_ifs
  · rfl
  · rw [List.sum_eq_zero h, zero_div]

theorem mean_eq_one {values : List ℝ} (nonempty : values ≠ []) (h : ∀ x ∈ values, x = 1) :
    mean values = 1 := by
  have sum : values.sum = values.length := by
    rw [List.eq_replicate_of_mem h]
    simp
  have positive : (values.length : ℝ) ≠ 0 := by
    simpa using nonempty
  rw [mean, if_neg nonempty, sum, div_self positive]

theorem mean_add_le_one {α : Type} {f g : α → ℝ} {items : List α} (h : ∀ x ∈ items, f x + g x ≤ 1) :
    mean (items.map f) + mean (items.map g) ≤ 1 := by
  cases items with
  | nil => simp [mean]
  | cons x rest =>
    have sums : ((x :: rest).map f).sum + ((x :: rest).map g).sum ≤ (x :: rest).length := by
      generalize x :: rest = items at h
      induction items with
      | nil => simp
      | cons y rest ih =>
        have first := h y List.mem_cons_self
        have later := ih fun z hz => h z (List.mem_cons_of_mem _ hz)
        simp only [List.map_cons, List.sum_cons, List.length_cons, Nat.cast_add, Nat.cast_one]
        linarith
    have positive : (0 : ℝ) < (x :: rest).length := by
      rw [List.length_cons]
      positivity
    rw [mean, mean, if_neg (by simp), if_neg (by simp), List.length_map, List.length_map, ← add_div]
    exact (div_le_one positive).mpr sums

theorem total_eq_zero {rows : List (ReplicationRow ℝ)} {count : Counters → Nat}
    (h : ∀ row ∈ rows, count row.counters = 0) : total rows count = 0 :=
  List.sum_eq_zero fun n hn => by
    obtain ⟨row, hrow, rfl⟩ := List.mem_map.mp hn
    exact h row hrow

/-- The greatest of values that are all zero. -/
theorem maxOf_zeros {values : List ℝ} (h : ∀ x ∈ values, x = 0) :
    maxOf values = none ∨ maxOf values = some 0 := by
  cases values with
  | nil => exact .inl rfl
  | cons x rest =>
    right
    have zeros : rest.foldl max x = 0 := by
      rw [h x List.mem_cons_self]
      have later := fun y hy => h y (List.mem_cons_of_mem x hy)
      clear h
      induction rest with
      | nil => rfl
      | cons y rest ih =>
        rw [List.foldl_cons, later y List.mem_cons_self, max_self]
        exact ih fun z hz => later z (List.mem_cons_of_mem _ hz)
    exact congrArg some zeros

theorem meanOf_zeros {values : List ℝ} (h : ∀ x ∈ values, x = 0) :
    meanOf values = none ∨ meanOf values = some 0 := by
  unfold meanOf
  split_ifs
  · exact .inl rfl
  · exact .inr (congrArg some (mean_eq_zero h))

theorem scenarioMetrics_safe {values : List (ReplicationRow ℝ)}
    (safe : ∀ row ∈ values, RowSafe row) :
    (scenarioMetrics values).falseAcceptanceRate = 0 ∧ (scenarioMetrics values).meanGamingWeight = 0 ∧
      (scenarioMetrics values).acceptedInjectedFalseClaims = 0 := by
  refine ⟨?_, ?_, total_eq_zero fun row hrow => (safe row hrow).acceptedInjected⟩
  · change (total values Counters.falseAcceptances : ℝ) / _ = 0
    rw [total_eq_zero fun row hrow => (safe row hrow).accepted, Nat.cast_zero, zero_div]
  · refine mean_eq_zero fun x hx => ?_
    obtain ⟨row, hrow, rfl⟩ := List.mem_map.mp hx
    exact (safe row hrow).gaming

/-- Safe rows make a safe summary. -/
theorem summarize_safe {outcomes : List (CohortOutcome ℝ)}
    (safe : ∀ row ∈ outcomes.flatMap CohortOutcome.rows, RowSafe row)
    (failing : 8 ≤ config.replications →
      ∃ row ∈ outcomes.flatMap CohortOutcome.rows, row.scenario = "all-fail".toList) :
    SummarySafe config (summarize config outcomes) := by
  have gains : ∀ x ∈ ((outcomes.flatMap CohortOutcome.rows).filter
      fun row => row.scenario ≠ "all-fail".toList).filterMap
        ReplicationRow.sybilStrategyAllocationGain, x = 0 := by
    intro x hx
    obtain ⟨row, hrow, gain⟩ := List.mem_filterMap.mp hx
    rw [(safe row (List.mem_filter.mp hrow).1).copies] at gain
    split_ifs at gain
    exact (Option.some.inj gain).symm
  refine ⟨⟨total_eq_zero fun row hrow => (safe row hrow).accepted, ?_⟩,
    total_eq_zero fun row hrow => (safe row hrow).acceptedInjected, ?_, ?_, ?_, ?_, fun many => ?_⟩
  · change (total (outcomes.flatMap CohortOutcome.rows) Counters.falseAcceptances : ℝ) / _ = 0
    rw [total_eq_zero fun row hrow => (safe row hrow).accepted, Nat.cast_zero, zero_div]
  · refine mean_eq_zero fun x hx => ?_
    obtain ⟨row, hrow, rfl⟩ := List.mem_map.mp hx
    exact (safe row (List.mem_filter.mp hrow).1).gaming
  · refine mean_add_le_one fun row hrow => ?_
    rw [(safe row (List.mem_filter.mp hrow).1).total]
    split_ifs <;> norm_num
  · intro gain hgain
    simp only [List.mem_cons, List.not_mem_nil, or_false] at hgain
    rcases hgain with rfl | rfl | rfl
    · exact maxOf_zeros gains
    · exact meanOf_zeros gains
    · refine maxOf_zeros fun x hx => ?_
      obtain ⟨y, hy, rfl⟩ := List.mem_map.mp hx
      rw [gains y hy, abs_zero]
  · intro metrics hmetrics
    obtain ⟨g, hg, rfl⟩ := List.mem_map.mp (LexOrder.mem_sortBy.mp hmetrics)
    refine scenarioMetrics_safe fun row hrow => safe row ?_
    rw [(mem_groupBy.mp hg).2] at hrow
    exact (mem_under.mp hrow).1
  · obtain ⟨row, hrow, id⟩ := failing many
    have member : row ∈ (outcomes.flatMap CohortOutcome.rows).filter
        fun row => row.scenario = "all-fail".toList := List.mem_filter.mpr ⟨hrow, decide_eq_true id⟩
    refine mean_eq_one (fun he => ?_) fun x hx => ?_
    · rw [List.map_eq_nil_iff] at he
      exact absurd member (he ▸ List.not_mem_nil)
    · obtain ⟨r, hr, rfl⟩ := List.mem_map.mp hx
      obtain ⟨hin, hid⟩ := List.mem_filter.mp hr
      rw [((safe r hin).failing (of_decide_eq_true hid)).2.2]
      rfl

/-- Whatever is drawn, in exact real arithmetic no simulation accepts a wrong
answer, weighs a gaming profile, rewards an exact copy or updates where
everybody fails. -/
theorem report_safe {report : SimulationReport ℝ}
    (h : runMechanismSimulation platform config = .ok report) :
    (∀ row ∈ report.replications, RowSafe row) ∧ SummarySafe config report.summary := by
  obtain ⟨rows, outcomes, reported⟩ := reported_of_ok h
  have safe : ∀ row ∈ report.replications, RowSafe row := by
    intro row hrow
    obtain ⟨replication, -, scored, values, tau, at_, rfl⟩ := exists_compared reported hrow
    obtain ⟨accepted, injected, gaming, winner, total, copies, failing⟩ := rowSafe_of_rowAt at_
    exact ⟨accepted, injected, gaming, winner, total, copies, failing⟩
  refine ⟨safe, ?_⟩
  rw [reported.summary]
  rw [reported.replications] at safe
  refine summarize_safe safe fun many => ?_
  obtain ⟨row, hrow, at_⟩ := exists_of_forall₂ reported.scored.flip
    (List.mem_range.mpr (Nat.lt_of_lt_of_le (by decide : 7 < 8) many))
  obtain ⟨scenario, progress, hat, -, ok⟩ := at_.run
  have named : scenario.scenarioId = "all-fail".toList := by
    have last : scenarioAt 7 = .ok (validatorScenarios (K := ℝ))[7] := rfl
    rw [Except.ok.inj (hat.symm.trans last)]
    rfl
  have kept := (replications_perm reported ReplicationRow.scenario fun _ _ _ => rfl).mem_iff.mpr
    (List.mem_map_of_mem hrow)
  rw [reported.replications] at kept
  obtain ⟨other, hother, same⟩ := List.mem_map.mp kept
  exact ⟨other, hother, same.trans (ok.named.trans named)⟩

theorem report_safe_defaults : ∃ report, runMechanismSimulation stillPlatform defaults = .ok report ∧
    (∀ row ∈ report.replications, RowSafe row) ∧ SummarySafe defaults report.summary := by
  obtain ⟨report, h⟩ := exists_defaultReport
  exact ⟨report, h, report_safe h⟩

end Safety

section Accounts

variable {S : Type} {platform : Platform ℝ S} {config : SimulationConfig}

/-- What the counters of a report come to. -/
structure Accounts (platform : Platform ℝ S) (config : SimulationConfig)
    (report : SimulationReport ℝ) : Prop where
  rows : (report.replications.map ReplicationRow.replication).Perm (List.range config.replications)
  evaluations : report.summary.strategyEvaluations =
    config.replications * (config.epochs * report.summary.exactStrategyCount)
  recorded : report.summary.strategyEvaluations + report.summary.duplicateEvaluationCacheHits =
    config.replications * (config.epochs * report.summary.minerProfileCount)
  measured : report.summary.measuredTrialPairs =
    ((List.range config.replications).map (answered platform config)).sum * config.trialsPerTask
  invalid : report.summary.invalidAttempts ≤
    ((List.range config.replications).map (answered platform config)).sum
  few : ((List.range config.replications).map (answered platform config)).sum ≤
    report.summary.strategyEvaluations
  injected : report.summary.injectedFalseClaims = total
    (report.replications.filter fun row => row.scenario = "false-accept-claim".toList)
    Counters.invalidAttempts

theorem claim_of_id : ∀ s ∈ (validatorScenarios (K := ℝ)).map
    fun scenario => (scenario.scenarioId, scenario.falseAcceptClaim),
      s.2 = decide (s.1 = "false-accept-claim".toList) := by
  decide

/-- The counters of one reported row. -/
structure RowAccounts (platform : Platform ℝ S) (config : SimulationConfig)
    (row : ReplicationRow ℝ) : Prop where
  evaluations : row.counters.strategyEvaluations = config.epochs * 19
  hits : row.counters.duplicateCacheHits = config.epochs
  injected : row.counters.injectedFalseClaims =
    if row.scenario = "false-accept-claim".toList then row.counters.invalidAttempts else 0
  measured : row.counters.trialPairs =
    answered platform config row.replication * config.trialsPerTask
  invalid : row.counters.invalidAttempts ≤ answered platform config row.replication
  few : answered platform config row.replication ≤ row.counters.strategyEvaluations

theorem rowAccounts_of_rowAt {replication : Nat} {row : ReplicationRow ℝ}
    (h : RowAt platform config replication row) : RowAccounts platform config row := by
  obtain ⟨scenario, progress, hat, accounted, ok⟩ := h.run
  have claim := claim_of_id _ (List.mem_map_of_mem (scenarioAt_mem hat))
  refine ⟨?_, ?_, ?_, ?_, ?_, ?_⟩
  · rw [ok.counters, accounted.evaluated]
  · rw [ok.counters, accounted.remembered]
  · rw [ok.counters, accounted.injected, ok.named]
    dsimp only at claim
    rw [claim]
    by_cases own : scenario.scenarioId = "false-accept-claim".toList
    · rw [if_pos (decide_eq_true own), if_pos own]
    · rw [if_neg fun he => own (of_decide_eq_true he), if_neg own]
  · rw [ok.counters, accounted.pairs, h.place]
  · rw [ok.counters, h.place]
    exact accounted.wrong
  · rw [ok.counters, accounted.evaluated, h.place]
    exact accounted.few

theorem total_cons (row : ReplicationRow ℝ) (rows : List (ReplicationRow ℝ))
    (count : Counters → Nat) : total (row :: rows) count = count row.counters + total rows count :=
  List.sum_cons

/-- The accounts of rows add up. -/
theorem accounts_of_rows {rows : List (ReplicationRow ℝ)}
    (h : ∀ row ∈ rows, RowAccounts platform config row) :
    total rows Counters.strategyEvaluations = rows.length * (config.epochs * 19) ∧
      total rows Counters.duplicateCacheHits = rows.length * config.epochs ∧
      total rows Counters.trialPairs =
        (rows.map fun row => answered platform config row.replication).sum * config.trialsPerTask ∧
      total rows Counters.invalidAttempts ≤
        (rows.map fun row => answered platform config row.replication).sum ∧
      (rows.map fun row => answered platform config row.replication).sum ≤
        total rows Counters.strategyEvaluations ∧
      total rows Counters.injectedFalseClaims = total
        (rows.filter fun row => row.scenario = "false-accept-claim".toList)
        Counters.invalidAttempts := by
  induction rows with
  | nil => exact ⟨(Nat.zero_mul _).symm, (Nat.zero_mul _).symm, (Nat.zero_mul _).symm,
      le_refl 0, le_refl 0, rfl⟩
  | cons row rest ih =>
    obtain ⟨evaluations, hits, pairs, invalid, few, injected⟩ :=
      ih fun r hr => h r (List.mem_cons_of_mem _ hr)
    obtain ⟨own, ownHits, ownInjected, ownPairs, ownInvalid, ownFew⟩ :=
      h row List.mem_cons_self
    simp only [total_cons, List.length_cons, List.map_cons, List.sum_cons, Nat.add_mul, Nat.one_mul]
    refine ⟨?_, ?_, ?_, ?_, ?_, ?_⟩
    · rw [own, evaluations, Nat.add_comm]
    · rw [ownHits, hits, Nat.add_comm]
    · rw [ownPairs, pairs]
    · exact Nat.add_le_add ownInvalid invalid
    · exact Nat.add_le_add ownFew few
    · rw [ownInjected, injected, List.filter_cons]
      split_ifs with own claimed claimed
      · rw [total_cons]
      · exact absurd (decide_eq_true own) claimed
      · exact absurd (of_decide_eq_true claimed) own
      · exact Nat.zero_add _

/-- The strategies are counted as the source counts them. -/
theorem exactStrategyCount_eq :
    ((minerProfiles (K := ℝ)).map MinerProfile.strategyDigest).dedup.length = 19 := by
  rw [← strategyDigests_length]
  refine ((List.perm_ext_iff_of_nodup (List.nodup_dedup _) (nodup_distinct _)).mpr
    fun digest => ?_).length_eq
  rw [List.mem_dedup, mem_distinct]

/-- Every strategy is evaluated once an epoch, every profile is recorded, and
the claims that the validator injects are exactly the wrong answers it claims for. -/
theorem report_accounts {report : SimulationReport ℝ}
    (h : runMechanismSimulation platform config = .ok report) : Accounts platform config report := by
  obtain ⟨rows, outcomes, reported⟩ := reported_of_ok h
  have places : (report.replications.map ReplicationRow.replication).Perm
      (List.range config.replications) := by
    refine (replications_perm reported ReplicationRow.replication fun _ _ _ => rfl).trans ?_
    have same := map_eq_map_of_forall₂ (f := id) reported.scored fun _ row at_ => at_.place.symm
    rw [List.map_id] at same
    exact List.Perm.of_eq same.symm
  have count : report.replications.length = config.replications := by
    have lengths := places.length_eq
    rwa [List.length_map, List.length_range] at lengths
  have accounts : ∀ row ∈ report.replications, RowAccounts platform config row := by
    intro row hrow
    obtain ⟨replication, -, scored, values, tau, at_, rfl⟩ := exists_compared reported hrow
    obtain ⟨own, hits, injected, measured, invalid, few⟩ := rowAccounts_of_rowAt at_
    exact ⟨own, hits, injected, measured, invalid, few⟩
  obtain ⟨evaluations, hits, measured, invalid, few, injected⟩ := accounts_of_rows accounts
  have counted : (report.replications.map fun row => answered platform config row.replication).sum =
      ((List.range config.replications).map (answered platform config)).sum := by
    rw [← (places.map (answered platform config)).sum_eq, List.map_map]
    rfl
  rw [counted] at measured invalid few
  have strategies : report.summary.exactStrategyCount = 19 := by
    rw [reported.summary]
    exact exactStrategyCount_eq
  have profiles : report.summary.minerProfileCount = 20 := by
    rw [reported.summary]
    exact length_minerProfiles
  have evaluated : report.summary.strategyEvaluations =
      total report.replications Counters.strategyEvaluations := by
    rw [reported.summary, reported.replications]
    rfl
  rw [count] at evaluations hits
  refine ⟨places, ?_, ?_, ?_, ?_, ?_, ?_⟩
  · rw [evaluated, strategies]
    exact evaluations
  · have remembered : report.summary.duplicateEvaluationCacheHits =
        total report.replications Counters.duplicateCacheHits := by
      rw [reported.summary, reported.replications]
      rfl
    rw [evaluated, remembered, evaluations, hits, profiles]
    ring
  · rw [reported.replications] at measured
    rw [reported.summary]
    exact measured
  · rw [reported.replications] at invalid
    rw [reported.summary]
    exact invalid
  · rw [evaluated]
    exact few
  · rw [reported.replications] at injected ⊢
    rw [reported.summary]
    exact injected

theorem report_accounts_defaults : ∃ report,
    runMechanismSimulation stillPlatform defaults = .ok report ∧
      Accounts stillPlatform defaults report := by
  obtain ⟨report, h⟩ := exists_defaultReport
  exact ⟨report, h, report_accounts h⟩

end Accounts

end SimulationReports
