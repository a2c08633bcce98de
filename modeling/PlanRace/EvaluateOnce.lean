import PlanRace.CohortEvaluation

/-!
# Evaluating a strategy once

The miners of one strategy digest share the evaluation of the first of them.
The digest drops metadata and the order of conjuncts, which the worker's size
check and the compiled statements do see: sharing is sound exactly for bundles
that are admitted alike and compile alike.
-/

namespace EvaluateOnce

open JsonText WireText IndexAst IndexSql TaskModels TaskgenV2 BenchmarkScoring SandboxV2 BenchmarkV2
  StrategyDigest ScoringV2 EvaluationV2 SandboxRuns CohortEvaluation Fallible

variable {K : Type} [Field K] [LinearOrder K]

section Fields

theorem map_eq_of_forall₂ {α β : Type} {R : α → α → Prop} {f : α → β} {xs ys : List α}
    (h : List.Forall₂ R xs ys) (same : ∀ x y, R x y → f x = f y) : xs.map f = ys.map f := by
  induction h with
  | nil => rfl
  | cons hxy _ ih => rw [List.map_cons, List.map_cons, same _ _ hxy, ih]

/-- A property of the items that agreeing items share. -/
theorem forall_iff_of_map_eq {α : Type} {f : α → Bool} {xs ys : List α}
    (h : xs.map f = ys.map f) : (∀ x ∈ xs, f x = true) ↔ ∀ y ∈ ys, f y = true := by
  have all : (xs.map f).all id = (ys.map f).all id := by rw [h]
  rw [List.all_map, List.all_map] at all
  rw [← List.all_eq_true, ← List.all_eq_true]
  exact iff_of_eq (congrArg (· = true) all)

/-- The fields of an evaluation that its observations record. -/
structure SameFields (e e' : HoldoutEvaluationV2 K) : Prop where
  exactPassed : e.exactPassed = e'.exactPassed
  compliant : e.compliant = e'.compliant
  reward : e.reward = e'.reward

/-- Items that agree in everything the reward looks at. -/
def AgreeItems (x y : FixtureEvaluationV2 K) : Prop :=
  Agree x.result y.result ∧ x.score.benchmarkValid = y.score.benchmarkValid ∧
    x.score.reward = y.score.reward

/-- Agreeing results have the same score. -/
theorem score_of_agree [FloorSemiring K] [RealFunctions K] [BinaryFunctions K]
    {policy : BenchmarkPolicy K} {r r' : SandboxResultV2 K} (agree : Agree r r')
    {score score' : BenchmarkScore K}
    (h : scoreBenchmark policy (benchmarkEvidenceFromSandbox r) = .ok score)
    (h' : scoreBenchmark policy (benchmarkEvidenceFromSandbox r') = .ok score') :
    score.benchmarkValid = score'.benchmarkValid ∧ score.reward = score'.reward := by
  have evidence : ∀ r : SandboxResultV2 K, r.trials = [] →
      (benchmarkEvidenceFromSandbox r).trials = [] := by
    intro r none
    rw [benchmarkEvidenceFromSandbox, none, List.map_nil]
  rcases agree.storage with none | storage
  · rw [scoreBenchmark_of_no_trials policy (evidence r none)] at h
    rw [scoreBenchmark_of_no_trials policy (evidence r' (agree.trials ▸ none))] at h'
    obtain rfl := Except.ok.inj h
    obtain rfl := Except.ok.inj h'
    exact ⟨rfl, rfl⟩
  · have same : benchmarkEvidenceFromSandbox r = benchmarkEvidenceFromSandbox r' := by
      simp only [benchmarkEvidenceFromSandbox, agree.correct, agree.compliant, agree.setupMs,
        agree.databaseBytes, agree.trials, storage]
    rw [same, h'] at h
    obtain rfl := Except.ok.inj h
    exact ⟨rfl, rfl⟩

/-- Evaluations whose items agree are finalized alike. -/
theorem sameFields_of_agree [RealFunctions K] {isWord : Char → Bool} {a b : OptimizationBundle}
    {evaluations evaluations' : List (FixtureEvaluationV2 K)} {e e' : HoldoutEvaluationV2 K}
    (agree : List.Forall₂ AgreeItems evaluations evaluations')
    (empty : a.indexes = [] ↔ b.indexes = [])
    (h : Finalized isWord a evaluations e) (h' : Finalized isWord b evaluations' e') :
    SameFields e e' := by
  have correct : evaluations.map (fun item => item.result.correct) =
      evaluations'.map fun item => item.result.correct :=
    map_eq_of_forall₂ agree fun _ _ same => same.1.correct
  have compliant : evaluations.map (fun item => item.result.compliant) =
      evaluations'.map fun item => item.result.compliant :=
    map_eq_of_forall₂ agree fun _ _ same => same.1.compliant
  have valid : evaluations.map (fun item => item.score.benchmarkValid) =
      evaluations'.map fun item => item.score.benchmarkValid :=
    map_eq_of_forall₂ agree fun _ _ same => same.2.1
  have rewards : evaluations.map (fun item => item.score.reward) =
      evaluations'.map fun item => item.score.reward :=
    map_eq_of_forall₂ agree fun _ _ same => same.2.2
  have unused : evaluations.map (fun item => decide (item.result.usedIndexNames = [])) =
      evaluations'.map fun item => decide (item.result.usedIndexNames = []) :=
    map_eq_of_forall₂ agree fun _ _ same => by rw [same.1.used]
  have used : (∃ item ∈ evaluations, item.result.usedIndexNames ≠ []) ↔
      ∃ item ∈ evaluations', item.result.usedIndexNames ≠ [] := by
    have none := not_congr (forall_iff_of_map_eq unused)
    simpa using none
  have rewarded : Rewarded a evaluations ↔ Rewarded b evaluations' := by
    constructor
    · intro r
      exact ⟨(forall_iff_of_map_eq correct).mp r.correct,
        (forall_iff_of_map_eq compliant).mp r.compliant, (forall_iff_of_map_eq valid).mp r.valid,
        fun none => r.indexed (empty.mpr none), used.mp r.used⟩
    · intro r
      exact ⟨(forall_iff_of_map_eq correct).mpr r.correct,
        (forall_iff_of_map_eq compliant).mpr r.compliant, (forall_iff_of_map_eq valid).mpr r.valid,
        fun none => r.indexed (empty.mp none), used.mpr r.used⟩
  refine ⟨?_, ?_, ?_⟩
  · rw [h.exactPassed, h'.exactPassed]
    exact Bool.eq_iff_iff.mpr (by
      rw [List.all_eq_true, List.all_eq_true]
      exact forall_iff_of_map_eq correct)
  · rw [h.compliant, h'.compliant]
    exact Bool.eq_iff_iff.mpr (by
      rw [List.all_eq_true, List.all_eq_true]
      exact forall_iff_of_map_eq compliant)
  · rcases h.reward with ⟨r, hreward⟩ | ⟨unrewarded, zero⟩
    · rcases h'.reward with ⟨-, hreward'⟩ | ⟨unrewarded', -⟩
      · rw [rewards, hreward'] at hreward
        exact (Except.ok.inj hreward).symm
      · exact absurd (rewarded.mp r) unrewarded'
    · rcases h'.reward with ⟨r', -⟩ | ⟨-, zero'⟩
      · exact absurd (rewarded.mpr r') unrewarded
      · rw [zero, zero']

end Fields

variable [IsStrictOrderedRing K]

/-- A validator whose worker runs `execute_request`. -/
def sandboxed (sandbox : Sandbox K) (base : Evaluator K) (measure : Measure K) : Evaluator K :=
  { base with workerRunner := sandbox.worker measure }

/-- A bundle passes the checks in front of the measurements on every fixture. -/
def Admitted (sandbox : Sandbox K) (base : Evaluator K) (task : PrivateTaskV2)
    (bundle : OptimizationBundle) : Prop :=
  ∀ family, validateAndRegenerateTask base.generator task = .ok family →
    ∀ holdout ∈ holdouts base.generator task family, ∀ request,
      sandboxRequest base.benchmarkPolicy base.trialCount task family.ordered bundle holdout.1 =
        .ok request →
      Passes sandbox holdout.2 holdout.1.database request

/-- Bundles that the worker cannot tell apart by anything it measures. -/
structure Interchangeable (sandbox : Sandbox K) (base : Evaluator K) (task : PrivateTaskV2)
    (a b : OptimizationBundle) : Prop where
  admitted : Admitted sandbox base task a ↔ Admitted sandbox base task b
  compiled : Admitted sandbox base task a → compileIndexes a.indexes = compileIndexes b.indexes

section Evaluations

variable [FloorSemiring K] [RealFunctions K] [BinaryFunctions K]

/-- An evaluation with the results that the sandbox returned for it. -/
structure Sandboxed (sandbox : Sandbox K) (base : Evaluator K) (measure : Measure K)
    (task : PrivateTaskV2) (family : QueryFamily) (bundle : OptimizationBundle)
    (evaluations : List (FixtureEvaluationV2 K)) (e : HoldoutEvaluationV2 K) : Prop where
  accepted : validateAndRegenerateTask base.generator task = .ok family
  evaluated : (holdouts base.generator task family).mapM
    (evaluateFixture (sandboxed sandbox base measure) task family bundle) = .ok evaluations
  finalized : Finalized base.isWord bundle evaluations e

variable {sandbox : Sandbox K} {base : Evaluator K} {measure : Measure K} {task : PrivateTaskV2}
  {family : QueryFamily} {a b : OptimizationBundle} {evaluations : List (FixtureEvaluationV2 K)}
  {e e' : HoldoutEvaluationV2 K}

theorem exists_sandboxed
    (h : evaluateBundleOnCommittedHoldouts (sandboxed sandbox base measure) task a = .ok e) :
    ∃ family evaluations, Sandboxed sandbox base measure task family a evaluations e := by
  obtain ⟨family, evaluations, hfamily, -, hevaluations, hfinal⟩ :=
    evaluateBundleOnCommittedHoldouts_ok_iff.mp h
  exact ⟨family, evaluations, hfamily, hevaluations, finalizeHoldoutEvaluation_finalized hfinal⟩

/-- A fixture's result is the sandbox's answer to the request of the bundle. -/
theorem result_of_evaluateFixture {holdout : GeneratedFixture × Nat} {item : FixtureEvaluationV2 K}
    (h : evaluateFixture (sandboxed sandbox base measure) task family a holdout = .ok item) :
    ∃ request, sandboxRequest base.benchmarkPolicy base.trialCount task family.ordered a holdout.1 =
        .ok request ∧
      item.result = sandbox.run measure holdout.2 holdout.1.database request ∧
      scoreBenchmark base.benchmarkPolicy (benchmarkEvidenceFromSandbox item.result) =
        .ok item.score := by
  obtain ⟨request, hrequest, hresult, -, hscore, -⟩ := evaluateFixture_ok_iff.mp h
  exact ⟨request, hrequest, (Except.ok.inj hresult).symm, hscore⟩

/-- A bundle that is not admitted everywhere loses all its fields. -/
theorem fields_of_not_admitted (run : Sandboxed sandbox base measure task family a evaluations e)
    (h : ¬ Admitted sandbox base task a) :
    e.exactPassed = false ∧ e.compliant = false ∧ e.reward = 0 := by
  simp only [Admitted, not_forall] at h
  obtain ⟨family', hfamily', holdout, hholdout, request, hrequest, rejected⟩ := h
  rw [run.accepted] at hfamily'
  obtain rfl := Except.ok.inj hfamily'
  obtain ⟨item, hitem, hevaluated⟩ := ok_of_mapM run.evaluated holdout hholdout
  obtain ⟨request', hrequest', hresult, -⟩ := result_of_evaluateFixture hevaluated
  rw [hrequest] at hrequest'
  obtain rfl := Except.ok.inj hrequest'
  obtain ⟨code, databaseBytes, left⟩ := run_of_not_passes rejected
  rw [left] at hresult
  have incorrect : item.result.correct = false := by rw [hresult]; rfl
  have noncompliant : item.result.compliant = false := by rw [hresult]; rfl
  refine ⟨?_, ?_, ?_⟩
  · rw [run.finalized.exactPassed, List.all_eq_false]
    exact ⟨item, hitem, by simp [incorrect]⟩
  · rw [run.finalized.compliant, List.all_eq_false]
    exact ⟨item, hitem, by simp [noncompliant]⟩
  · rcases run.finalized.reward with ⟨rewarded, -⟩ | ⟨-, zero⟩
    · rw [rewarded.correct item hitem] at incorrect
      cases incorrect
    · exact zero

/-- Interchangeable bundles are evaluated alike. -/
theorem sameFields_of_interchangeable {evaluations' : List (FixtureEvaluationV2 K)}
    (same : Interchangeable sandbox base task a b)
    (run : Sandboxed sandbox base measure task family a evaluations e)
    (run' : Sandboxed sandbox base measure task family b evaluations' e') : SameFields e e' := by
  by_cases admitted : Admitted sandbox base task a
  · have compiled := same.compiled admitted
    have admitted' := same.admitted.mp admitted
    have empty : a.indexes = [] ↔ b.indexes = [] := by
      have lengths := congrArg List.length (map_validatorIndexName compiled)
      rw [List.length_map, List.length_map] at lengths
      rw [← List.length_eq_zero_iff, ← List.length_eq_zero_iff, lengths]
    refine sameFields_of_agree (forall₂_of_mapM run.evaluated run'.evaluated ?_) empty run.finalized
      run'.finalized
    intro holdout hholdout x y hx hy
    obtain ⟨request, hrequest, hresult, hscore⟩ := result_of_evaluateFixture hx
    obtain ⟨request', hrequest', hresult', hscore'⟩ := result_of_evaluateFixture hy
    have of := requestOf_sandboxRequest hrequest
    have of' := requestOf_sandboxRequest hrequest'
    have agree : Agree x.result y.result := by
      rw [hresult, hresult']
      refine agree_run (admitted family run.accepted holdout hholdout request hrequest)
        (admitted' family run.accepted holdout hholdout request' hrequest')
        (of.ofTrials.trans of'.ofTrials.symm) ?_
      rw [of.ofBundle, of'.ofBundle, compiled]
    exact ⟨agree, score_of_agree agree hscore hscore'⟩
  · obtain ⟨exactPassed, compliant, reward⟩ := fields_of_not_admitted run admitted
    obtain ⟨exactPassed', compliant', reward'⟩ :=
      fields_of_not_admitted run' (fun h => admitted (same.admitted.mpr h))
    exact ⟨exactPassed.trans exactPassed'.symm, compliant.trans compliant'.symm,
      reward.trans reward'.symm⟩

end Evaluations

section Clashes

variable [FloorSemiring K] [RealFunctions K] [BinaryFunctions K] {sandbox : Sandbox K}
  {base : Evaluator K} {task : PrivateTaskV2} {family : QueryFamily} {a b : OptimizationBundle}
  {evaluations : List (FixtureEvaluationV2 K)} {e : HoldoutEvaluationV2 K}

/-- Whether a clashing bundle is compliant shows its admission and its statements. -/
theorem compliant_clashOn_iff {accepts : List Text → Bool}
    (run : Sandboxed sandbox base (clashOn accepts) task family a evaluations e) :
    e.compliant = true ↔
      Admitted sandbox base task a ∧ accepts (a.indexes.map indexStatement) = true := by
  have outcome : ∀ holdout ∈ holdouts base.generator task family, ∃ item ∈ evaluations, ∃ request,
      sandboxRequest base.benchmarkPolicy base.trialCount task family.ordered a holdout.1 =
        .ok request ∧
      (item.result.compliant = true ↔ Passes sandbox holdout.2 holdout.1.database request ∧
        accepts (a.indexes.map indexStatement) = true) := by
    intro holdout hholdout
    obtain ⟨item, hitem, hevaluated⟩ := ok_of_mapM run.evaluated holdout hholdout
    obtain ⟨request, hrequest, hresult, -⟩ := result_of_evaluateFixture hevaluated
    have compliant := (run_hopeless (hopeless_clashOn accepts) :
      _ ∧ ((sandbox.run (clashOn accepts) holdout.2 holdout.1.database request).compliant = true ↔
        _)).2
    rw [clashOn_eq_ok_iff, ← hresult, (requestOf_sandboxRequest hrequest).ofBundle] at compliant
    exact ⟨item, hitem, request, hrequest, compliant⟩
  rw [run.finalized.compliant, List.all_eq_true]
  constructor
  · intro all
    constructor
    · intro family' hfamily' holdout hholdout request hrequest
      rw [run.accepted] at hfamily'
      obtain rfl := Except.ok.inj hfamily'
      obtain ⟨item, hitem, request', hrequest', compliant⟩ := outcome holdout hholdout
      rw [hrequest] at hrequest'
      obtain rfl := Except.ok.inj hrequest'
      exact (compliant.mp (all item hitem)).1
    · obtain ⟨holdout, hholdout⟩ := List.exists_mem_of_ne_nil _ (holdouts_ne_nil run.accepted)
      obtain ⟨item, hitem, request, -, compliant⟩ := outcome holdout hholdout
      exact (compliant.mp (all item hitem)).2
  · rintro ⟨admitted, accepted⟩ item hitem
    obtain ⟨holdout, hholdout, hevaluated⟩ := exists_of_mem_mapM run.evaluated hitem
    obtain ⟨request, hrequest, hresult, -⟩ := result_of_evaluateFixture hevaluated
    rw [hresult]
    refine (run_hopeless (hopeless_clashOn accepts)).2.mpr
      ⟨admitted family run.accepted holdout hholdout request hrequest, ?_⟩
    rw [clashOn_eq_ok_iff, (requestOf_sandboxRequest hrequest).ofBundle]
    exact accepted

omit [IsStrictOrderedRing K] [FloorSemiring K] [RealFunctions K] [BinaryFunctions K] in
/-- Clashes tell bundles apart that are not interchangeable. -/
theorem interchangeable_of_clashes
    (h : ∀ accepts : List Text → Bool,
      (Admitted sandbox base task a ∧ accepts (a.indexes.map indexStatement) = true) ↔
        Admitted sandbox base task b ∧ accepts (b.indexes.map indexStatement) = true) :
    Interchangeable sandbox base task a b := by
  have always := h fun _ => true
  simp only [and_true] at always
  refine ⟨always, fun admitted => ?_⟩
  have own := (h fun statements => decide (statements = a.indexes.map indexStatement)).mp
    ⟨admitted, decide_eq_true rfl⟩
  rw [compileIndexes_eq, compileIndexes_eq, of_decide_eq_true own.2]

end Clashes

section Cohort

variable [FloorSemiring K] [RealFunctions K] [BinaryFunctions K]

/-- Each observation records what the miner's own bundle is evaluated to alone. -/
def EvaluatesEach (evaluator : Evaluator K) (task : PrivateTaskV2) (submissions : Submissions)
    (cohort : CohortEvaluationV2 K) : Prop :=
  ∀ o ∈ cohort.observations, ∀ bundle, (o.minerId, bundle) ∈ submissions.val →
    ∃ own, evaluateBundleOnCommittedHoldouts evaluator task bundle = .ok own ∧
      o.correct = own.exactPassed ∧ o.compliant = own.compliant ∧ o.reward = own.reward

variable {sandbox : Sandbox K} {base : Evaluator K} {task : PrivateTaskV2} {submissions : Submissions}
  {epoch maxUniqueStrategies : Int} {measure : Measure K} {cohort : CohortEvaluationV2 K}

/-- What an accepted cohort says about every other run of it. -/
structure Ready (base : Evaluator K) (task : PrivateTaskV2) (submissions : Submissions)
    (epoch maxUniqueStrategies : Int) (family : QueryFamily) : Prop where
  accepted : validateAndRegenerateTask base.generator task = .ok family
  input : CohortInput task.publicTask submissions epoch maxUniqueStrategies
  trials : base.benchmarkPolicy.minimumTrials ≤ base.trialCount ∧ base.trialCount % 2 = 0
  requests : ∀ submission ∈ submissions.val, ∀ holdout ∈ holdouts base.generator task family,
    ∃ request, sandboxRequest base.benchmarkPolicy base.trialCount task family.ordered submission.2
      holdout.1 = .ok request

theorem exists_ready
    (h : evaluateTaskCohort (sandboxed sandbox base measure) task submissions epoch
      maxUniqueStrategies = .ok cohort) :
    ∃ family, Ready base task submissions epoch maxUniqueStrategies family := by
  obtain ⟨input, -⟩ := evaluateTaskCohort_ok_iff.mp h
  obtain ⟨submission, hsubmission⟩ := List.exists_mem_of_ne_nil _ input.nonempty
  obtain ⟨group, hgroup, -⟩ := exists_group hsubmission
  obtain ⟨canonical, rest, members⟩ := exists_canonical hgroup
  obtain ⟨e, he, -⟩ := strategy_evaluated h hgroup (by rw [members]; rfl)
  obtain ⟨family, evaluations, hfamily, bundleInput, hevaluations, -⟩ :=
    evaluateBundleOnCommittedHoldouts_ok_iff.mp he
  refine ⟨family, hfamily, input, ⟨bundleInput.trials, bundleInput.balanced⟩, ?_⟩
  intro other hother holdout hholdout
  obtain ⟨item, -, hevaluated⟩ := ok_of_mapM hevaluations holdout hholdout
  obtain ⟨request, hrequest, -⟩ := result_of_evaluateFixture hevaluated
  obtain ⟨parameters, trials, balanced, ⟨-, revealed⟩, -, committed⟩ :=
    sandboxRequest_ok_iff.mp ⟨request, hrequest⟩
  obtain ⟨ownTask, ownEngine⟩ := foreignBundle_eq_none_iff.mp (input.own other hother)
  exact sandboxRequest_ok_iff.mpr
    ⟨parameters, trials, balanced, ⟨ownTask, revealed⟩, ownEngine, committed⟩

/-- Each submission is evaluated alone, whatever is measured. -/
theorem Ready.exists_own {family : QueryFamily}
    (ready : Ready base task submissions epoch maxUniqueStrategies family) (measure : Measure K)
    {submission : Text × OptimizationBundle} (h : submission ∈ submissions.val) :
    ∃ e, evaluateBundleOnCommittedHoldouts (sandboxed sandbox base measure) task submission.2 =
      .ok e := by
  obtain ⟨ownTask, ownEngine⟩ := foreignBundle_eq_none_iff.mp (ready.input.own submission h)
  have answers : Answers (sandboxed sandbox base measure) task family submission.2
      fun _ => True := by
    intro holdout hholdout
    obtain ⟨request, hrequest⟩ := ready.requests submission h holdout hholdout
    exact ⟨request, hrequest, _, rfl, echo_run, trivial⟩
  have input : BundleInput (sandboxed sandbox base measure) task submission.2 :=
    ⟨ownTask, ownEngine, ready.trials.1, ready.trials.2⟩
  have accepted : validateAndRegenerateTask (sandboxed sandbox base measure).generator task =
      .ok family := ready.accepted
  obtain ⟨evaluations, e, -, -, -, -, he⟩ := exists_evaluation accepted input answers
  exact ⟨e, he⟩

/-- A cohort that clashes is accepted. -/
theorem Ready.exists_clash {family : QueryFamily}
    (ready : Ready base task submissions epoch maxUniqueStrategies family)
    (accepts : List Text → Bool) :
    ∃ cohort, evaluateTaskCohort (sandboxed sandbox base (clashOn accepts)) task submissions epoch
      maxUniqueStrategies = .ok cohort := by
  refine exists_cohort ready.accepted ready.input ready.trials ?_
  intro submission hsubmission holdout hholdout
  obtain ⟨request, hrequest⟩ := ready.requests submission hsubmission holdout hholdout
  exact ⟨request, hrequest, _, rfl, echo_run, (run_hopeless (hopeless_clashOn accepts)).1⟩

/-- The representatives of interchangeable bundles change no result. -/
theorem evaluatesEach_of_interchangeable
    (h : evaluateTaskCohort (sandboxed sandbox base measure) task submissions epoch
      maxUniqueStrategies = .ok cohort)
    (interchangeable : ∀ group ∈ strategyGroups submissions, ∀ canonical ∈ group.2.head?,
      ∀ member ∈ group.2, Interchangeable sandbox base task canonical.2 member.2) :
    EvaluatesEach (sandboxed sandbox base measure) task submissions cohort := by
  obtain ⟨family, ready⟩ := exists_ready h
  intro o ho bundle hbundle
  obtain ⟨group, hgroup, canonical, hcanonical, e, he, member, hmember, hobserve⟩ :=
    (mem_observations_iff h).mp ho
  have observes := observes_observe hobserve
  have submitted := ((mem_group_iff hgroup).mp hmember).1
  have same : (o.minerId, bundle) = member :=
    List.inj_on_of_nodup_map submissions.property hbundle submitted observes.minerId
  obtain ⟨own, hown⟩ : ∃ own, evaluateBundleOnCommittedHoldouts (sandboxed sandbox base measure) task
      member.2 = .ok own := ready.exists_own measure submitted
  obtain ⟨f, evaluations, run⟩ := exists_sandboxed he
  obtain ⟨f', evaluations', run'⟩ := exists_sandboxed hown
  have families := run'.accepted
  rw [run.accepted] at families
  obtain rfl := Except.ok.inj families
  have fields := sameFields_of_interchangeable
    (interchangeable group hgroup canonical hcanonical member hmember) run run'
  have bundles : bundle = member.2 := congrArg Prod.snd same
  refine ⟨own, by rw [bundles]; exact hown, ?_, ?_, ?_⟩
  · exact observes.correct.trans fields.exactPassed
  · exact observes.compliant.trans fields.compliant
  · exact observes.reward.trans fields.reward

/-- Where evaluating once is sound for every measurement, the members of a
group are interchangeable with its first. -/
theorem interchangeable_of_evaluatesEach {family : QueryFamily}
    (ready : Ready base task submissions epoch maxUniqueStrategies family)
    (each : ∀ measure cohort, evaluateTaskCohort (sandboxed sandbox base measure) task submissions epoch
        maxUniqueStrategies = .ok cohort →
      EvaluatesEach (sandboxed sandbox base measure) task submissions cohort)
    {group : Text × List (Text × OptimizationBundle)} (hgroup : group ∈ strategyGroups submissions)
    {canonical : Text × OptimizationBundle} (hcanonical : canonical ∈ group.2.head?)
    {member : Text × OptimizationBundle} (hmember : member ∈ group.2) :
    Interchangeable sandbox base task canonical.2 member.2 := by
  refine interchangeable_of_clashes fun accepts => ?_
  obtain ⟨cohort, h⟩ : ∃ cohort, evaluateTaskCohort (sandboxed sandbox base (clashOn accepts)) task
      submissions epoch maxUniqueStrategies = .ok cohort := ready.exists_clash accepts
  obtain ⟨e, he, observed⟩ := strategy_evaluated h hgroup hcanonical
  obtain ⟨o, ho, observes⟩ := observed member hmember
  have submitted : (o.minerId, member.2) ∈ submissions.val := by
    rw [observes.minerId]
    exact ((mem_group_iff hgroup).mp hmember).1
  obtain ⟨own, hown, -, compliant, -⟩ := each _ cohort h o ho member.2 submitted
  obtain ⟨f, evaluations, run⟩ := exists_sandboxed he
  obtain ⟨f', evaluations', run'⟩ := exists_sandboxed hown
  rw [← compliant_clashOn_iff run, ← compliant_clashOn_iff run', ← compliant, observes.compliant]

/-- For every cohort that is accepted: evaluating each strategy once agrees
with evaluating each bundle, whatever the worker measures, exactly when in
every group the members are interchangeable with the first. -/
theorem evaluatesEach_iff_interchangeable (sandbox : Sandbox K) (base : Evaluator K)
    (task : PrivateTaskV2) (submissions : Submissions) (epoch maxUniqueStrategies : Int)
    (accepted : ∃ measure cohort, evaluateTaskCohort (sandboxed sandbox base measure) task submissions
      epoch maxUniqueStrategies = .ok cohort) :
    (∀ measure cohort, evaluateTaskCohort (sandboxed sandbox base measure) task submissions epoch
        maxUniqueStrategies = .ok cohort →
      EvaluatesEach (sandboxed sandbox base measure) task submissions cohort) ↔
      ∀ group ∈ strategyGroups submissions, ∀ canonical ∈ group.2.head?, ∀ member ∈ group.2,
        Interchangeable sandbox base task canonical.2 member.2 := by
  obtain ⟨measure, cohort, h⟩ := accepted
  obtain ⟨family, ready⟩ := exists_ready h
  constructor
  · intro each group hgroup canonical hcanonical member hmember
    exact interchangeable_of_evaluatesEach ready each hgroup hcanonical hmember
  · intro interchangeable measure cohort h
    exact evaluatesEach_of_interchangeable h interchangeable

end Cohort

section Sizes

/-- The rationale alone bounds the size of a bundle from below. -/
theorem length_rationale_le_artifactBytes (bundle : OptimizationBundle)
    (plain : ∀ c ∈ bundle.metadata.rationale, escapeChar c = [c]) :
    (ByteStrings.utf8 bundle.metadata.rationale).length ≤ artifactBytes bundle := by
  have rationale : bundle.metadata.rationale <:+: dumps false (.str bundle.metadata.rationale) :=
    infix_dumps_str plain
  have metadata : dumps false (.str bundle.metadata.rationale) <:+:
      dumps false (modelDump bundle.metadata) :=
    infix_dumps_obj (m := ("rationale".toList, .str bundle.metadata.rationale))
      (by exact .tail _ (.tail _ (.head _)))
  have whole : dumps false (modelDump bundle.metadata) <:+: dumps false (modelDump bundle) :=
    infix_dumps_obj (m := ("metadata".toList, modelDump bundle.metadata))
      (by exact .tail _ (.tail _ (.tail _ (.tail _ (.head _)))))
  obtain ⟨before, after, h⟩ := (rationale.trans metadata).trans whole
  have bytes := congrArg (fun t => (ByteStrings.utf8 t).length) h
  simp only [ByteStrings.utf8, List.flatMap_append, List.length_append] at bytes
  rw [artifactBytes, ByteStrings.utf8, ByteStrings.utf8]
  omega

end Sizes

/-! Two miners with one index, one of them with a long rationale. -/
namespace Sample

open CohortEvaluation.Sample

noncomputable def sandbox : Sandbox ℝ where
  host := host
  policy := sandboxPolicy
  requirePinnedEngine := true
  inspection := fun _ => {
    query := .ok nullableCoupon.sql
    schema := .ok [("orders".toList, ["created_day".toList])]
    preexistingIndex := .ok false
    schemaMatches := .ok true }

noncomputable def base : Evaluator ℝ where
  generator := generator
  benchmarkPolicy := benchmarkPolicy
  workerRunner := fun _ _ request => .ok (failure request .workerRejected 0 0)
  number := host.number
  isWord := Char.isAlphanum

def wordy : OptimizationBundle := bundle (List.replicate 512 '€') (List.length_replicate ▸ le_refl 512)

def terse : OptimizationBundle := bundle [] rationaleBound_nil

def submissions : Submissions :=
  ⟨[("alice".toList, wordy), ("bob".toList, terse)], by decide⟩

theorem own_submission : ∀ submission ∈ submissions.val,
    submission.1 ≠ [] ∧ submission.2.taskId = reveal.taskId ∧
      submission.2.engineImageDigest = digest := by
  intro submission hsubmission
  rcases List.mem_cons.mp hsubmission with rfl | hsubmission
  · exact ⟨by decide, rfl, rfl⟩
  · obtain rfl := List.mem_singleton.mp hsubmission
    exact ⟨by decide, rfl, rfl⟩

theorem ready : Ready base task submissions 0 64 nullableCoupon where
  accepted := task_accepted
  input := input_of_own (le_refl 0) (List.cons_ne_nil _ _) (fun s hs => (own_submission s hs).1)
    (fun s hs => foreignBundle_eq_none_iff.mpr (own_submission s hs).2) (by decide)
  trials := ⟨by decide, by decide⟩
  requests := fun s hs _ hholdout =>
    exists_request s.2 (own_submission s hs).2.1 (own_submission s hs).2.2 hholdout

theorem wordy_oversized : oversized task.publicTask wordy = true := by
  have plain : ∀ c ∈ wordy.metadata.rationale, escapeChar c = [c] := by
    intro c hc
    obtain rfl := List.eq_of_mem_replicate hc
    decide
  have size : (ByteStrings.utf8 wordy.metadata.rationale).length = 1536 := by decide +kernel
  have bound := length_rationale_le_artifactBytes wordy plain
  have limit : task.publicTask.artifactBudget.maxBundleBytes = 1024 := rfl
  rw [size] at bound
  rw [oversized, limit, decide_eq_true_eq]
  omega

theorem terse_small : oversized task.publicTask terse = false := by
  have size : artifactBytes terse ≤ 1024 := by decide +kernel
  have limit : task.publicTask.artifactBudget.maxBundleBytes = 1024 := rfl
  rw [oversized, limit, decide_eq_false_iff_not]
  omega

/-- The size of the bundle is the only check on which the two can differ. -/
theorem passes_iff {rationale : Text} {short : rationale.length ≤ 512}
    {holdout : GeneratedFixture × Nat} (h : holdout ∈ holdouts generator task nullableCoupon)
    {request : SandboxRequestV2 ℝ}
    (of : RequestOf benchmarkPolicy 6 task true (bundle rationale short) holdout.1 request) :
    Passes sandbox holdout.2 holdout.1.database request ↔
      oversized task.publicTask (bundle rationale short) = false := by
  have admission : admissionFailure host sandboxPolicy true holdout.1.database request =
      if oversized task.publicTask (bundle rationale short) then some .artifactSize else none := by
    unfold admissionFailure
    rw [taskFailure_eq_none h of, of.ofTask, of.ofBundle]
    rfl
  constructor
  · intro passes
    have admitted := passes.admitted
    change admissionFailure host sandboxPolicy true holdout.1.database request = none at admitted
    rw [admission] at admitted
    by_contra large
    rw [if_pos (by simpa using large)] at admitted
    cases admitted
  · intro small
    refine ⟨⟨4096, present h⟩, ?_, ?_⟩
    · change admissionFailure host sandboxPolicy true holdout.1.database request = none
      rw [admission, small]
      rfl
    · rw [of.ofBundle]
      rfl

theorem admitted_differs :
    Admitted sandbox base task terse ∧ ¬ Admitted sandbox base task wordy := by
  constructor
  · intro family hfamily holdout hholdout request hrequest
    obtain rfl := Except.ok.inj (task_accepted.symm.trans hfamily)
    exact (passes_iff hholdout (requestOf_sandboxRequest hrequest)).mpr terse_small
  · intro admitted
    have holdout : (first, 0) ∈ holdouts generator task nullableCoupon := List.mem_cons_self
    obtain ⟨request, hrequest⟩ := exists_request wordy rfl rfl holdout
    have passes := admitted nullableCoupon task_accepted _ holdout request hrequest
    have small := (passes_iff holdout (requestOf_sandboxRequest hrequest)).mp passes
    have large := wordy_oversized
    rw [wordy, small] at large
    cases large

/-- The digest drops the metadata, which are all that differ. -/
theorem digest_shared : optimizationStrategyDigest wordy = optimizationStrategyDigest terse :=
  congrArg (CanonicalJson.domainSeparatedDigest strategyDomainV2)
    (rfl : strategyPayload wordy = strategyPayload terse)

/-- The group of both, whose first member is one of them. -/
theorem exists_shared_group : ∃ group ∈ strategyGroups submissions,
    ("alice".toList, wordy) ∈ group.2 ∧ ("bob".toList, terse) ∈ group.2 ∧
      ∃ canonical ∈ group.2.head?, canonical.2 = wordy ∨ canonical.2 = terse := by
  have submitted : ("alice".toList, wordy) ∈ submissions.val := List.mem_cons_self
  obtain ⟨group, hgroup, alice⟩ := exists_group submitted
  have bob : ("bob".toList, terse) ∈ group.2 := by
    refine (mem_group_iff hgroup).mpr ⟨List.mem_cons_of_mem _ List.mem_cons_self, ?_⟩
    rw [← digest_shared]
    exact ((mem_group_iff hgroup).mp alice).2
  obtain ⟨canonical, rest, members⟩ := exists_canonical hgroup
  have hcanonical : canonical ∈ group.2.head? := by
    rw [members]
    rfl
  have submitted := ((mem_group_iff hgroup).mp (List.mem_of_mem_head? hcanonical)).1
  refine ⟨group, hgroup, alice, bob, canonical, hcanonical, ?_⟩
  rcases List.mem_cons.mp submitted with rfl | submitted
  · exact .inl rfl
  · obtain rfl := List.mem_singleton.mp submitted
    exact .inr rfl

end Sample

/-- Whatever is measured, evaluating once agrees with evaluating each exactly
for interchangeable members, for two miners with one index. -/
theorem evaluatesEach_iff_wordy_and_terse :
    (∀ measure cohort, evaluateTaskCohort (sandboxed Sample.sandbox Sample.base measure)
        CohortEvaluation.Sample.task Sample.submissions 0 64 = .ok cohort →
      EvaluatesEach (sandboxed Sample.sandbox Sample.base measure) CohortEvaluation.Sample.task
        Sample.submissions cohort) ↔
      ∀ group ∈ strategyGroups Sample.submissions, ∀ canonical ∈ group.2.head?,
        ∀ member ∈ group.2, Interchangeable Sample.sandbox Sample.base CohortEvaluation.Sample.task
          canonical.2 member.2 :=
  evaluatesEach_iff_interchangeable _ _ _ _ _ _
    ⟨clashOn fun _ => true, Sample.ready.exists_clash fun _ => true⟩

/-- The long rationale of one miner makes another miner's result noncompliant. -/
theorem representative_changes_result :
    ¬ ∀ measure cohort, evaluateTaskCohort (sandboxed Sample.sandbox Sample.base measure)
        CohortEvaluation.Sample.task Sample.submissions 0 64 = .ok cohort →
      EvaluatesEach (sandboxed Sample.sandbox Sample.base measure) CohortEvaluation.Sample.task
        Sample.submissions cohort := by
  intro each
  obtain ⟨group, hgroup, alice, bob, canonical, hcanonical, own⟩ := Sample.exists_shared_group
  obtain ⟨small, large⟩ := Sample.admitted_differs
  have interchangeable : ∀ member ∈ group.2, Interchangeable Sample.sandbox Sample.base
      CohortEvaluation.Sample.task canonical.2 member.2 := fun member hmember =>
    interchangeable_of_evaluatesEach Sample.ready each hgroup hcanonical hmember
  rcases own with wordy | terse
  · have same := (interchangeable _ bob).admitted
    rw [wordy] at same
    exact large (same.mpr small)
  · have same := (interchangeable _ alice).admitted
    rw [terse] at same
    exact large (same.mp small)

end EvaluateOnce
