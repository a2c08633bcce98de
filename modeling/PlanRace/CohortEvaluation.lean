import PlanRace.SandboxRuns

/-!
# What an accepted evaluation went through

Each function of the holdout evaluation is inverted once: a bundle's reward, a
cohort's observations and the checks in front of them.
-/

namespace CohortEvaluation

open JsonText LexOrder CanonicalJson WireText IndexAst TaskModels TaskgenV2 BenchmarkScoring
  SandboxV2 BenchmarkV2 StrategyDigest ScoringV2 Statistics Grouping EvaluationV2 SandboxRuns Fallible

variable {K : Type} [Field K] [LinearOrder K]

section Finalize

/-- What stands in front of a reward. -/
structure Rewarded (bundle : OptimizationBundle) (evaluations : List (FixtureEvaluationV2 K)) :
    Prop where
  correct : ∀ item ∈ evaluations, item.result.correct = true
  compliant : ∀ item ∈ evaluations, item.result.compliant = true
  valid : ∀ item ∈ evaluations, item.score.benchmarkValid = true
  indexed : bundle.indexes ≠ []
  used : ∃ item ∈ evaluations, item.result.usedIndexNames ≠ []

/-- A finalized evaluation: its flags, and its reward behind the gates. -/
structure Finalized [RealFunctions K] (isWord : Char → Bool) (bundle : OptimizationBundle)
    (evaluations : List (FixtureEvaluationV2 K)) (e : HoldoutEvaluationV2 K) : Prop where
  exactPassed : e.exactPassed = evaluations.all fun item => item.result.correct
  compliant : e.compliant = evaluations.all fun item => item.result.compliant
  strategyDigest : e.strategyDigest = optimizationStrategyDigest bundle
  behaviorDigest : e.behaviorDigest = holdoutBehaviorDigest isWord evaluations
  reward : (Rewarded bundle evaluations ∧
      robustHoldoutReward (evaluations.map fun item => item.score.reward) = .ok e.reward) ∨
    ¬ Rewarded bundle evaluations ∧ e.reward = 0

theorem finalizeHoldoutEvaluation_finalized [RealFunctions K] {isWord : Char → Bool}
    {task : PrivateTaskV2} {bundle : OptimizationBundle} {familyId : Text}
    {evaluations : List (FixtureEvaluationV2 K)} {e : HoldoutEvaluationV2 K}
    (h : finalizeHoldoutEvaluation isWord task bundle familyId evaluations = .ok e) :
    Finalized isWord bundle evaluations e := by
  have gate : ∀ code, .ok (failed isWord task bundle familyId evaluations code) =
      (.ok e : Except EvaluationError _) → ¬ Rewarded bundle evaluations →
      Finalized isWord bundle evaluations e := by
    intro code he unrewarded
    obtain rfl := Except.ok.inj he
    exact ⟨rfl, rfl, rfl, rfl, .inr ⟨unrewarded, rfl⟩⟩
  unfold finalizeHoldoutEvaluation at h
  by_cases correct : (evaluations.all fun item => item.result.correct) = true
  case neg =>
    rw [if_pos correct] at h
    exact gate _ h fun r => correct (List.all_eq_true.mpr r.correct)
  by_cases compliant : (evaluations.all fun item => item.result.compliant) = true
  case neg =>
    rw [if_neg (not_not.mpr correct), if_pos compliant] at h
    exact gate _ h fun r => compliant (List.all_eq_true.mpr r.compliant)
  rw [if_neg (not_not.mpr correct), if_neg (not_not.mpr compliant)] at h
  split_ifs at h with invalid unused
  · refine gate _ h fun r => ?_
    obtain ⟨item, hitem, hvalid⟩ := List.any_eq_true.mp invalid
    rw [r.valid item hitem] at hvalid
    cases hvalid
  · refine gate _ h fun r => ?_
    rcases unused with empty | unused
    · exact r.indexed empty
    · obtain ⟨item, hitem, hused⟩ := r.used
      exact unused (List.any_eq_true.mpr ⟨item, hitem, by simpa using hused⟩)
  · obtain ⟨reward, hreward, h⟩ := bind_ok h
    obtain rfl := Except.ok.inj h
    refine ⟨correct.symm, compliant.symm, rfl, rfl, .inl ⟨?_, hreward⟩⟩
    push Not at unused
    refine ⟨List.all_eq_true.mp correct, List.all_eq_true.mp compliant, ?_, unused.1, ?_⟩
    · intro item hitem
      by_contra hinvalid
      exact invalid (List.any_eq_true.mpr ⟨item, hitem, by simpa using hinvalid⟩)
    · obtain ⟨item, hitem, hused⟩ := List.any_eq_true.mp unused.2
      exact ⟨item, hitem, of_decide_eq_true hused⟩

theorem robustHoldoutReward_ok [RealFunctions K] {rewards : List K} (nonempty : rewards ≠ [])
    (nonnegative : ∀ reward ∈ rewards, 0 ≤ reward) :
    ∃ reward, robustHoldoutReward rewards = .ok reward := by
  have valid : ¬ (rewards = [] ∨ (rewards.any fun value => decide (value < 0)) = true) := by
    rintro (empty | negative)
    · exact nonempty empty
    · obtain ⟨value, hvalue, hneg⟩ := List.any_eq_true.mp negative
      exact absurd (nonnegative value hvalue) (not_le.mpr (of_decide_eq_true hneg))
  unfold robustHoldoutReward
  rw [if_neg valid]
  exact ⟨_, rfl⟩

theorem finalizeHoldoutEvaluation_ok [RealFunctions K] (isWord : Char → Bool) (task : PrivateTaskV2)
    (bundle : OptimizationBundle) (familyId : Text) {evaluations : List (FixtureEvaluationV2 K)}
    (nonempty : evaluations ≠ []) (nonnegative : ∀ item ∈ evaluations, 0 ≤ item.score.reward) :
    ∃ e, finalizeHoldoutEvaluation isWord task bundle familyId evaluations = .ok e := by
  have rewards : ∀ reward ∈ evaluations.map fun item => item.score.reward, 0 ≤ reward := by
    simpa using nonnegative
  obtain ⟨reward, hreward⟩ := robustHoldoutReward_ok (by simpa using nonempty) rewards
  unfold finalizeHoldoutEvaluation
  rw [hreward]
  split_ifs
  all_goals exact ⟨_, rfl⟩

end Finalize

section Bundle

/-- The checks on a task that its evaluation starts with. -/
theorem validateAndRegenerateTask_ok_iff {generator : Generator} {task : PrivateTaskV2}
    {family : QueryFamily} :
    validateAndRegenerateTask generator task = .ok family ↔
      (queryFamilies.find? fun family =>
          family.familyId = task.publicTask.benchmarkFamilyId.val) = some family ∧
        auditTaskReveal task.publicTask task.reveal (some (regenerate generator family)) =
          .ok true ∧
        strip task.publicTask.referenceSql.val = strip family.sql ∧
        strip task.publicTask.schemaSql.val = strip schemaV2 ∧
        task.publicTask.parameterRanges = publishedParameterRanges family.familyId ∧
        trainingMatches task.publicTask.publicTrainingFixture (generator.training family) = true := by
  unfold validateAndRegenerateTask
  cases hfind : queryFamilies.find? fun family =>
      family.familyId = task.publicTask.benchmarkFamilyId.val with
  | none => simp
  | some found =>
    dsimp only
    constructor
    · intro h
      cases haudit : auditTaskReveal task.publicTask task.reveal
          (some (regenerate generator found)) with
      | error e =>
        rw [haudit] at h
        cases h
      | ok valid =>
        rw [haudit] at h
        cases valid with
        | false => cases h
        | true =>
          dsimp only at h
          split_ifs at h with sql schema ranges trained
          obtain rfl := Except.ok.inj h
          exact ⟨rfl, haudit, not_not.mp sql, not_not.mp schema, not_not.mp ranges,
            by simpa using trained⟩
    · rintro ⟨hfamily, audit, sql, schema, ranges, trained⟩
      obtain rfl := Option.some.inj hfamily
      rw [audit]
      dsimp only
      rw [if_neg (not_not.mpr sql), if_neg (not_not.mpr schema), if_neg (not_not.mpr ranges), trained]
      rfl

/-- An accepted task has the fixtures of its reveal, of which there are two at least. -/
theorem holdouts_ne_nil {generator : Generator} {task : PrivateTaskV2} {family : QueryFamily}
    (h : validateAndRegenerateTask generator task = .ok family) :
    holdouts generator task family ≠ [] := by
  obtain ⟨-, -, -, regenerated, -⟩ :=
    auditTaskReveal_ok_iff.mp (validateAndRegenerateTask_ok_iff.mp h).2.1
  have fixtures := congrArg List.length (regenerated _ rfl)
  have enough := task.reveal.fixtureBounds.1
  intro empty
  have none := congrArg List.length empty
  rw [holdouts, List.length_zipIdx, List.length_nil] at none
  rw [regenerate, List.length_map, none] at fixtures
  omega

/-- The bounds of a request on a bundle and a fixture. -/
theorem sandboxRequest_ok_iff {policy : BenchmarkPolicy K} {trialCount : Nat} {task : PrivateTaskV2}
    {ordered : Bool} {bundle : OptimizationBundle} {fixture : GeneratedFixture} :
    (∃ request, sandboxRequest policy trialCount task ordered bundle fixture = .ok request) ↔
      fixture.parameters.length ≤ 32 ∧ (6 ≤ trialCount ∧ trialCount ≤ 24) ∧ trialCount % 2 = 0 ∧
        (bundle.taskId = task.publicTask.taskId ∧ task.reveal.taskId = task.publicTask.taskId) ∧
        bundle.engineImageDigest = task.publicTask.engineImageDigest ∧
        fixture.descriptor ∈ task.reveal.hiddenFixtures := by
  unfold sandboxRequest
  constructor
  · rintro ⟨request, h⟩
    split_ifs at h with valid
    exact valid
  · intro valid
    rw [dif_pos valid]
    exact ⟨_, rfl⟩

/-- A request is made of its task, its bundle and its fixture. -/
structure RequestOf (policy : BenchmarkPolicy K) (trialCount : Nat) (task : PrivateTaskV2)
    (ordered : Bool) (bundle : OptimizationBundle) (fixture : GeneratedFixture)
    (request : SandboxRequestV2 K) : Prop where
  ofTask : request.task = task.publicTask
  ofReveal : request.reveal = task.reveal
  ofFixture : request.fixture = fixture.descriptor
  ofBundle : request.bundle = bundle
  ofParameters : request.parameters = fixture.parameters
  ofOrder : request.ordered = ordered ∧ request.collation = .binary
  ofTrials : request.trialCount = trialCount
  ofPolicy : request.benchmarkPolicy = policy

theorem requestOf_sandboxRequest {policy : BenchmarkPolicy K} {trialCount : Nat}
    {task : PrivateTaskV2} {ordered : Bool} {bundle : OptimizationBundle} {fixture : GeneratedFixture}
    {request : SandboxRequestV2 K}
    (h : sandboxRequest policy trialCount task ordered bundle fixture = .ok request) :
    RequestOf policy trialCount task ordered bundle fixture request := by
  unfold sandboxRequest at h
  split_ifs at h
  obtain rfl := Except.ok.inj h
  exact ⟨rfl, rfl, rfl, rfl, rfl, ⟨rfl, rfl⟩, rfl, rfl⟩

variable [FloorSemiring K] [RealFunctions K] [BinaryFunctions K]

/-- An evaluated fixture: its request, the worker's answer and its score. -/
theorem evaluateFixture_ok_iff {evaluator : Evaluator K} {task : PrivateTaskV2}
    {family : QueryFamily} {bundle : OptimizationBundle} {holdout : GeneratedFixture × Nat}
    {item : FixtureEvaluationV2 K} :
    evaluateFixture evaluator task family bundle holdout = .ok item ↔
      ∃ request, sandboxRequest evaluator.benchmarkPolicy evaluator.trialCount task family.ordered
          bundle holdout.1 = .ok request ∧
        evaluator.workerRunner holdout.2 holdout.1.database request = .ok item.result ∧
        verifyWorkerEcho request item.result = .ok () ∧
        scoreBenchmark evaluator.benchmarkPolicy (benchmarkEvidenceFromSandbox item.result) =
          .ok item.score ∧
        item.fixtureId = holdout.1.descriptor.fixtureId.val := by
  unfold evaluateFixture
  constructor
  · intro h
    obtain ⟨request, hrequest, h⟩ := bind_ok h
    obtain ⟨result, hresult, h⟩ := bind_ok h
    obtain ⟨⟨⟩, hecho, h⟩ := bind_ok h
    obtain ⟨score, hscore, h⟩ := bind_ok h
    obtain rfl := Except.ok.inj h
    exact ⟨request, hrequest, mapError_ok_iff.mp hresult, hecho, mapError_ok_iff.mp hscore, rfl⟩
  · rintro ⟨request, hrequest, hresult, hecho, hscore, hid⟩
    rw [hrequest]
    change ((evaluator.workerRunner _ _ request).mapError _ >>= _) = _
    rw [hresult]
    change (verifyWorkerEcho request item.result >>= _) = _
    rw [hecho]
    change ((scoreBenchmark _ _).mapError _ >>= _) = _
    rw [hscore, ← hid]
    rfl

/-- The checks on a bundle in front of its fixtures. -/
structure BundleInput (evaluator : Evaluator K) (task : PrivateTaskV2) (bundle : OptimizationBundle) :
    Prop where
  ownTask : bundle.taskId = task.publicTask.taskId
  ownEngine : bundle.engineImageDigest = task.publicTask.engineImageDigest
  trials : evaluator.benchmarkPolicy.minimumTrials ≤ evaluator.trialCount
  balanced : evaluator.trialCount % 2 = 0

theorem evaluateBundleOnCommittedHoldouts_ok_iff {evaluator : Evaluator K} {task : PrivateTaskV2}
    {bundle : OptimizationBundle} {e : HoldoutEvaluationV2 K} :
    evaluateBundleOnCommittedHoldouts evaluator task bundle = .ok e ↔
      ∃ family evaluations, validateAndRegenerateTask evaluator.generator task = .ok family ∧
        BundleInput evaluator task bundle ∧
        (holdouts evaluator.generator task family).mapM
          (evaluateFixture evaluator task family bundle) = .ok evaluations ∧
        finalizeHoldoutEvaluation evaluator.isWord task bundle family.familyId evaluations =
          .ok e := by
  unfold evaluateBundleOnCommittedHoldouts
  constructor
  · intro h
    obtain ⟨family, hfamily, h⟩ := bind_ok h
    by_cases otherTask : bundle.taskId ≠ task.publicTask.taskId
    · rw [if_pos otherTask] at h
      cases h
    by_cases otherEngine : bundle.engineImageDigest ≠ task.publicTask.engineImageDigest
    · rw [if_neg otherTask, if_pos otherEngine] at h
      cases h
    by_cases trials : evaluator.trialCount < evaluator.benchmarkPolicy.minimumTrials ∨
        evaluator.trialCount % 2 ≠ 0
    · rw [if_neg otherTask, if_neg otherEngine, if_pos trials] at h
      cases h
    rw [if_neg otherTask, if_neg otherEngine, if_neg trials] at h
    obtain ⟨evaluations, hevaluations, h⟩ := bind_ok h
    push Not at otherTask otherEngine trials
    exact ⟨family, evaluations, hfamily, ⟨otherTask, otherEngine, trials.1, trials.2⟩, hevaluations,
      h⟩
  · rintro ⟨family, evaluations, hfamily, input, hevaluations, h⟩
    have trials : ¬ (evaluator.trialCount < evaluator.benchmarkPolicy.minimumTrials ∨
        evaluator.trialCount % 2 ≠ 0) := by
      have hmin := input.trials
      have heven := input.balanced
      omega
    rw [hfamily]
    change ((if _ then _ else _) : Except _ _) = _
    rw [if_neg (not_not.mpr input.ownTask), if_neg (not_not.mpr input.ownEngine), if_neg trials]
    change (List.mapM _ _ >>= _) = _
    rw [hevaluations]
    exact h

/-- A worker that answers every request of a bundle, each answer bound to its request. -/
def Answers (evaluator : Evaluator K) (task : PrivateTaskV2) (family : QueryFamily)
    (bundle : OptimizationBundle) (P : SandboxResultV2 K → Prop) : Prop :=
  ∀ holdout ∈ holdouts evaluator.generator task family, ∃ request,
    sandboxRequest evaluator.benchmarkPolicy evaluator.trialCount task family.ordered bundle
      holdout.1 = .ok request ∧
    ∃ result, evaluator.workerRunner holdout.2 holdout.1.database request = .ok result ∧
      verifyWorkerEcho request result = .ok () ∧ P result

variable [IsStrictOrderedRing K]

/-- Behind such a worker every bundle has an evaluation. -/
theorem exists_evaluation {evaluator : Evaluator K} {task : PrivateTaskV2} {family : QueryFamily}
    {bundle : OptimizationBundle} {P : SandboxResultV2 K → Prop}
    (accepted : validateAndRegenerateTask evaluator.generator task = .ok family)
    (input : BundleInput evaluator task bundle)
    (answers : Answers evaluator task family bundle P) :
    ∃ evaluations e, (holdouts evaluator.generator task family).mapM
        (evaluateFixture evaluator task family bundle) = .ok evaluations ∧ evaluations ≠ [] ∧
      (∀ item ∈ evaluations, P item.result ∧ 0 ≤ item.score.reward) ∧
      finalizeHoldoutEvaluation evaluator.isWord task bundle family.familyId evaluations = .ok e ∧
      evaluateBundleOnCommittedHoldouts evaluator task bundle = .ok e := by
  have evaluated : ∀ holdout ∈ holdouts evaluator.generator task family, ∃ item,
      evaluateFixture evaluator task family bundle holdout = .ok item ∧
        P item.result ∧ 0 ≤ item.score.reward := by
    intro holdout hholdout
    obtain ⟨request, hrequest, result, hresult, hecho, hP⟩ := answers holdout hholdout
    obtain ⟨score, hscore, nonnegative⟩ := scoreBenchmark_ok evaluator.benchmarkPolicy
      (benchmarkEvidenceFromSandbox result)
    exact ⟨⟨_, result, score⟩,
      evaluateFixture_ok_iff.mpr ⟨request, hrequest, hresult, hecho, hscore, rfl⟩, hP, nonnegative⟩
  obtain ⟨evaluations, hevaluations, items⟩ := exists_mapM evaluated
  have nonempty : evaluations ≠ [] := by
    rintro rfl
    exact holdouts_ne_nil accepted (List.forall₂_nil_right_iff.mp (mapM_ok_iff.mp hevaluations))
  obtain ⟨e, he⟩ := finalizeHoldoutEvaluation_ok evaluator.isWord task bundle family.familyId
    nonempty fun item hitem => (items item hitem).2
  exact ⟨evaluations, e, hevaluations, nonempty, items, he,
    evaluateBundleOnCommittedHoldouts_ok_iff.mpr
      ⟨family, evaluations, accepted, input, hevaluations, he⟩⟩

end Bundle

section Groups

variable {submissions : Submissions} {group : Text × List (Text × OptimizationBundle)}

theorem mem_sortedSubmissions {submission : Text × OptimizationBundle} :
    submission ∈ sortedSubmissions submissions ↔ submission ∈ submissions.val :=
  mem_sortBy

theorem mem_strategyGroups :
    group ∈ strategyGroups submissions ↔
      group.1 ∈ (sortedSubmissions submissions).map (fun s => optimizationStrategyDigest s.2) ∧
        group.2 = under (fun s => optimizationStrategyDigest s.2) (sortedSubmissions submissions)
          group.1 :=
  mem_sortBy.trans mem_groupBy

/-- The members of a group are the submissions with its digest. -/
theorem mem_group_iff (h : group ∈ strategyGroups submissions) {member : Text × OptimizationBundle} :
    member ∈ group.2 ↔
      member ∈ submissions.val ∧ optimizationStrategyDigest member.2 = group.1 := by
  rw [(mem_strategyGroups.mp h).2, mem_under, mem_sortedSubmissions]

theorem exists_group {submission : Text × OptimizationBundle} (h : submission ∈ submissions.val) :
    ∃ group ∈ strategyGroups submissions, submission ∈ group.2 := by
  have hin := mem_sortedSubmissions.mpr h
  refine ⟨(optimizationStrategyDigest submission.2, under (fun s => optimizationStrategyDigest s.2)
    (sortedSubmissions submissions) (optimizationStrategyDigest submission.2)),
    mem_strategyGroups.mpr ⟨List.mem_map_of_mem hin, rfl⟩, mem_under.mpr ⟨hin, rfl⟩⟩

theorem length_strategyGroups_le (submissions : Submissions) :
    (strategyGroups submissions).length ≤ submissions.val.length := by
  rw [strategyGroups, length_sortBy, groupBy, List.length_map, distinct, List.length_reverse]
  refine (List.dedup_sublist _).length_le.trans ?_
  rw [List.length_reverse, List.length_map, sortedSubmissions, length_sortBy]

/-- Every group has a first member, which is evaluated for all of them. -/
theorem exists_canonical (h : group ∈ strategyGroups submissions) :
    ∃ canonical rest, group.2 = canonical :: rest :=
  List.exists_cons_of_ne_nil (members_ne_nil (mem_sortBy.mp h))

end Groups

section Observations

theorem ne_nil_of_accepts {accepts : Text → Bool} (t : Constrained accepts)
    (empty : accepts [] = false) : t.val ≠ [] := by
  intro h
  have haccepts := t.property
  rw [h, empty] at haccepts
  cases haccepts

theorem digestText_ne_nil (domain : Domain) (payload : Json) :
    domainSeparatedDigest domain payload ≠ [] :=
  ne_nil_of_accepts (payloadDigest domain payload) rfl

/-- What an observation takes from the evaluation of its strategy. -/
structure Observes (digest : Text) (e : HoldoutEvaluationV2 K) (minerId : Text)
    (o : EpochObservation K) : Prop where
  minerId : o.minerId = minerId
  available : o.available = true
  correct : o.correct = e.exactPassed
  compliant : o.compliant = e.compliant
  reward : o.reward = e.reward
  strategyDigest : o.strategyDigest = digest

theorem observes_observe {number : K → Text} {task : PublicTaskV2} {epoch : Nat} {digest : Text}
    {e : HoldoutEvaluationV2 K} {minerId : Text} {o : EpochObservation K}
    (h : observe number task epoch digest e minerId = .ok o) : Observes digest e minerId o := by
  unfold observe at h
  split_ifs at h
  obtain rfl := Except.ok.inj h
  exact ⟨rfl, rfl, rfl, rfl, rfl, rfl⟩

/-- Rewards within bounds are observed. -/
theorem exists_observe (number : K → Text) (task : PublicTaskV2) (epoch : Nat) {digest : Text}
    {e : HoldoutEvaluationV2 K} {minerId : Text} (named : minerId ≠ []) (hdigest : digest ≠ [])
    (behavior : e.behaviorDigest ≠ []) (bounds : 0 ≤ e.reward ∧ e.reward ≤ 100) :
    ∃ o, observe number task epoch digest e minerId = .ok o := by
  unfold observe
  rw [dif_pos ⟨⟨named, ne_nil_of_accepts task.benchmarkFamilyId rfl, ne_nil_of_accepts task.taskId rfl,
    ne_nil_of_accepts task.commitment rfl, digestText_ne_nil _ _, hdigest, behavior⟩, bounds⟩]
  exact ⟨_, rfl⟩

end Observations

section Cohort

/-- The checks on a cohort in front of its strategies. -/
structure CohortInput (task : PublicTaskV2) (submissions : Submissions)
    (epoch maxUniqueStrategies : Int) : Prop where
  epochNonnegative : 0 ≤ epoch
  nonempty : submissions.val ≠ []
  budgetPositive : 1 ≤ maxUniqueStrategies
  identified : ∀ submission ∈ submissions.val, submission.1 ≠ []
  own : ∀ submission ∈ submissions.val, foreignBundle task submission.2 = none
  withinBudget : ((strategyGroups submissions).length : Int) ≤ maxUniqueStrategies

theorem input_of_own {task : PublicTaskV2} {submissions : Submissions}
    {epoch maxUniqueStrategies : Int} (epochNonnegative : 0 ≤ epoch)
    (nonempty : submissions.val ≠ [])
    (identified : ∀ submission ∈ submissions.val, submission.1 ≠ [])
    (own : ∀ submission ∈ submissions.val, foreignBundle task submission.2 = none)
    (budget : (submissions.val.length : Int) ≤ maxUniqueStrategies) :
    CohortInput task submissions epoch maxUniqueStrategies where
  epochNonnegative := epochNonnegative
  nonempty := nonempty
  budgetPositive := by
    have hpos := List.length_pos_iff.mpr nonempty
    omega
  identified := identified
  own := own
  withinBudget := by
    have hle := length_strategyGroups_le submissions
    omega

theorem foreignBundle_eq_none_iff {task : PublicTaskV2} {bundle : OptimizationBundle} :
    foreignBundle task bundle = none ↔
      bundle.taskId = task.taskId ∧ bundle.engineImageDigest = task.engineImageDigest := by
  unfold foreignBundle
  by_cases otherTask : bundle.taskId = task.taskId
  · by_cases otherEngine : bundle.engineImageDigest = task.engineImageDigest
    · simp [otherTask, otherEngine]
    · simp [otherTask, otherEngine]
  · simp [otherTask]

variable [FloorSemiring K] [RealFunctions K] [BinaryFunctions K]

theorem evaluateTaskCohort_ok_iff {evaluator : Evaluator K} {task : PrivateTaskV2}
    {submissions : Submissions} {epoch maxUniqueStrategies : Int} {cohort : CohortEvaluationV2 K} :
    evaluateTaskCohort evaluator task submissions epoch maxUniqueStrategies = .ok cohort ↔
      CohortInput task.publicTask submissions epoch maxUniqueStrategies ∧
        ∃ outcomes, (strategyGroups submissions).mapM
            (evaluateStrategy evaluator task epoch.toNat) = .ok outcomes ∧
          cohort = cohortEvaluation task.publicTask submissions outcomes := by
  unfold evaluateTaskCohort
  constructor
  · intro h
    by_cases negative : epoch < 0
    · rw [if_pos negative] at h
      cases h
    rw [if_neg negative] at h
    by_cases empty : submissions.val = []
    · rw [if_pos empty] at h
      cases h
    rw [if_neg empty] at h
    by_cases limit : maxUniqueStrategies < 1
    · rw [if_pos limit] at h
      cases h
    rw [if_neg limit] at h
    by_cases unnamed : (submissions.val.any fun s => decide (s.1 = [])) = true
    · rw [if_pos unnamed] at h
      cases h
    rw [if_neg unnamed] at h
    cases foreign : (sortedSubmissions submissions).findSome? fun submission =>
        foreignBundle task.publicTask submission.2 with
    | some error =>
      rw [foreign] at h
      cases h
    | none =>
      rw [foreign] at h
      dsimp only at h
      by_cases budget : ((strategyGroups submissions).length : Int) > maxUniqueStrategies
      · rw [if_pos budget] at h
        cases h
      rw [if_neg budget] at h
      obtain ⟨outcomes, houtcomes, h⟩ := bind_ok h
      refine ⟨⟨not_lt.mp negative, empty, not_lt.mp limit, ?_, ?_, not_lt.mp budget⟩, outcomes,
        houtcomes, (Except.ok.inj h).symm⟩
      · intro s hs hname
        exact unnamed (List.any_eq_true.mpr ⟨s, hs, decide_eq_true hname⟩)
      · intro s hs
        exact List.findSome?_eq_none_iff.mp foreign s (mem_sortedSubmissions.mpr hs)
  · rintro ⟨input, outcomes, houtcomes, rfl⟩
    have unnamed : ¬ (submissions.val.any fun s => decide (s.1 = [])) = true := by
      intro h
      obtain ⟨s, hs, hname⟩ := List.any_eq_true.mp h
      exact input.identified s hs (of_decide_eq_true hname)
    have foreign : ((sortedSubmissions submissions).findSome? fun submission =>
        foreignBundle task.publicTask submission.2) = none :=
      List.findSome?_eq_none_iff.mpr fun s hs => input.own s (mem_sortedSubmissions.mp hs)
    rw [if_neg (not_lt.mpr input.epochNonnegative), if_neg input.nonempty,
      if_neg (not_lt.mpr input.budgetPositive), if_neg unnamed, foreign]
    dsimp only
    rw [if_neg (not_lt.mpr input.withinBudget), houtcomes]
    rfl

theorem evaluateStrategy_ok_iff {evaluator : Evaluator K} {task : PrivateTaskV2} {epoch : Nat}
    {group : Text × List (Text × OptimizationBundle)} {canonical : Text × OptimizationBundle}
    {rest : List (Text × OptimizationBundle)} (members : group.2 = canonical :: rest)
    {outcome : StrategyOutcome K} :
    evaluateStrategy evaluator task epoch group = .ok outcome ↔
      evaluateBundleOnCommittedHoldouts evaluator task canonical.2 = .ok outcome.evaluation ∧
        outcome.evaluation.strategyDigest = group.1 ∧
        (group.2.mapM fun member => observe evaluator.number task.publicTask epoch group.1
          outcome.evaluation member.1) = .ok outcome.observations ∧
        outcome.strategyDigest = group.1 := by
  unfold evaluateStrategy
  rw [members]
  dsimp only
  constructor
  · intro h
    obtain ⟨evaluation, hevaluation, h⟩ := bind_ok h
    by_cases digest : evaluation.strategyDigest ≠ group.1
    · rw [if_pos digest] at h
      cases h
    rw [if_neg digest] at h
    obtain ⟨observations, hobservations, h⟩ := bind_ok h
    obtain rfl := Except.ok.inj h
    exact ⟨hevaluation, not_not.mp digest, hobservations, rfl⟩
  · rintro ⟨hevaluation, hdigest, hobservations, hgroup⟩
    rw [hevaluation]
    change ((if _ then _ else _) : Except _ _) = _
    rw [if_neg (not_not.mpr hdigest)]
    rw [hobservations, ← hgroup]
    rfl

/-- The observations of a cohort, each with the group and the evaluation behind it. -/
theorem mem_observations_iff {evaluator : Evaluator K} {task : PrivateTaskV2}
    {submissions : Submissions} {epoch maxUniqueStrategies : Int} {cohort : CohortEvaluationV2 K}
    (h : evaluateTaskCohort evaluator task submissions epoch maxUniqueStrategies = .ok cohort)
    {o : EpochObservation K} :
    o ∈ cohort.observations ↔ ∃ group ∈ strategyGroups submissions, ∃ canonical ∈ group.2.head?,
      ∃ e, evaluateBundleOnCommittedHoldouts evaluator task canonical.2 = .ok e ∧
        ∃ member ∈ group.2,
          observe evaluator.number task.publicTask epoch.toNat group.1 e member.1 = .ok o := by
  obtain ⟨-, outcomes, houtcomes, rfl⟩ := evaluateTaskCohort_ok_iff.mp h
  have listed : o ∈ (cohortEvaluation task.publicTask submissions outcomes).observations ↔
      ∃ outcome ∈ outcomes, o ∈ outcome.observations :=
    mem_sortBy.trans List.mem_flatMap
  rw [listed]
  constructor
  · rintro ⟨outcome, houtcome, ho⟩
    obtain ⟨group, hgroup, hrun⟩ := exists_of_mem_mapM houtcomes houtcome
    obtain ⟨canonical, rest, members⟩ := exists_canonical hgroup
    obtain ⟨hevaluation, -, hobservations, -⟩ := (evaluateStrategy_ok_iff members).mp hrun
    obtain ⟨member, hmember, hobserve⟩ := exists_of_mem_mapM hobservations ho
    exact ⟨group, hgroup, canonical, by rw [members]; rfl, _, hevaluation, member, hmember, hobserve⟩
  · rintro ⟨group, hgroup, canonical, hcanonical, e, he, member, hmember, hobserve⟩
    obtain ⟨outcome, houtcome, hrun⟩ := ok_of_mapM houtcomes group hgroup
    obtain ⟨first, rest, members⟩ := exists_canonical hgroup
    obtain ⟨hevaluation, -, hobservations, -⟩ := (evaluateStrategy_ok_iff members).mp hrun
    rw [members] at hcanonical
    obtain rfl : first = canonical := Option.some.inj hcanonical
    rw [he] at hevaluation
    obtain rfl := Except.ok.inj hevaluation
    obtain ⟨p, hp, hobserved⟩ := ok_of_mapM hobservations member hmember
    rw [hobserve] at hobserved
    obtain rfl := Except.ok.inj hobserved
    exact ⟨outcome, houtcome, hp⟩

/-- Every strategy of an accepted cohort has an evaluation, and each of its
miners an observation of it. -/
theorem strategy_evaluated {evaluator : Evaluator K} {task : PrivateTaskV2}
    {submissions : Submissions} {epoch maxUniqueStrategies : Int} {cohort : CohortEvaluationV2 K}
    (h : evaluateTaskCohort evaluator task submissions epoch maxUniqueStrategies = .ok cohort)
    {group : Text × List (Text × OptimizationBundle)} (hgroup : group ∈ strategyGroups submissions)
    {canonical : Text × OptimizationBundle} (hcanonical : canonical ∈ group.2.head?) :
    ∃ e, evaluateBundleOnCommittedHoldouts evaluator task canonical.2 = .ok e ∧
      ∀ member ∈ group.2, ∃ o ∈ cohort.observations, Observes group.1 e member.1 o := by
  obtain ⟨-, outcomes, houtcomes, -⟩ := evaluateTaskCohort_ok_iff.mp h
  obtain ⟨outcome, -, hrun⟩ := ok_of_mapM houtcomes group hgroup
  obtain ⟨first, rest, members⟩ := exists_canonical hgroup
  obtain ⟨hevaluation, -, hobservations, -⟩ := (evaluateStrategy_ok_iff members).mp hrun
  have same : first = canonical := by
    rw [members] at hcanonical
    exact Option.some.inj hcanonical
  rw [same] at hevaluation
  refine ⟨outcome.evaluation, hevaluation, fun member hmember => ?_⟩
  obtain ⟨o, -, ho⟩ := ok_of_mapM hobservations member hmember
  exact ⟨o, (mem_observations_iff h).mpr ⟨group, hgroup, canonical, hcanonical, _, hevaluation,
    member, hmember, ho⟩, observes_observe ho⟩

variable [IsStrictOrderedRing K]

/-- A cohort whose results are all incorrect is accepted, with no reward. -/
theorem exists_cohort {evaluator : Evaluator K} {task : PrivateTaskV2} {family : QueryFamily}
    {submissions : Submissions} {epoch maxUniqueStrategies : Int}
    (accepted : validateAndRegenerateTask evaluator.generator task = .ok family)
    (input : CohortInput task.publicTask submissions epoch maxUniqueStrategies)
    (trials : evaluator.benchmarkPolicy.minimumTrials ≤ evaluator.trialCount ∧
      evaluator.trialCount % 2 = 0)
    (answers : ∀ submission ∈ submissions.val,
      Answers evaluator task family submission.2 fun result => result.correct = false) :
    ∃ cohort, evaluateTaskCohort evaluator task submissions epoch maxUniqueStrategies =
      .ok cohort := by
  have evaluated : ∀ group ∈ strategyGroups submissions, ∃ outcome,
      evaluateStrategy evaluator task epoch.toNat group = .ok outcome ∧ True := by
    intro group hgroup
    obtain ⟨canonical, rest, members⟩ := exists_canonical hgroup
    have first := (mem_group_iff hgroup).mp (members ▸ List.mem_cons_self)
    obtain ⟨ownTask, ownEngine⟩ := foreignBundle_eq_none_iff.mp (input.own canonical first.1)
    obtain ⟨evaluations, e, -, nonempty, items, he, hevaluation⟩ := exists_evaluation accepted
      ⟨ownTask, ownEngine, trials.1, trials.2⟩ (answers canonical first.1)
    have finalized := finalizeHoldoutEvaluation_finalized he
    have reward : e.reward = 0 := by
      rcases finalized.reward with ⟨rewarded, -⟩ | ⟨-, zero⟩
      · obtain ⟨item, hitem⟩ := List.exists_mem_of_ne_nil _ nonempty
        have incorrect := (items item hitem).1
        rw [rewarded.correct item hitem] at incorrect
        cases incorrect
      · exact zero
    have behavior : e.behaviorDigest ≠ [] := by
      rw [finalized.behaviorDigest]
      exact digestText_ne_nil _ _
    have observed : ∀ member ∈ group.2, ∃ o, observe evaluator.number task.publicTask epoch.toNat
        group.1 e member.1 = .ok o ∧ True := by
      intro member hmember
      have hin := ((mem_group_iff hgroup).mp hmember).1
      have digest : group.1 ≠ [] := by
        rw [← first.2]
        exact digestText_ne_nil _ _
      have bounds : 0 ≤ e.reward ∧ e.reward ≤ 100 := by
        rw [reward]
        norm_num
      obtain ⟨o, ho⟩ := exists_observe evaluator.number task.publicTask epoch.toNat
        (input.identified member hin) digest behavior bounds
      exact ⟨o, ho, trivial⟩
    obtain ⟨observations, hobservations, -⟩ := exists_mapM observed
    refine ⟨⟨group.1, e, observations⟩, (evaluateStrategy_ok_iff members).mpr
      ⟨hevaluation, finalized.strategyDigest.trans first.2, hobservations, rfl⟩, trivial⟩
  obtain ⟨outcomes, houtcomes, -⟩ := exists_mapM evaluated
  exact ⟨_, evaluateTaskCohort_ok_iff.mpr ⟨input, outcomes, houtcomes, rfl⟩⟩

end Cohort

/-! A task of one family with two fixtures, and bundles that index its orders. -/
namespace Sample

theorem default_winsor : (0 : ℝ) ≤ 1 / 10 ∧ (1 / 10 : ℝ) < 1 / 2 := by norm_num

theorem default_timeout : (0 : ℝ) ≤ 1 / 5 ∧ (1 / 5 : ℝ) < 1 := by norm_num

theorem default_penalty : (0 : ℝ) ≤ 1 / 10 := by norm_num

noncomputable def benchmarkPolicy : BenchmarkPolicy ℝ where
  horizonsPositive := by decide
  oneWeightEach := rfl
  weightsNonnegative := by norm_num
  weightsSumToOne := by norm_num
  trialsBound := by decide
  winsorBounds := default_winsor
  zNonnegative := by norm_num
  timeoutBounds := default_timeout
  penaltyNonnegative := default_penalty

theorem default_times : ((0 : ℝ) < 20 ∧ (20 : ℝ) ≤ 60) ∧ (10 ≤ 750 ∧ 750 ≤ 10000) ∧
    (1 ≤ 10 ∧ 10 ≤ 30) := by
  norm_num

noncomputable def sandboxPolicy : SandboxPolicy ℝ where
  timeBounds := default_times
  memoryBounds := by decide
  resultBounds := by decide
  transferBounds := by decide

noncomputable def host : Host ℝ where
  number := fun _ => ['0']
  generatorSourceDigest := TaskModels.Sample.digest.val
  sqliteVersion := pinnedSqliteVersion

def digest : Sha256Digest := TaskModels.Sample.digest

def parameters : List ParameterValue := [.integer 100]

def familyId : BenchmarkFamilyId := ⟨nullableCoupon.familyId, by decide⟩

def fixture (fixtureId : SafeIdentifier) : GeneratedFixture where
  descriptor := {
    fixtureId := fixtureId
    contentDigest := digest
    databaseFileDigest := some digest
    parameterSetDigest :=
      ⟨fixtureParameterSetDigest familyId parameters, isSha256Digest_digestText _⟩
    rowCount := 9 }
  parameters := parameters
  database := ⟨some 4096, true, digest.val, some digest.val⟩

theorem first_isSafe : isSafeIdentifier "first".toList = true := by decide

theorem second_isSafe : isSafeIdentifier "second".toList = true := by decide

def first : GeneratedFixture := fixture ⟨"first".toList, first_isSafe⟩

def second : GeneratedFixture := fixture ⟨"second".toList, second_isSafe⟩

def training : GeneratedFixture := fixture ⟨"training".toList, by decide⟩

def generator : Generator := ⟨fun _ _ => [first, second], fun _ => training⟩

def budget : ArtifactBudget where
  maxBundleBytes := 1024
  indexesBound := ArtifactBudget.default.indexesBound
  columnsBound := ArtifactBudget.default.columnsBound
  predicatesBound := ArtifactBudget.default.predicatesBound
  bytesBound := by decide

noncomputable def arguments : TaskArguments where
  validatorHotkey := TaskModels.Sample.validatorHotkey
  engineImageDigest := digest
  generatorSourceDigest := digest
  benchmarkPolicyDigest :=
    ⟨benchmarkRuntimePolicyDigest host.number sandboxPolicy benchmarkPolicy 6 true .binary,
      isSha256Digest_digestText _⟩
  benchmarkFamilyId := familyId
  schemaSql := ⟨schemaV2, by decide +kernel⟩
  referenceSql := ⟨nullableCoupon.sql, by decide +kernel⟩
  publicTrainingFixture := ⟨training.descriptor.fixtureId, ⟨publicTrainingSeedHex, by decide +kernel⟩,
    training.descriptor.contentDigest, training.descriptor.rowCount⟩
  parameterRanges := publishedParameterRanges nullableCoupon.familyId
  publishedStatistics := TaskModels.Sample.statistics
  deadlineUnixMs := 3000
  hiddenFixtureFactory := regenerate generator nullableCoupon
  artifactBudget := some budget

def reveal : TaskRevealV2 where
  taskId := sampleReveal.taskId
  secretSeedHex := sampleReveal.secretSeedHex
  saltHex := sampleReveal.saltHex
  hiddenFixtures := [first.descriptor, second.descriptor]
  hiddenFixtureMerkleRoot :=
    nodeDigest (leafDigest (first.descriptor, 0)) (leafDigest (second.descriptor, 1))
  fixtureBounds := by decide

theorem arguments_valid : 1 ≤ arguments.parameterRanges.length ∧ 0 < arguments.deadlineUnixMs := by
  have ranges : arguments.parameterRanges = publishedParameterRanges nullableCoupon.familyId := rfl
  have deadline : arguments.deadlineUnixMs = 3000 := rfl
  rw [ranges, deadline]
  decide +kernel

noncomputable def task : PrivateTaskV2 where
  publicTask := publicTaskOf arguments reveal.taskId reveal arguments_valid
  reveal := reveal

theorem not_covering : false = true → ([] : List SafeIdentifier) = [] := fun _ => rfl

def dayIndex : IndexSpec where
  table := ⟨"orders".toList, by decide⟩
  keyColumns := [⟨⟨"created_day".toList, by decide⟩, .asc⟩]
  includeColumns := []
  unique := false
  predicate := none
  keyBounds := by decide
  includeBounds := by decide
  rejectDuplicateColumns := by decide
  rejectUniqueCovering := not_covering

/-- A bundle with one index and a rationale of its own. -/
def bundle (rationale : Text) (short : rationale.length ≤ 512) : OptimizationBundle :=
  .create reveal.taskId digest [dayIndex] ⟨"days".toList, .filter, rationale, by decide, short⟩
    (by decide)

theorem reveal_accepted (regenerated : Option HiddenFixtureFactory)
    (h : ∀ factory ∈ regenerated, factory = regenerate generator nullableCoupon) :
    auditTaskReveal task.publicTask task.reveal regenerated = .ok true := by
  refine auditTaskReveal_ok_iff.mpr ⟨rfl, rfl, ?_, ?_, ?_⟩
  · exact hiddenFixtureMerkleRoot_pair _ _
  · intro factory hfactory
    rw [h factory hfactory]
    rfl
  · exact congrArg (fun terms => commitmentDigest reveal.taskId terms reveal)
      (publicTerms_publicTaskOf arguments reveal.taskId reveal arguments_valid).symm

theorem holdout_is_fixture {holdout : GeneratedFixture × Nat}
    (h : holdout ∈ holdouts generator task nullableCoupon) :
    (∃ fixtureId, holdout.1 = fixture fixtureId) ∧
      holdout.1.descriptor ∈ task.reveal.hiddenFixtures := by
  have two : holdout ∈ [(first, 0), (second, 1)] := h
  rcases List.mem_cons.mp two with rfl | two
  · exact ⟨⟨_, rfl⟩, List.mem_cons_self⟩
  · obtain rfl := List.mem_singleton.mp two
    exact ⟨⟨_, rfl⟩, List.mem_cons_of_mem _ List.mem_cons_self⟩

theorem exists_request (bundle : OptimizationBundle) (ownTask : bundle.taskId = reveal.taskId)
    (ownEngine : bundle.engineImageDigest = digest) {holdout : GeneratedFixture × Nat}
    (h : holdout ∈ holdouts generator task nullableCoupon) :
    ∃ request, sandboxRequest benchmarkPolicy 6 task true bundle holdout.1 = .ok request := by
  obtain ⟨⟨fixtureId, hfixture⟩, committed⟩ := holdout_is_fixture h
  have parameters : holdout.1.parameters.length ≤ 32 := by
    rw [hfixture]
    exact Nat.le_of_ble_eq_true rfl
  exact sandboxRequest_ok_iff.mpr
    ⟨parameters, ⟨by decide, by decide⟩, by decide, ⟨ownTask, rfl⟩, ownEngine, committed⟩

/-- The database of a fixture is within the limits. -/
theorem present {holdout : GeneratedFixture × Nat}
    (h : holdout ∈ holdouts generator task nullableCoupon) :
    safeDatabaseSize sandboxPolicy holdout.1.database = .ok 4096 := by
  obtain ⟨⟨fixtureId, hfixture⟩, -⟩ := holdout_is_fixture h
  rw [hfixture]
  rfl

/-- The task passes the checks that do not look at the bundle. -/
theorem taskFailure_eq_none {bundle : OptimizationBundle} {holdout : GeneratedFixture × Nat}
    (h : holdout ∈ holdouts generator task nullableCoupon) {request : SandboxRequestV2 ℝ}
    (of : RequestOf benchmarkPolicy 6 task true bundle holdout.1 request) :
    taskFailure host sandboxPolicy holdout.1.database request = none := by
  obtain ⟨⟨fixtureId, hfixture⟩, -⟩ := holdout_is_fixture h
  have audit : auditTaskReveal request.task request.reveal none = .ok true := by
    rw [of.ofTask, of.ofReveal]
    exact reveal_accepted none (by simp)
  have source : request.task.generatorSourceDigest.val = host.generatorSourceDigest := by
    rw [of.ofTask]
    rfl
  have runtime : request.task.benchmarkPolicyDigest.val = benchmarkRuntimePolicyDigest host.number
      sandboxPolicy request.benchmarkPolicy request.trialCount request.ordered request.collation := by
    rw [of.ofTask, of.ofPolicy, of.ofTrials, of.ofOrder.1, of.ofOrder.2]
    rfl
  refine taskFailure_eq_none_iff.mpr
    ⟨audit, source, runtime, request.committedFixture, digest, ?_, ?_, ?_, ?_⟩
  · rw [of.ofFixture, hfixture]
    rfl
  · rw [hfixture]
    rfl
  · rw [of.ofFixture, hfixture]
    rfl
  · rw [of.ofTask, of.ofParameters, of.ofFixture, hfixture]
    rfl

theorem find_family : (queryFamilies.find? fun family => family.familyId = familyId.val) =
    some nullableCoupon := by
  have others : ∀ family ∈ [paidRevenueBySegment, customerOrderThreshold, boundedRangeScan,
      regionChannelAggregate], family.familyId ≠ nullableCoupon.familyId := by
    decide +kernel
  simp only [List.forall_mem_cons, List.not_mem_nil, false_implies, implies_true, and_true]
    at others
  obtain ⟨h₁, h₂, h₃, h₄⟩ := others
  have hid : familyId.val = nullableCoupon.familyId := rfl
  simp only [queryFamilies, List.find?_cons, hid, h₁, h₂, h₃, h₄, decide_false, decide_true]

theorem task_accepted : validateAndRegenerateTask generator task = .ok nullableCoupon := by
  have trained : trainingMatches task.publicTask.publicTrainingFixture
      (generator.training nullableCoupon) = true := by
    have published : task.publicTask.publicTrainingFixture = arguments.publicTrainingFixture := rfl
    rw [published, trainingMatches]
    simp only [arguments, generator, decide_true, Bool.and_self]
  exact validateAndRegenerateTask_ok_iff.mpr
    ⟨find_family, reveal_accepted _ (by simp), rfl, rfl, rfl, trained⟩

end Sample

end CohortEvaluation
