import PlanRace.CohortEvaluation

/-!
# Failures that are not the candidate's

When the reference arm or the worker fails, `score_benchmark` marks the
benchmark invalid. The cohort records it all the same, as an available
observation without reward, so the documented rule holds of no such failure.
-/

namespace InvalidEvidence

open JsonText IndexAst TaskgenV2 BenchmarkScoring SandboxV2 BenchmarkV2 StrategyDigest ScoringV2
  EvaluationV2 SandboxRuns CohortEvaluation

variable {K : Type} [Field K] [LinearOrder K]

section Failures

variable [IsStrictOrderedRing K]

/-- A failure of the worker process or of the reference arm, with the result
that it leaves. -/
inductive Failure (request : SandboxRequestV2 K) (result : SandboxResultV2 K) : Prop where
  /-- The process crashed, timed out or broke its limits. -/
  | stopped (status : ProcessStatus) (databaseBytes bytes : Nat)
      (left : result = failure request (.worker status) databaseBytes bytes)
  | malformed (databaseBytes bytes : Nat)
      (left : result = failure request .workerMalformedOutput databaseBytes bytes)
  /-- A run of the reference query raised. -/
  | baseline (policy : SandboxPolicy K) (engine : Engine K) (fault : Fault)
      (databaseBytes bytes : Nat)
      (raised : evaluateRequest policy databaseBytes engine request =
        .error (some .baseline, fault))
      (left : result = failure request fault.code databaseBytes bytes)

/-- The container boundary reports a process that did not end well as such. -/
theorem failure_of_stopped {policy : SandboxPolicy K} {database : DatabaseFile}
    {request : SandboxRequestV2 K} {databaseBytes : Nat}
    (present : safeDatabaseSize policy database = .ok databaseBytes)
    {outcome : ProcessOutcome K} (stopped : outcome.status ≠ .ok) :
    ∃ result, runDockerWorker policy (some request.bundle.engineImageDigest.val) true database request
        outcome = .ok result ∧ Failure request result := by
  unfold runDockerWorker
  rw [present]
  dsimp only
  rw [if_neg (by simp), if_neg (by simp), if_pos stopped]
  exact ⟨_, rfl, .stopped outcome.status _ _ rfl⟩

/-- No failure of this kind leaves trials, or a correct or compliant result. -/
theorem Failure.empty {request : SandboxRequestV2 K} {result : SandboxResultV2 K}
    (h : Failure request result) :
    result.trials = [] ∧ result.correct = false ∧ result.compliant = false := by
  cases h with
  | stopped _ _ _ left =>
    subst left
    exact ⟨rfl, rfl, rfl⟩
  | malformed _ _ left =>
    subst left
    exact ⟨rfl, rfl, rfl⟩
  | baseline _ _ _ _ _ _ left =>
    subst left
    exact ⟨rfl, rfl, rfl⟩

theorem Failure.echo {request : SandboxRequestV2 K} {result : SandboxResultV2 K}
    (h : Failure request result) : verifyWorkerEcho request result = .ok () := by
  cases h with
  | stopped _ _ _ left =>
    rw [left]
    exact echo_failure _ _ _ _
  | malformed _ _ left =>
    rw [left]
    exact echo_failure _ _ _ _
  | baseline _ _ _ _ _ _ left =>
    rw [left]
    exact echo_failure _ _ _ _

end Failures

section Evidence

variable [FloorSemiring K] [RealFunctions K] [BinaryFunctions K]

/-- `score_benchmark` finds the benchmark of a result invalid. -/
def InvalidBenchmark (policy : BenchmarkPolicy K) (result : SandboxResultV2 K) : Prop :=
  ∃ score, scoreBenchmark policy (benchmarkEvidenceFromSandbox result) = .ok score ∧
    score.benchmarkValid = false

theorem invalidBenchmark_of_no_trials (policy : BenchmarkPolicy K) {result : SandboxResultV2 K}
    (h : result.trials = []) : InvalidBenchmark policy result := by
  have trials : (benchmarkEvidenceFromSandbox result).trials = [] := by
    rw [benchmarkEvidenceFromSandbox, h, List.map_nil]
  exact ⟨_, scoreBenchmark_of_no_trials policy trials, rfl⟩

variable [IsStrictOrderedRing K]

/-- On some fixture of the strategy the reference arm or the worker fails, or
the benchmark is invalid. -/
def StrategyFails (evaluator : Evaluator K) (task : PrivateTaskV2)
    (group : Text × List (Text × OptimizationBundle)) : Prop :=
  ∃ canonical ∈ group.2.head?, ∃ family,
    validateAndRegenerateTask evaluator.generator task = .ok family ∧
    ∃ holdout ∈ holdouts evaluator.generator task family, ∃ request,
      sandboxRequest evaluator.benchmarkPolicy evaluator.trialCount task family.ordered
        canonical.2 holdout.1 = .ok request ∧
      ∃ result, evaluator.workerRunner holdout.2 holdout.1.database request = .ok result ∧
        (Failure request result ∨ InvalidBenchmark evaluator.benchmarkPolicy result)

/-- An available observation that counts against its miner. -/
def Lowered (o : EpochObservation K) : Prop :=
  o.available = true ∧ (o.correct = false ∨ o.compliant = false ∨ o.reward = 0)

/-- The documented rule for one strategy: what fails without the candidate's
doing is not recorded against its miners. -/
def NoUpdate (evaluator : Evaluator K) (task : PrivateTaskV2) (cohort : CohortEvaluationV2 K)
    (group : Text × List (Text × OptimizationBundle)) : Prop :=
  StrategyFails evaluator task group →
    ∀ member ∈ group.2, ∀ o ∈ cohort.observations, o.minerId = member.1 → ¬ Lowered o

/-- A strategy with such a failure is evaluated to no reward. -/
theorem reward_eq_zero_of_fails {evaluator : Evaluator K} {task : PrivateTaskV2}
    {group : Text × List (Text × OptimizationBundle)} (fails : StrategyFails evaluator task group)
    {canonical : Text × OptimizationBundle} (hcanonical : canonical ∈ group.2.head?)
    {e : HoldoutEvaluationV2 K}
    (he : evaluateBundleOnCommittedHoldouts evaluator task canonical.2 = .ok e) : e.reward = 0 := by
  obtain ⟨first, hfirst, family, hfamily, holdout, hholdout, request, hrequest, result, hresult,
    broken⟩ := fails
  obtain rfl := Option.mem_unique hcanonical hfirst
  obtain ⟨family', evaluations, hfamily', -, hevaluations, hfinal⟩ :=
    evaluateBundleOnCommittedHoldouts_ok_iff.mp he
  rw [hfamily] at hfamily'
  obtain rfl := Except.ok.inj hfamily'
  obtain ⟨item, hitem, hrun⟩ := Fallible.ok_of_mapM hevaluations holdout hholdout
  obtain ⟨request', hrequest', hresult', -, hscore, -⟩ := evaluateFixture_ok_iff.mp hrun
  rw [hrequest] at hrequest'
  obtain rfl := Except.ok.inj hrequest'
  rw [hresult] at hresult'
  obtain hitemResult := Except.ok.inj hresult'
  have invalid : InvalidBenchmark evaluator.benchmarkPolicy result := by
    rcases broken with failed | invalid
    · exact invalidBenchmark_of_no_trials _ failed.empty.1
    · exact invalid
  obtain ⟨score, hinvalid, valid⟩ := invalid
  rw [hitemResult, hscore] at hinvalid
  obtain hitemScore := Except.ok.inj hinvalid
  rcases (finalizeHoldoutEvaluation_finalized hfinal).reward with ⟨rewarded, -⟩ | ⟨-, zero⟩
  · have hvalid := rewarded.valid item hitem
    rw [hitemScore, valid] at hvalid
    cases hvalid
  · exact zero

/-- An accepted cohort follows the documented rule exactly when it has no
failure that the rule is about. -/
theorem noUpdate_iff_no_failure (evaluator : Evaluator K) (task : PrivateTaskV2)
    (submissions : Submissions) (epoch maxUniqueStrategies : Int) (cohort : CohortEvaluationV2 K)
    (accepted : evaluateTaskCohort evaluator task submissions epoch maxUniqueStrategies =
      .ok cohort) :
    (∀ group ∈ strategyGroups submissions, NoUpdate evaluator task cohort group) ↔
      ∀ group ∈ strategyGroups submissions, ¬ StrategyFails evaluator task group := by
  constructor
  · intro rule group hgroup fails
    obtain ⟨canonical, rest, members⟩ := exists_canonical hgroup
    have hcanonical : canonical ∈ group.2.head? := by
      rw [members]
      rfl
    have hmember : canonical ∈ group.2 := List.mem_of_mem_head? hcanonical
    obtain ⟨e, he, observed⟩ := strategy_evaluated accepted hgroup hcanonical
    obtain ⟨o, ho, observes⟩ := observed canonical hmember
    have zero : o.reward = 0 :=
      observes.reward.trans (reward_eq_zero_of_fails fails hcanonical he)
    exact rule group hgroup fails canonical hmember o ho observes.minerId
      ⟨observes.available, .inr (.inr zero)⟩
  · intro none group hgroup fails
    exact absurd fails (none group hgroup)

end Evidence

/-! A worker that crashes on every fixture. -/
namespace Sample

open CohortEvaluation.Sample

noncomputable def crashing : Evaluator ℝ where
  generator := generator
  benchmarkPolicy := benchmarkPolicy
  workerRunner := fun _ database request =>
    runDockerWorker sandboxPolicy (some digest.val) true database request ⟨.crash, none⟩
  number := host.number
  isWord := Char.isAlphanum

def miner : Text := "miner".toList

def submissions : Submissions := ⟨[(miner, bundle [] rationaleBound_nil)], by simp⟩

theorem crashing_answers (holdout : GeneratedFixture × Nat)
    (h : holdout ∈ holdouts generator task nullableCoupon) :
    ∃ request, sandboxRequest benchmarkPolicy 6 task true (bundle [] (by decide)) holdout.1 =
        .ok request ∧
      ∃ result, crashing.workerRunner holdout.2 holdout.1.database request = .ok result ∧
        Failure request result := by
  obtain ⟨request, hrequest⟩ := exists_request (bundle [] (by decide)) rfl rfl h
  have engine : request.bundle.engineImageDigest = digest := by
    rw [(requestOf_sandboxRequest hrequest).ofBundle]
    rfl
  have stopped : ∃ result, runDockerWorker sandboxPolicy
      (some request.bundle.engineImageDigest.val) true holdout.1.database request ⟨.crash, none⟩ =
        .ok result ∧ Failure request result :=
    failure_of_stopped (present h) (by decide)
  rw [engine] at stopped
  exact ⟨request, hrequest, stopped⟩

theorem own_submission : ∀ submission ∈ submissions.val,
    submission.1 ≠ [] ∧ foreignBundle task.publicTask submission.2 = none := by
  intro submission hsubmission
  obtain rfl := List.mem_singleton.mp hsubmission
  exact ⟨by decide, foreignBundle_eq_none_iff.mpr ⟨rfl, rfl⟩⟩

theorem crashing_cohort :
    ∃ cohort, evaluateTaskCohort crashing task submissions 0 64 = .ok cohort := by
  have input : CohortInput task.publicTask submissions 0 64 :=
    input_of_own (le_refl 0) (List.cons_ne_nil _ _) (fun s hs => (own_submission s hs).1)
      (fun s hs => (own_submission s hs).2) (by decide)
  refine exists_cohort task_accepted input ⟨by decide, by decide⟩ ?_
  intro submission hsubmission holdout hholdout
  obtain rfl := List.mem_singleton.mp hsubmission
  obtain ⟨request, hrequest, result, hresult, failed⟩ := crashing_answers holdout hholdout
  exact ⟨request, hrequest, result, hresult, failed.echo, failed.empty.2.1⟩

end Sample

theorem noUpdate_iff_crashing :
    ∃ cohort, evaluateTaskCohort Sample.crashing CohortEvaluation.Sample.task Sample.submissions 0 64 =
        .ok cohort ∧
      ((∀ group ∈ strategyGroups Sample.submissions,
          NoUpdate Sample.crashing CohortEvaluation.Sample.task cohort group) ↔
        ∀ group ∈ strategyGroups Sample.submissions,
          ¬ StrategyFails Sample.crashing CohortEvaluation.Sample.task group) := by
  obtain ⟨cohort, accepted⟩ := Sample.crashing_cohort
  exact ⟨cohort, accepted, noUpdate_iff_no_failure _ _ _ _ _ _ accepted⟩

/-- A crash of the worker becomes an available observation without reward. -/
theorem crash_counts_against_miner :
    ∃ cohort, evaluateTaskCohort Sample.crashing CohortEvaluation.Sample.task Sample.submissions 0 64 =
        .ok cohort ∧
      ∃ group ∈ strategyGroups Sample.submissions,
        ¬ NoUpdate Sample.crashing CohortEvaluation.Sample.task cohort group := by
  obtain ⟨cohort, accepted⟩ := Sample.crashing_cohort
  have submitted : (Sample.miner, CohortEvaluation.Sample.bundle [] (by decide)) ∈
      Sample.submissions.val := List.mem_cons_self
  obtain ⟨group, hgroup, -⟩ := exists_group submitted
  obtain ⟨canonical, rest, members⟩ := exists_canonical hgroup
  have hcanonical : canonical ∈ group.2.head? := by
    rw [members]
    rfl
  have hmember : canonical ∈ group.2 := List.mem_of_mem_head? hcanonical
  have only := List.mem_singleton.mp ((mem_group_iff hgroup).mp hmember).1
  have fails : StrategyFails Sample.crashing CohortEvaluation.Sample.task group := by
    have holdout : (CohortEvaluation.Sample.first, 0) ∈ holdouts CohortEvaluation.Sample.generator
        CohortEvaluation.Sample.task nullableCoupon := List.mem_cons_self
    obtain ⟨request, hrequest, result, hresult, failed⟩ := Sample.crashing_answers _ holdout
    refine ⟨canonical, hcanonical, nullableCoupon, CohortEvaluation.Sample.task_accepted, _, holdout,
      request, ?_, result, hresult, .inl failed⟩
    rw [only]
    exact hrequest
  obtain ⟨e, he, observed⟩ := strategy_evaluated accepted hgroup hcanonical
  obtain ⟨o, ho, observes⟩ := observed canonical hmember
  have zero := observes.reward.trans (reward_eq_zero_of_fails fails hcanonical he)
  exact ⟨cohort, accepted, group, hgroup, fun rule =>
    rule fails canonical hmember o ho observes.minerId ⟨observes.available, .inr (.inr zero)⟩⟩

end InvalidEvidence
