import PlanRace.EvaluationV2
import PlanRace.Library.PythonValues

/-!
# The audit of stored evidence reproduces the signed digest

The validator digests the transcript it holds in memory, with tuples. The audit
digests what a JSON file gives back, with lists. Both meet in one document, which
identifies the transcript up to the artifact digests.
-/

namespace EvidenceAudit

open JsonText ByteStrings CanonicalJson WireText Sha256 IndexAst TaskModels BenchmarkScoring
  SandboxV2 BenchmarkV2 PythonValues Fallible
open EvaluationV2 hiding holdoutEvidenceDigest

inductive EvidenceError where
  | nonFinite
  | storedNonFinite
  | floatInPayload
  | keyError (key : Text)
  | typeError
  | attributeError
deriving DecidableEq

def EvidenceError.text : EvidenceError → Text
  | nonFinite => "evidence contains a non-finite measurement".toList
  | storedNonFinite => "stored evidence contains a non-finite measurement".toList
  | floatInPayload => "floats are not permitted in PlanRace v2 canonical payloads".toList
  | keyError key => key
  | typeError => "TypeError".toList
  | attributeError => "AttributeError".toList

section Dumps

variable {K : Type} [Field K] [LinearOrder K]

def dumpOptional : Option Text → PyValue K
  | none => .null
  | some s => .str s

def dumpTrial (trial : SandboxTrialV2 K) : PyValue K :=
  .dict [("worker_id".toList, .str trial.workerId),
    ("order".toList, .str (ExecutionOrder.text trial.order)),
    ("baseline_cold_ms".toList, .float trial.baselineColdMs),
    ("candidate_cold_ms".toList, .float trial.candidateColdMs),
    ("baseline_warm_ms".toList, .float trial.baselineWarmMs),
    ("candidate_warm_ms".toList, .float trial.candidateWarmMs),
    ("baseline_timed_out".toList, .bool trial.baselineTimedOut),
    ("candidate_timed_out".toList, .bool trial.candidateTimedOut)]

/-- The members of `result.model_dump(mode=...)`. The `python` mode keeps tuples and
the `json` mode has lists. -/
def dumpResult (mode : SequenceKind) (result : SandboxResultV2 K) : List (Text × PyValue K) :=
  [("protocol_version".toList, .str protocolVersionV2),
    ("success".toList, .bool result.success),
    ("failure_code".toList, dumpOptional result.failureCode),
    ("engine".toList, .str result.engine),
    ("artifact_digest".toList, .str result.artifactDigest),
    ("task_id".toList, .str result.taskId),
    ("task_commitment".toList, .str result.taskCommitment),
    ("fixture_id".toList, .str result.fixtureId),
    ("fixture_content_digest".toList, .str result.fixtureContentDigest),
    ("hidden_fixture_merkle_root".toList, .str result.hiddenFixtureMerkleRoot),
    ("reference_digest".toList, dumpOptional result.referenceDigest),
    ("candidate_digest".toList, dumpOptional result.candidateDigest),
    ("correct".toList, .bool result.correct), ("compliant".toList, .bool result.compliant),
    ("row_count".toList, .int result.rowCount), ("setup_ms".toList, .float result.setupMs),
    ("worker_id".toList, dumpOptional result.workerId),
    ("trials".toList, .seq mode (result.trials.map dumpTrial)),
    ("database_bytes".toList, .int result.databaseBytes),
    ("artifact_storage_bytes".toList, .int result.artifactStorageBytes),
    ("candidate_plan".toList, .seq mode (result.candidatePlan.map .str)),
    ("used_index_names".toList, .seq mode (result.usedIndexNames.map .str))]

/-- `asdict(score)` of a horizon. -/
def dumpHorizon (score : HorizonScore K) : PyValue K :=
  .dict [("horizon".toList, .int score.horizon),
    ("relative_speedup".toList, .float score.relativeSpeedup),
    ("lower_confidence_speedup".toList, .float score.lowerConfidenceSpeedup),
    ("relative_savings".toList, .float score.relativeSavings)]

/-- `asdict(item.score)`, which keeps tuples. -/
def dumpScore (score : BenchmarkScore K) : PyValue K :=
  .dict [("eligible".toList, .bool score.eligible),
    ("benchmark_valid".toList, .bool score.benchmarkValid),
    ("reward".toList, .float score.reward),
    ("failure_code".toList, dumpOptional (score.failureCode.map BenchmarkFailure.text)),
    ("worker_id".toList, dumpOptional score.workerId),
    ("timeout_rate".toList, .float score.timeoutRate),
    ("storage_ratio".toList, .float score.storageRatio),
    ("horizons".toList, .seq .tuple (score.horizons.map dumpHorizon))]

def withoutArtifactDigest (members : List (Text × PyValue K)) : List (Text × PyValue K) :=
  members.filter fun m => m.1 ≠ "artifact_digest".toList

end Dumps

section Digests

variable {K : Type} [Field K] [LinearOrder K]

def checkedNumber (finite : K → Bool) (number : K → Text) (error : EvidenceError) (x : K) :
    Except EvidenceError Text := do
  require (finite x = true) error
  return number x

/-- `domain_separated_digest`, at a payload that may still hold floats. -/
def payloadDigest (payload : PyValue K) : Except EvidenceError Text := do
  return domainSeparatedDigest evidenceDomain (← canonicalValue .floatInPayload payload)

/-- `_number_string`. -/
def numberString (finite : K → Bool) (number : K → Text) : K → Except EvidenceError Text :=
  checkedNumber finite number .nonFinite

/-- `_stringify_floats` of the validator, over lists and tuples. -/
def evidenceFloats (finite : K → Bool) (number : K → Text) :
    PyValue K → Except EvidenceError (PyValue K) :=
  stringifyFloats (fun _ => true) (numberString finite number)

def holdoutEvidenceDigest (finite : K → Bool) (number : K → Text)
    (evaluation : HoldoutEvaluationV2 K) : Except EvidenceError Text := do
  let fixtures ← evaluation.fixtureEvaluations.mapM fun item => do
    let result ← evidenceFloats finite number
      (.dict (withoutArtifactDigest (dumpResult .tuple item.result)))
    let score ← evidenceFloats finite number (dumpScore item.score)
    return .dict [("fixture_id".toList, .str item.fixtureId), ("result".toList, result),
      ("score".toList, score)]
  let reward ← numberString finite number evaluation.reward
  payloadDigest (.dict [("task_id".toList, .str evaluation.taskId),
    ("task_commitment".toList, .str evaluation.taskCommitment),
    ("strategy_digest".toList, .str evaluation.strategyDigest),
    ("behavior_digest".toList, .str evaluation.behaviorDigest),
    ("family_id".toList, .str evaluation.familyId),
    ("exact_passed".toList, .bool evaluation.exactPassed),
    ("compliant".toList, .bool evaluation.compliant),
    ("eligible".toList, .bool evaluation.eligible),
    ("reward".toList, .str reward),
    ("failure_code".toList, dumpOptional (evaluation.failureCode.map HoldoutFailure.text)),
    ("fixtures".toList, .seq .list fixtures)])

def evaluationPayload (evaluation : HoldoutEvaluationV2 K) : PyValue K :=
  .dict [("task_id".toList, .str evaluation.taskId),
    ("task_commitment".toList, .str evaluation.taskCommitment),
    ("artifact_digest".toList, .str evaluation.artifactDigest),
    ("strategy_digest".toList, .str evaluation.strategyDigest),
    ("behavior_digest".toList, .str evaluation.behaviorDigest),
    ("family_id".toList, .str evaluation.familyId),
    ("exact_passed".toList, .bool evaluation.exactPassed),
    ("compliant".toList, .bool evaluation.compliant),
    ("eligible".toList, .bool evaluation.eligible),
    ("reward".toList, .float evaluation.reward),
    ("failure_code".toList, dumpOptional (evaluation.failureCode.map HoldoutFailure.text)),
    ("fixtures".toList, .seq .list (evaluation.fixtureEvaluations.map fun fixture =>
      .dict [("fixture_id".toList, .str fixture.fixtureId),
        ("result".toList, .dict (dumpResult .list fixture.result)),
        ("score".toList, dumpScore fixture.score)]))]

def evaluationJson (reading : Reading K) (evaluation : HoldoutEvaluationV2 K) : PyValue K :=
  loadsDumps reading (evaluationPayload evaluation)

/-- `value[key]`. -/
def entry (key : Text) : PyValue K → Except EvidenceError (PyValue K)
  | .dict members =>
    match members.find? (fun m => m.1 = key) with
    | some m => .ok m.2
    | none => .error (.keyError key)
  | _ => .error .typeError

/-- `value.items()`. -/
def items : PyValue K → Except EvidenceError (List (Text × PyValue K))
  | .dict members => .ok members
  | _ => .error .attributeError

/-- What a `for` loop over the value runs through. -/
def iterate : PyValue K → Except EvidenceError (List (PyValue K))
  | .seq _ parts => .ok parts
  | .dict members => .ok (members.map fun m => .str m.1)
  | .str s => .ok (s.map fun c => .str [c])
  | _ => .error .typeError

/-- `_stringify_floats` of the audit, over lists alone. -/
def storedFloats (finite : K → Bool) (number : K → Text) :
    PyValue K → Except EvidenceError (PyValue K) :=
  stringifyFloats (· = .list) (checkedNumber finite number .storedNonFinite)

/-- The body of the loop over the stored fixtures. -/
def storedFixture (finite : K → Bool) (number : K → Text) (fixture : PyValue K) :
    Except EvidenceError (PyValue K) := do
  let result := withoutArtifactDigest (← items (← entry "result".toList fixture))
  return .dict [("fixture_id".toList, ← entry "fixture_id".toList fixture),
    ("result".toList, ← storedFloats finite number (.dict result)),
    ("score".toList, ← storedFloats finite number (← entry "score".toList fixture))]

def storedHoldoutEvidenceDigest (finite : K → Bool) (number : K → Text)
    (evaluation : PyValue K) : Except EvidenceError Text := do
  let fixtures ← (← iterate (← entry "fixtures".toList evaluation)).mapM
    (storedFixture finite number)
  payloadDigest (.dict [("task_id".toList, ← entry "task_id".toList evaluation),
    ("task_commitment".toList, ← entry "task_commitment".toList evaluation),
    ("strategy_digest".toList, ← entry "strategy_digest".toList evaluation),
    ("behavior_digest".toList, ← entry "behavior_digest".toList evaluation),
    ("family_id".toList, ← entry "family_id".toList evaluation),
    ("exact_passed".toList, ← entry "exact_passed".toList evaluation),
    ("compliant".toList, ← entry "compliant".toList evaluation),
    ("eligible".toList, ← entry "eligible".toList evaluation),
    ("reward".toList, ← storedFloats finite number (← entry "reward".toList evaluation)),
    ("failure_code".toList, ← entry "failure_code".toList evaluation),
    ("fixtures".toList, .seq .list fixtures)])

end Digests

section Measurements

variable {K : Type} [Field K] [LinearOrder K] {finite : K → Bool} {number : K → Text}
  {reaches : SequenceKind → Bool}

/-- No float of the transcript is infinite or not a number. -/
def Measured (finite : K → Bool) (evaluation : HoldoutEvaluationV2 K) : Prop :=
  Admits finite (fun _ => true) (evaluationPayload evaluation)

def FixtureMeasured (finite : K → Bool) (item : FixtureEvaluationV2 K) : Prop :=
  Admits finite (fun _ => true) (.dict (dumpResult .list item.result)) ∧
    Admits finite (fun _ => true) (dumpScore item.score)

omit [Field K] [LinearOrder K] in
theorem admits_dumpOptional (text : Option Text) :
    Admits finite reaches (dumpOptional text) := by
  cases text with
  | none => trivial
  | some s => trivial

theorem measured_iff {evaluation : HoldoutEvaluationV2 K} : Measured finite evaluation ↔
    finite evaluation.reward = true ∧
      ∀ item ∈ evaluation.fixtureEvaluations, FixtureMeasured finite item := by
  simp only [Measured, evaluationPayload, FixtureMeasured, admits_dict_iff, admits_seq_iff,
    List.forall_mem_cons, List.forall_mem_map, admits_str, admits_bool, admits_float_iff,
    admits_dumpOptional, true_and, List.not_mem_nil, false_implies, implies_true, and_true]

end Measurements

section Documents

variable {K : Type} [Field K] [LinearOrder K] {finite : K → Bool} {number : K → Text}

omit [Field K] [LinearOrder K] in
theorem checkedNumber_eq {error : EvidenceError} (x : K) (measured : finite x = true) :
    checkedNumber finite number error x = .ok (number x) := by
  rw [checkedNumber, require, if_pos measured]
  rfl

/-- The transcript of one fixture, as both digests take it. -/
def fixtureDump (mode : SequenceKind) (item : FixtureEvaluationV2 K) : PyValue K :=
  .dict [("fixture_id".toList, .str item.fixtureId),
    ("result".toList, .dict (withoutArtifactDigest (dumpResult mode item.result))),
    ("score".toList, dumpScore item.score)]

/-- The transcript without its artifact digests. -/
def transcript (mode : SequenceKind) (evaluation : HoldoutEvaluationV2 K) : PyValue K :=
  .dict [("task_id".toList, .str evaluation.taskId),
    ("task_commitment".toList, .str evaluation.taskCommitment),
    ("strategy_digest".toList, .str evaluation.strategyDigest),
    ("behavior_digest".toList, .str evaluation.behaviorDigest),
    ("family_id".toList, .str evaluation.familyId),
    ("exact_passed".toList, .bool evaluation.exactPassed),
    ("compliant".toList, .bool evaluation.compliant),
    ("eligible".toList, .bool evaluation.eligible),
    ("reward".toList, .float evaluation.reward),
    ("failure_code".toList, dumpOptional (evaluation.failureCode.map HoldoutFailure.text)),
    ("fixtures".toList, .seq .list (evaluation.fixtureEvaluations.map (fixtureDump mode)))]

omit [Field K] [LinearOrder K] in
theorem document_dumpOptional (text : Option Text) :
    document number (dumpOptional text) = dumpOption text := by
  cases text with
  | none => rfl
  | some s => rfl

theorem document_dumpTrial (trial : SandboxTrialV2 K) :
    document number (dumpTrial trial) = trialJson number trial := by
  rw [dumpTrial, document_dict]
  rfl

theorem document_dumpResult (mode : SequenceKind) (result : SandboxResultV2 K) :
    document number (.dict (withoutArtifactDigest (dumpResult mode result))) =
      resultJson number result := by
  have kept : withoutArtifactDigest (dumpResult mode result) =
      (dumpResult mode result).eraseIdx 4 := rfl
  have trials : result.trials.map (document number ∘ dumpTrial) =
      result.trials.map (trialJson number) :=
    List.map_congr_left fun trial _ => document_dumpTrial trial
  have texts : ∀ texts : List Text, texts.map (document number ∘ PyValue.str) =
      texts.map Json.str := fun texts => List.map_congr_left fun _ _ => rfl
  rw [kept, document_dict]
  simp only [dumpResult, List.eraseIdx_cons_succ, List.eraseIdx_cons_zero, List.map_cons,
    List.map_nil, document_dumpOptional, document_seq, List.map_map, trials, texts]
  rfl

omit [Field K] [LinearOrder K] in
theorem document_dumpHorizon (score : HorizonScore K) :
    document number (dumpHorizon score) = horizonJson number score := by
  rw [dumpHorizon, document_dict]
  rfl

omit [Field K] [LinearOrder K] in
theorem document_dumpScore (score : BenchmarkScore K) :
    document number (dumpScore score) = scoreJson number score := by
  have horizons : score.horizons.map (document number ∘ dumpHorizon) =
      score.horizons.map (horizonJson number) :=
    List.map_congr_left fun horizon _ => document_dumpHorizon horizon
  rw [dumpScore, document_dict]
  simp only [List.map_cons, List.map_nil, document_dumpOptional, document_seq, List.map_map,
    horizons]
  rfl

theorem document_fixtureDump (mode : SequenceKind) (item : FixtureEvaluationV2 K) :
    document number (fixtureDump mode item) = fixtureJson number item := by
  rw [fixtureDump, document_dict]
  simp only [List.map_cons, List.map_nil, document_dumpResult, document_dumpScore]
  rfl

/-- The document under the digest. -/
def evidenceDocument (number : K → Text) (evaluation : HoldoutEvaluationV2 K) : Json :=
  .obj [("task_id".toList, .str evaluation.taskId),
      ("task_commitment".toList, .str evaluation.taskCommitment),
      ("strategy_digest".toList, .str evaluation.strategyDigest),
      ("behavior_digest".toList, .str evaluation.behaviorDigest),
      ("family_id".toList, .str evaluation.familyId),
      ("exact_passed".toList, .bool evaluation.exactPassed),
      ("compliant".toList, .bool evaluation.compliant),
      ("eligible".toList, .bool evaluation.eligible),
      ("reward".toList, .str (number evaluation.reward)),
      ("failure_code".toList, dumpOption (evaluation.failureCode.map HoldoutFailure.text)),
      ("fixtures".toList, .arr (evaluation.fixtureEvaluations.map (fixtureJson number)))]

/-- The digest of the transcript, whichever mode dumped it. -/
theorem payloadDigest_transcript (mode : SequenceKind) (evaluation : HoldoutEvaluationV2 K) :
    payloadDigest (rendered number (transcript mode evaluation)) =
      .ok (EvaluationV2.holdoutEvidenceDigest number evaluation) := by
  have fixtures : (evaluation.fixtureEvaluations.map (fixtureDump mode)).map (document number) =
      evaluation.fixtureEvaluations.map (fixtureJson number) := by
    rw [List.map_map]
    exact List.map_congr_left fun item _ => document_fixtureDump mode item
  have payload : document number (transcript mode evaluation) =
      evidenceDocument number evaluation := by
    rw [transcript, document_dict]
    simp only [List.map_cons, List.map_nil, document_dumpOptional, document_seq, fixtures]
    rfl
  rw [payloadDigest, canonicalValue_rendered, payload]
  rfl

theorem FixtureMeasured.result {item : FixtureEvaluationV2 K}
    (measured : FixtureMeasured finite item) (mode : SequenceKind) :
    Admits finite (fun _ => true) (.dict (withoutArtifactDigest (dumpResult mode item.result))) := by
  have dumped : Admits finite (fun _ => true) (.dict (dumpResult mode item.result)) := by
    have known := measured.1
    simp only [dumpResult, admits_dict_iff, admits_seq_iff, List.forall_mem_cons] at known ⊢
    exact known
  exact admits_dict_iff.mpr fun m hm => admits_dict_iff.mp dumped m (List.mem_of_mem_filter hm)

/-- The validator's digest of a transcript with finite measurements. -/
theorem holdoutEvidenceDigest_eq {evaluation : HoldoutEvaluationV2 K}
    (measured : Measured finite evaluation) :
    holdoutEvidenceDigest finite number evaluation =
      .ok (EvaluationV2.holdoutEvidenceDigest number evaluation) := by
  obtain ⟨reward, fixtures⟩ := measured_iff.mp measured
  have writes : ∀ x, finite x = true → numberString finite number x = .ok (number x) :=
    fun x => checkedNumber_eq x
  rw [holdoutEvidenceDigest, mapM_eq_map (g := rendered number ∘ fixtureDump .tuple) ?_,
    ← payloadDigest_transcript .tuple]
  · rw [writes _ reward, transcript, rendered_dict]
    simp only [List.map_cons, List.map_nil, rendered_seq, List.map_map]
    cases evaluation.failureCode with
    | none => rfl
    | some code => rfl
  · intro item hitem
    rw [evidenceFloats, stringifyFloats_eq writes ((fixtures item hitem).result .tuple),
      stringifyFloats_eq writes (fixtures item hitem).2]
    rw [Function.comp_apply, fixtureDump, rendered_dict]
    rfl

omit [Field K] [LinearOrder K] in
theorem listed_withoutArtifactDigest (members : List (Text × PyValue K)) :
    withoutArtifactDigest (members.map fun m => (m.1, listed m.2)) =
      (withoutArtifactDigest members).map fun m => (m.1, listed m.2) :=
  List.filter_map

omit [Field K] [LinearOrder K] in
theorem storedFloats_listed (number : K → Text) {v : PyValue K}
    (measured : Admits finite (fun _ => true) v) :
    storedFloats finite number (listed v) = .ok (rendered number v) :=
  stringifyFloats_listed (fun x => checkedNumber_eq x) measured

theorem storedFixture_eq {item : FixtureEvaluationV2 K} (measured : FixtureMeasured finite item) :
    storedFixture finite number (listed (.dict [("fixture_id".toList, .str item.fixtureId),
        ("result".toList, .dict (dumpResult .list item.result)),
        ("score".toList, dumpScore item.score)])) =
      .ok (rendered number (fixtureDump .list item)) := by
  have result := storedFloats_listed number (measured.result .list)
  have score := storedFloats_listed number measured.2
  rw [listed_dict, ← listed_withoutArtifactDigest] at result
  rw [listed_dict, fixtureDump, rendered_dict]
  simp only [List.map_cons, List.map_nil, listed_dict]
  refine bind_ok_iff.mpr ⟨_, rfl, bind_ok_iff.mpr ⟨_, rfl, bind_ok_iff.mpr ⟨_, rfl, ?_⟩⟩⟩
  refine bind_ok_iff.mpr ⟨_, result, bind_ok_iff.mpr ⟨_, rfl, bind_ok_iff.mpr ⟨_, score, rfl⟩⟩⟩

/-- The audit's digest of the same transcript, written to JSON and read back. -/
theorem storedHoldoutEvidenceDigest_eq {reading : Reading K} (faithful : reading.RoundTrips finite)
    {evaluation : HoldoutEvaluationV2 K} (measured : Measured finite evaluation) :
    storedHoldoutEvidenceDigest finite number (evaluationJson reading evaluation) =
      .ok (EvaluationV2.holdoutEvidenceDigest number evaluation) := by
  obtain ⟨reward, fixtures⟩ := measured_iff.mp measured
  have code : listed (K := K) (dumpOptional (evaluation.failureCode.map HoldoutFailure.text)) =
      rendered number (dumpOptional (evaluation.failureCode.map HoldoutFailure.text)) := by
    cases evaluation.failureCode with
    | none => rfl
    | some code => rfl
  have loop : (evaluation.fixtureEvaluations.map fun fixture =>
      listed (.dict [("fixture_id".toList, .str fixture.fixtureId),
        ("result".toList, .dict (dumpResult .list fixture.result)),
        ("score".toList, dumpScore fixture.score)])).mapM (storedFixture finite number) =
      .ok (evaluation.fixtureEvaluations.map (rendered number ∘ fixtureDump .list)) := by
    rw [List.mapM_map]
    exact mapM_eq_map fun item hitem => storedFixture_eq (fixtures item hitem)
  have written := storedFloats_listed number (v := .float evaluation.reward) reward
  rw [evaluationJson, loadsDumps_eq_listed faithful measured, evaluationPayload, listed_dict]
  simp only [List.map_cons, List.map_nil, listed_seq, List.map_map]
  refine bind_ok_iff.mpr ⟨_, rfl, bind_ok_iff.mpr ⟨_, rfl, bind_ok_iff.mpr ⟨_, loop, ?_⟩⟩⟩
  iterate 8 refine bind_ok_iff.mpr ⟨_, rfl, ?_⟩
  refine bind_ok_iff.mpr ⟨_, rfl, bind_ok_iff.mpr ⟨_, written, bind_ok_iff.mpr ⟨_, rfl, ?_⟩⟩⟩
  rw [← payloadDigest_transcript .list, transcript, rendered_dict]
  simp only [List.map_cons, List.map_nil, rendered_seq, List.map_map, ← code]
  rfl

end Documents

section Texts

theorem executionOrder_text_injective : Function.Injective ExecutionOrder.text := by
  intro x y h
  cases x <;> cases y <;> first | rfl | exact absurd h (by decide)

theorem holdoutFailure_text_injective : Function.Injective HoldoutFailure.text := by
  intro x y h
  cases x <;> cases y <;> first | rfl | exact absurd h (by decide)

theorem benchmarkFailure_text_injective : Function.Injective BenchmarkFailure.text := by
  intro x y h
  cases x <;> cases y <;> first | rfl | exact absurd h (by decide)

theorem dumpOption_text_inj {x y : Option Text}
    (h : (dumpOption x).normalize = (dumpOption y).normalize) : x = y := by
  refine dumpOption_inj (fun s => ?_) x y h
  change Json.tag (.str s) ≠ 0
  simp [Json.tag]

/-- Documents of two lists, where equal documents of their parts say that the parts agree. -/
theorem map_eq_of_items {α β : Type} {f : α → Json} {g : α → β} {xs ys : List α}
    (agree : ∀ x ∈ xs, ∀ y ∈ ys, (f x).Same (f y) → g x = g y)
    (same : (xs.map f).map Json.normalize = (ys.map f).map Json.normalize) :
    xs.map g = ys.map g := by
  induction xs generalizing ys with
  | nil =>
    cases ys with
    | nil => rfl
    | cons y ys => cases same
  | cons x xs ih =>
    cases ys with
    | nil => cases same
    | cons y ys =>
      obtain ⟨first, rest⟩ := List.cons.inj same
      rw [List.map_cons, List.map_cons, agree x List.mem_cons_self y List.mem_cons_self first,
        ih (fun a ha b hb => agree a (List.mem_cons_of_mem _ ha) b (List.mem_cons_of_mem _ hb)) rest]

end Texts

section Binding

variable {K : Type} [Field K] [LinearOrder K] {finite : K → Bool} {number : K → Text}

theorem trial_eq_of_same (distinct : Set.InjOn number {x | finite x = true})
    {trial trial' : SandboxTrialV2 K} (measured : Admits finite (fun _ => true) (dumpTrial trial))
    (measured' : Admits finite (fun _ => true) (dumpTrial trial'))
    (same : (trialJson number trial).Same (trialJson number trial')) : trial = trial' := by
  have values := values_of_same same rfl (of_decide_eq_true rfl)
  simp only [List.map_cons, List.map_nil, normalize_str, normalize_bool, List.cons.injEq,
    Json.str.injEq, Json.bool.injEq, and_true] at values
  obtain ⟨worker, order, h₁, h₂, h₃, h₄, baseline, candidate⟩ := values
  simp only [dumpTrial, admits_dict_iff, List.forall_mem_cons] at measured measured'
  obtain ⟨-, -, m₁, m₂, m₃, m₄, -⟩ := measured
  obtain ⟨-, -, m₁', m₂', m₃', m₄', -⟩ := measured'
  have cold := distinct m₁ m₁' h₁
  have coldCandidate := distinct m₂ m₂' h₂
  have warm := distinct m₃ m₃' h₃
  have warmCandidate := distinct m₄ m₄' h₄
  have ordered := executionOrder_text_injective order
  cases trial
  cases trial'
  simp only [SandboxTrialV2.mk.injEq]
  exact ⟨worker, ordered, cold, coldCandidate, warm, warmCandidate, baseline, candidate⟩

omit [Field K] [LinearOrder K] in
theorem horizon_eq_of_same (distinct : Set.InjOn number {x | finite x = true})
    {score score' : HorizonScore K} (measured : Admits finite (fun _ => true) (dumpHorizon score))
    (measured' : Admits finite (fun _ => true) (dumpHorizon score'))
    (same : (horizonJson number score).Same (horizonJson number score')) : score = score' := by
  have values := values_of_same same rfl (of_decide_eq_true rfl)
  simp only [List.map_cons, List.map_nil, normalize_str, normalize_modelDump_eq_iff,
    List.cons.injEq, Json.str.injEq, and_true] at values
  obtain ⟨horizon, h₁, h₂, h₃⟩ := values
  simp only [dumpHorizon, admits_dict_iff, List.forall_mem_cons] at measured measured'
  obtain ⟨-, m₁, m₂, m₃, -⟩ := measured
  obtain ⟨-, m₁', m₂', m₃', -⟩ := measured'
  have speedup := distinct m₁ m₁' h₁
  have confidence := distinct m₂ m₂' h₂
  have savings := distinct m₃ m₃' h₃
  cases score
  cases score'
  simp only [HorizonScore.mk.injEq]
  exact ⟨horizon, speedup, confidence, savings⟩

omit [Field K] [LinearOrder K] in
theorem score_eq_of_same (distinct : Set.InjOn number {x | finite x = true})
    {score score' : BenchmarkScore K} (measured : Admits finite (fun _ => true) (dumpScore score))
    (measured' : Admits finite (fun _ => true) (dumpScore score'))
    (same : (scoreJson number score).Same (scoreJson number score')) : score = score' := by
  have values := values_of_same same rfl (of_decide_eq_true rfl)
  simp only [List.map_cons, List.map_nil, normalize_str, normalize_bool, normalize_arr,
    List.cons.injEq, Json.str.injEq, Json.bool.injEq, Json.arr.injEq, and_true] at values
  obtain ⟨eligible, valid, h₁, failure, worker, h₂, h₃, horizons⟩ := values
  simp only [dumpScore, admits_dict_iff, admits_seq_iff, List.forall_mem_cons,
    List.forall_mem_map] at measured measured'
  obtain ⟨-, -, m₁, -, -, m₂, m₃, ⟨-, parts⟩, -⟩ := measured
  obtain ⟨-, -, m₁', -, -, m₂', m₃', ⟨-, parts'⟩, -⟩ := measured'
  have reward := distinct m₁ m₁' h₁
  have timeout := distinct m₂ m₂' h₂
  have storage := distinct m₃ m₃' h₃
  have code := Option.map_injective benchmarkFailure_text_injective (dumpOption_text_inj failure)
  have worker := dumpOption_text_inj worker
  have horizons := map_eq_of_items (g := id) (fun x hx y hy =>
    horizon_eq_of_same distinct (parts x hx) (parts' y hy)) horizons
  simp only [List.map_id] at horizons
  cases score
  cases score'
  simp only [BenchmarkScore.mk.injEq]
  exact ⟨eligible, valid, reward, code, worker, timeout, storage, horizons⟩

/-- A result whose artifact digest is blank. -/
def blankResult (result : SandboxResultV2 K) : SandboxResultV2 K :=
  { result with artifactDigest := [] }

def blankFixture (item : FixtureEvaluationV2 K) : FixtureEvaluationV2 K :=
  { item with result := blankResult item.result }

/-- The evaluation with every artifact digest blank. -/
def blankArtifacts (evaluation : HoldoutEvaluationV2 K) : HoldoutEvaluationV2 K :=
  { evaluation with
    artifactDigest := []
    fixtureEvaluations := evaluation.fixtureEvaluations.map blankFixture }

theorem result_eq_of_same (distinct : Set.InjOn number {x | finite x = true})
    {result result' : SandboxResultV2 K}
    (measured : Admits finite (fun _ => true) (.dict (dumpResult .list result)))
    (measured' : Admits finite (fun _ => true) (.dict (dumpResult .list result')))
    (same : (resultJson number result).Same (resultJson number result')) :
    blankResult result = blankResult result' := by
  have values := values_of_same same rfl (of_decide_eq_true rfl)
  simp only [List.map_cons, List.map_nil, normalize_str, normalize_bool, normalize_arr,
    normalize_modelDump_eq_iff, List.cons.injEq, Json.str.injEq, Json.bool.injEq, Json.arr.injEq,
    true_and, and_true] at values
  obtain ⟨success, failure, engine, task, commitment, fixture, content, root, reference,
    candidate, correct, compliant, rows, h, worker, trials, database, artifact, plan, used⟩ :=
    values
  simp only [dumpResult, admits_dict_iff, admits_seq_iff, List.forall_mem_cons,
    List.forall_mem_map] at measured measured'
  obtain ⟨-, -, -, -, -, -, -, -, -, -, -, -, -, -, -, m, -, ⟨-, parts⟩, -⟩ := measured
  obtain ⟨-, -, -, -, -, -, -, -, -, -, -, -, -, -, -, m', -, ⟨-, parts'⟩, -⟩ := measured'
  have setup := distinct m m' h
  have failure := dumpOption_text_inj failure
  have reference := dumpOption_text_inj reference
  have candidate := dumpOption_text_inj candidate
  have worker := dumpOption_text_inj worker
  have trials := map_eq_of_items (g := id) (fun x hx y hy =>
    trial_eq_of_same distinct (parts x hx) (parts' y hy)) trials
  simp only [List.map_id] at trials
  cases result
  cases result'
  simp only [blankResult, SandboxResultV2.mk.injEq, true_and]
  exact ⟨success, failure, engine, task, commitment, fixture, content, root, reference,
    candidate, correct, compliant, rows, setup, worker, trials, database, artifact, plan, used⟩

theorem fixture_eq_of_same (distinct : Set.InjOn number {x | finite x = true})
    {item item' : FixtureEvaluationV2 K} (measured : FixtureMeasured finite item)
    (measured' : FixtureMeasured finite item')
    (same : (fixtureJson number item).Same (fixtureJson number item')) :
    blankFixture item = blankFixture item' := by
  have values := values_of_same same rfl (of_decide_eq_true rfl)
  simp only [List.map_cons, List.map_nil, normalize_str, List.cons.injEq, Json.str.injEq,
    and_true] at values
  obtain ⟨fixture, result, score⟩ := values
  have result := result_eq_of_same distinct measured.1 measured'.1 result
  have score := score_eq_of_same distinct measured.2 measured'.2 score
  cases item
  cases item'
  simp only [blankFixture, FixtureEvaluationV2.mk.injEq]
  exact ⟨fixture, result, score⟩

theorem evaluation_eq_of_same (distinct : Set.InjOn number {x | finite x = true})
    {evaluation other : HoldoutEvaluationV2 K} (measured : Measured finite evaluation)
    (measured' : Measured finite other)
    (same : (evidenceDocument number evaluation).Same (evidenceDocument number other)) :
    blankArtifacts evaluation = blankArtifacts other := by
  have values := values_of_same same rfl (of_decide_eq_true rfl)
  simp only [List.map_cons, List.map_nil, normalize_str, normalize_bool, normalize_arr,
    List.cons.injEq, Json.str.injEq, Json.bool.injEq, Json.arr.injEq, and_true] at values
  obtain ⟨task, commitment, strategy, behavior, family, exact, compliant, eligible, h, failure,
    fixtures⟩ := values
  obtain ⟨m, parts⟩ := measured_iff.mp measured
  obtain ⟨m', parts'⟩ := measured_iff.mp measured'
  have reward := distinct m m' h
  have code := Option.map_injective holdoutFailure_text_injective (dumpOption_text_inj failure)
  have fixtures := map_eq_of_items (fun x hx y hy =>
    fixture_eq_of_same distinct (parts x hx) (parts' y hy)) fixtures
  cases evaluation
  cases other
  simp only [blankArtifacts, HoldoutEvaluationV2.mk.injEq, true_and]
  exact ⟨task, commitment, strategy, behavior, family, exact, compliant, eligible, reward, code,
    fixtures⟩

/-- No document shows an artifact digest. -/
theorem evidenceDocument_blank (evaluation : HoldoutEvaluationV2 K) :
    evidenceDocument number (blankArtifacts evaluation) = evidenceDocument number evaluation := by
  have fixtures : (evaluation.fixtureEvaluations.map blankFixture).map (fixtureJson number) =
      evaluation.fixtureEvaluations.map (fixtureJson number) := by
    rw [List.map_map]
    exact List.map_congr_left fun _ _ => rfl
  rw [evidenceDocument, evidenceDocument, ← fixtures]
  rfl

/-- What the digest of an evaluation hashes. -/
def evidenceInput (number : K → Text) (evaluation : HoldoutEvaluationV2 K) : Bytes :=
  hashInput evidenceDomain (evidenceDocument number evaluation)

/-- The stored transcript has the signed digest, which binds all of it but the artifact
digests. -/
theorem storedHoldoutEvidenceDigest_reproduces {reading : Reading K}
    (faithful : reading.RoundTrips finite) (distinct : Set.InjOn number {x | finite x = true})
    (evaluation : HoldoutEvaluationV2 K) (measured : Measured finite evaluation) :
    storedHoldoutEvidenceDigest finite number (evaluationJson reading evaluation) =
        holdoutEvidenceDigest finite number evaluation ∧
      (∃ digest, holdoutEvidenceDigest finite number evaluation = .ok digest) ∧
      ∀ other, Measured finite other →
        CollisionFreeOn [evidenceInput number evaluation, evidenceInput number other] →
        (holdoutEvidenceDigest finite number evaluation =
            holdoutEvidenceDigest finite number other ↔
          blankArtifacts evaluation = blankArtifacts other) := by
  refine ⟨?_, ⟨_, holdoutEvidenceDigest_eq measured⟩, fun other measured' free => ?_⟩
  · rw [storedHoldoutEvidenceDigest_eq faithful measured, holdoutEvidenceDigest_eq measured]
  · rw [holdoutEvidenceDigest_eq measured, holdoutEvidenceDigest_eq measured', Except.ok.injEq]
    constructor
    · intro same
      have bound := binding_of_collisionFreeOn free List.mem_cons_self
        (List.mem_cons_of_mem _ List.mem_cons_self) same
      exact evaluation_eq_of_same distinct measured measured' bound.2
    · intro same
      change domainSeparatedDigest evidenceDomain (evidenceDocument number evaluation) =
        domainSeparatedDigest evidenceDomain (evidenceDocument number other)
      rw [← evidenceDocument_blank evaluation, same, evidenceDocument_blank]

end Binding

section Sample

/-- Floats without a fraction that have an integer's text in `".17g"`. -/
def whole (x : ℚ) : Bool := x.den == 1 && decide (x.num.natAbs < 2 ^ 53)

def wholeText (x : ℚ) : Text := intText x.num

theorem wholeText_injOn : Set.InjOn wholeText {x | whole x = true} := by
  intro x hx y hy h
  have hx : x.den = 1 := by simpa using (Bool.and_eq_true_iff.mp hx).1
  have hy : y.den = 1 := by simpa using (Bool.and_eq_true_iff.mp hy).1
  exact Rat.ext (intText_injective h) (hx.trans hy.symm)

def trial : SandboxTrialV2 ℚ where
  workerId := "worker-1".toList
  order := .candidateFirst
  baselineColdMs := 12
  candidateColdMs := 5
  baselineWarmMs := 8
  candidateWarmMs := 4
  workerIdBounds := by decide
  timesPositive := by norm_num

def result : SandboxResultV2 ℚ where
  success := true
  failureCode := none
  engine := "sqlite-3.45.3".toList
  artifactDigest := "sha256:a".toList
  taskId := "task".toList
  taskCommitment := "commitment".toList
  fixtureId := "hidden-1".toList
  fixtureContentDigest := "sha256:b".toList
  hiddenFixtureMerkleRoot := "sha256:c".toList
  correct := true
  compliant := true
  rowCount := 3
  setupMs := 2
  workerId := some "worker-1".toList
  trials := [trial]
  setupNonnegative := by norm_num

/-- A fixture without enough trials to be scored. -/
def evaluation : HoldoutEvaluationV2 ℚ where
  taskId := "task".toList
  taskCommitment := "commitment".toList
  artifactDigest := "sha256:a".toList
  strategyDigest := "sha256:d".toList
  behaviorDigest := "sha256:e".toList
  familyId := "orders_by_customer_window".toList
  exactPassed := true
  compliant := true
  eligible := false
  reward := 0
  failureCode := some .benchmarkInvalid
  fixtureEvaluations := [⟨"hidden-1".toList, result,
    ⟨false, false, 0, some .insufficientTrials, none, 0, 1, []⟩⟩]

theorem whole_ofNat (n : Nat) (small : n < 2 ^ 53) : whole (n : ℚ) = true := by
  simp only [whole, Rat.den_natCast, Rat.num_natCast, Int.natAbs_natCast, beq_self_eq_true,
    Bool.true_and]
  exact decide_eq_true small

theorem measured_evaluation : Measured whole evaluation := by
  have trials : Admits whole (fun _ => true) (dumpTrial trial) := by
    simp only [dumpTrial, admits_dict_iff, List.forall_mem_cons, admits_str, admits_bool,
      admits_float_iff, true_and, List.not_mem_nil, false_implies, implies_true, and_true]
    exact ⟨whole_ofNat 12 (by norm_num), whole_ofNat 5 (by norm_num), whole_ofNat 8 (by norm_num),
      whole_ofNat 4 (by norm_num)⟩
  refine measured_iff.mpr ⟨whole_ofNat 0 (by norm_num), fun item hitem => ?_⟩
  obtain rfl := List.mem_singleton.mp hitem
  constructor
  · simp only [dumpResult, admits_dict_iff, admits_seq_iff, List.forall_mem_cons, List.forall_mem_map,
      admits_str, admits_bool, admits_int, admits_float_iff, admits_dumpOptional, true_and,
      List.not_mem_nil, false_implies, implies_true, and_true]
    refine ⟨whole_ofNat 2 (by norm_num), fun x hx => ?_⟩
    exact List.mem_singleton.mp hx ▸ trials
  · simp only [dumpScore, admits_dict_iff, admits_seq_iff, List.forall_mem_cons, List.map_nil,
      admits_bool, admits_float_iff, admits_dumpOptional, true_and, List.not_mem_nil,
      false_implies, implies_true, and_true]
    exact ⟨whole_ofNat 0 (by norm_num), whole_ofNat 0 (by norm_num), whole_ofNat 1 (by norm_num)⟩

def plainReading : Reading ℚ := ⟨id, id, id, id⟩

theorem plainReading_roundTrips : plainReading.RoundTrips whole :=
  ⟨fun _ => rfl, fun _ => rfl, fun _ _ => rfl, fun _ => rfl⟩

theorem storedHoldoutEvidenceDigest_reproduces_failed :
    storedHoldoutEvidenceDigest whole wholeText (evaluationJson plainReading evaluation) =
        holdoutEvidenceDigest whole wholeText evaluation ∧
      (∃ digest, holdoutEvidenceDigest whole wholeText evaluation = .ok digest) ∧
      ∀ other, Measured whole other →
        CollisionFreeOn [evidenceInput wholeText evaluation, evidenceInput wholeText other] →
        (holdoutEvidenceDigest whole wholeText evaluation =
            holdoutEvidenceDigest whole wholeText other ↔
          blankArtifacts evaluation = blankArtifacts other) :=
  storedHoldoutEvidenceDigest_reproduces plainReading_roundTrips wholeText_injOn evaluation
    measured_evaluation

end Sample

end EvidenceAudit
