import PlanRace.BreakdownPoint
import PlanRace.MechanismSimulation

/-!
# The evaluations of the simulation

What `_evaluate_strategy_epoch` ensures from every state of the generator. The
tables give every trial positive times, the scorer takes every evidence, and a
verdict rests on what the validator measured.
-/

namespace SimulatedEvaluations

open JsonText Statistics Fallible Draws ScoringV2 BenchmarkScoring BenchmarkOutcome BreakdownPoint
  MechanismSimulation

section Scores

variable {policy : BenchmarkPolicy ℝ} {evidence : BenchmarkEvidence ℝ}

/-- A score keeps to its bounds when the weights of the horizons do. -/
theorem withinBounds_of_score (weights : policy.horizonWeights.sum ≤ 1) {score : BenchmarkScore ℝ}
    (h : scoreBenchmark policy evidence = .ok score) : WithinBounds policy evidence score := by
  by_cases measured : ∃ workerId, Measured policy evidence workerId
  · obtain ⟨workerId, measured⟩ := measured
    obtain rfl := Except.ok.inj (h.symm.trans (scoreBenchmark_of_measured measured))
    exact withinBounds_of_measured weights measured
  · obtain ⟨stopped, hstopped, reward, horizons⟩ :=
      scoreBenchmark_of_unmeasured (not_exists.mp measured)
    obtain rfl := Except.ok.inj (h.symm.trans hstopped)
    exact withinBounds_of_stopped reward horizons

theorem zeroScore_ineligible (benchmarkValid : Bool) (failure : BenchmarkFailure)
    (workerId : Option Text) (timeoutRate storageRatio : ℝ) :
    ∃ score, (Except.ok (zeroScore benchmarkValid failure workerId timeoutRate storageRatio) :
        Except ScoringError (BenchmarkScore ℝ)) = .ok score ∧ score.eligible = false :=
  ⟨_, rfl, rfl⟩

/-- Evidence that is wrong or rejected never scores as eligible. -/
theorem scoreBenchmark_ineligible
    (rejected : evidence.correct = false ∨ evidence.compliant = false) :
    ∃ score, scoreBenchmark policy evidence = .ok score ∧ score.eligible = false := by
  unfold scoreBenchmark
  refine ok_ite (zeroScore_ineligible _ _ _ _ _) fun _ => ?_
  cases (evidence.trials.map InterleavedTrial.workerId).dedup with
  | nil => exact zeroScore_ineligible _ _ _ _ _
  | cons workerId others =>
    cases others with
    | cons _ _ => exact zeroScore_ineligible _ _ _ _ _
    | nil =>
      refine ok_ite (zeroScore_ineligible _ _ _ _ _) fun _ => ?_
      refine ok_ite (zeroScore_ineligible _ _ _ _ _) fun _ => ?_
      refine ok_ite (zeroScore_ineligible _ _ _ _ _) fun correct => ?_
      refine ok_ite (zeroScore_ineligible _ _ _ _ _) fun compliant => ?_
      rcases rejected with incorrect | noncompliant
      · exact absurd (not_not.mp correct) (Bool.eq_false_iff.mp incorrect)
      · exact absurd (not_not.mp compliant) (Bool.eq_false_iff.mp noncompliant)

end Scores

section Tables

/-- What the loops rely on in a profile. -/
structure Runnable (profile : MinerProfile ℝ) : Prop where
  identified : profile.profileId ≠ []
  families : profile.familyMultipliers.length = workloadFamilies.length
  setup : 0 ≤ profile.setupFraction

/-- What the loops rely on in a scenario. -/
structure Usable (scenario : ValidatorScenario ℝ) : Prop where
  hardware : 0 < scenario.hardwareScale
  order : 0 ≤ scenario.orderBias
  families : scenario.candidateBiasMultipliers.length = workloadFamilies.length
  biases : ∀ bias ∈ scenario.candidateBiasMultipliers, 0 < bias

theorem identified_profiles : ∀ id ∈ (minerProfiles (K := ℝ)).map MinerProfile.profileId, id ≠ [] := by
  decide

theorem families_profiles : ∀ count ∈ (minerProfiles (K := ℝ)).map
    (fun profile => profile.familyMultipliers.length), count = workloadFamilies.length := by
  decide

theorem setup_profiles : ∀ profile ∈ (minerProfiles (K := ℝ)), 0 ≤ profile.setupFraction := by
  simp only [minerProfiles, List.forall_mem_cons]
  norm_num

theorem runnable_of_mem {profile : MinerProfile ℝ} (h : profile ∈ minerProfiles) :
    Runnable profile where
  identified := identified_profiles _ (List.mem_map_of_mem h)
  families := families_profiles _ (List.mem_map_of_mem h)
  setup := setup_profiles profile h

theorem usable_of_mem {scenario : ValidatorScenario ℝ} (h : scenario ∈ validatorScenarios) :
    Usable scenario := by
  have families : ∀ count ∈ (validatorScenarios (K := ℝ)).map
      (fun scenario => scenario.candidateBiasMultipliers.length), count = workloadFamilies.length := by
    decide
  have signs : ∀ scenario ∈ (validatorScenarios (K := ℝ)), 0 < scenario.hardwareScale ∧
      0 ≤ scenario.orderBias ∧ ∀ bias ∈ scenario.candidateBiasMultipliers, 0 < bias := by
    simp only [validatorScenarios, List.forall_mem_cons]
    norm_num
  obtain ⟨hardware, order, biases⟩ := signs scenario h
  exact ⟨hardware, order, families _ (List.mem_map_of_mem h), biases⟩

end Tables

section Profiles

def strategyKeys : List Text := [
  "covering-join-v2".toList, "partial-index-v2".toList, "aggregate-advisor-v2".toList,
  "balanced-index-v2".toList, "cold-specialist-v2".toList, "warm-specialist-v2".toList,
  "low-storage-v2".toList, "robust-generalist-v2".toList, "noisy-search-v2".toList,
  "conservative-v2".toList, "high-setup-star-v2".toList, "timeout-prone-v2".toList,
  "constant-answer-v2".toList, "wrong-fast-v2".toList, "fixture-memorizer-v2".toList,
  "malformed-bundle-v2".toList, "shared-copy-v2".toList, "near-copy-asc-v2".toList,
  "near-copy-desc-v2".toList]

theorem strategyKey_sharedCopy (first second : Text) :
    (sharedCopy first : MinerProfile ℝ).strategyKey =
      (sharedCopy second : MinerProfile ℝ).strategyKey := by
  simp only [sharedCopy]

theorem signature_sharedCopy (first second : Text) :
    profileEvaluationSignature (sharedCopy first : MinerProfile ℝ) =
      profileEvaluationSignature (sharedCopy second) := by
  simp only [profileEvaluationSignature, sharedCopy]

theorem minerProfiles_split : (minerProfiles : List (MinerProfile ℝ)) = minerProfiles.take 16 ++
    sharedCopy "sybil-copy-a".toList :: sharedCopy "sybil-copy-b".toList :: minerProfiles.drop 18 :=
  rfl

/-- The profiles without the second copy. -/
noncomputable def firstProfiles : List (MinerProfile ℝ) :=
  minerProfiles.take 16 ++ sharedCopy "sybil-copy-a".toList :: minerProfiles.drop 18

theorem firstProfiles_keys : firstProfiles.map MinerProfile.strategyKey = strategyKeys := rfl

theorem strategyKeys_nodup : strategyKeys.Nodup := by decide

theorem keyDigests_nodup : (strategyKeys.map keyDigest).Nodup := by decide +kernel

/-- The one profile left out is a copy of one that is kept. -/
theorem exists_first {profile : MinerProfile ℝ} (h : profile ∈ minerProfiles) :
    ∃ first ∈ firstProfiles, first.strategyKey = profile.strategyKey ∧
      profileEvaluationSignature profile = profileEvaluationSignature first := by
  have place : profile ∈ firstProfiles ∨ profile = sharedCopy "sybil-copy-b".toList := by
    rw [minerProfiles_split, List.mem_append, List.mem_cons, List.mem_cons] at h
    rcases h with before | first | second | after
    · exact .inl (List.mem_append_left _ before)
    · exact .inl (List.mem_append_right _ (List.mem_cons.mpr (.inl first)))
    · exact .inr second
    · exact .inl (List.mem_append_right _ (List.mem_cons.mpr (.inr after)))
  rcases place with kept | rfl
  · exact ⟨profile, kept, rfl, rfl⟩
  · exact ⟨sharedCopy "sybil-copy-a".toList,
      List.mem_append_right _ List.mem_cons_self, strategyKey_sharedCopy _ _,
      signature_sharedCopy _ _⟩

/-- Profiles of one strategy digest are evaluated alike. -/
theorem alike {p q : MinerProfile ℝ} (hp : p ∈ minerProfiles) (hq : q ∈ minerProfiles)
    (same : p.strategyDigest = q.strategyDigest) :
    profileEvaluationSignature p = profileEvaluationSignature q := by
  obtain ⟨a, ha, keya, signaturea⟩ := exists_first hp
  obtain ⟨b, hb, keyb, signatureb⟩ := exists_first hq
  have listed : ∀ {first : MinerProfile ℝ}, first ∈ firstProfiles →
      first.strategyKey ∈ strategyKeys := fun h => firstProfiles_keys ▸ List.mem_map_of_mem h
  have digests : keyDigest a.strategyKey = keyDigest b.strategyKey := by
    rw [keya, keyb]
    exact same
  have keys := List.inj_on_of_nodup_map keyDigests_nodup (listed ha) (listed hb) digests
  have nodup : (firstProfiles.map MinerProfile.strategyKey).Nodup :=
    firstProfiles_keys ▸ strategyKeys_nodup
  rw [signaturea, signatureb, List.inj_on_of_nodup_map nodup ha hb keys]

/-- The twenty profiles bring nineteen strategies. -/
theorem strategyDigests_perm : (Grouping.distinct ((minerProfiles (K := ℝ)).map
    MinerProfile.strategyDigest)).Perm (firstProfiles.map MinerProfile.strategyDigest) := by
  have digests : firstProfiles.map MinerProfile.strategyDigest = strategyKeys.map keyDigest := by
    rw [← firstProfiles_keys, List.map_map]
    rfl
  have unique : (firstProfiles.map MinerProfile.strategyDigest).Nodup := digests ▸ keyDigests_nodup
  refine (List.perm_ext_iff_of_nodup (Grouping.nodup_distinct _) unique).mpr fun digest => ?_
  rw [Grouping.mem_distinct, List.mem_map, List.mem_map]
  constructor
  · rintro ⟨profile, hprofile, rfl⟩
    obtain ⟨first, hfirst, key, -⟩ := exists_first hprofile
    exact ⟨first, hfirst, congrArg keyDigest key⟩
  · rintro ⟨first, hfirst, rfl⟩
    refine ⟨first, ?_, rfl⟩
    rw [firstProfiles, List.mem_append, List.mem_cons] at hfirst
    rw [minerProfiles_split, List.mem_append, List.mem_cons, List.mem_cons]
    rcases hfirst with before | same | after
    · exact .inl before
    · exact .inr (.inl same)
    · exact .inr (.inr (.inr after))

theorem length_firstProfiles : firstProfiles.length = 19 := rfl

theorem length_minerProfiles : (minerProfiles (K := ℝ)).length = 20 := rfl

theorem strategyDigests_length : (Grouping.distinct ((minerProfiles (K := ℝ)).map
    MinerProfile.strategyDigest)).length = 19 := by
  rw [strategyDigests_perm.length_eq, List.length_map, length_firstProfiles]

theorem sharedCharacteristics_profiles :
    sharedCharacteristics (minerProfiles (K := ℝ)) = true := by
  refine List.all_eq_true.mpr fun profile hprofile => ?_
  cases hfind : minerProfiles.find? fun p : MinerProfile ℝ =>
      decide (p.strategyDigest = profile.strategyDigest) with
  | none => rfl
  | some representative =>
    have same : representative.strategyDigest = profile.strategyDigest := by
      simpa using List.find?_some hfind
    exact decide_eq_true
      (alike hprofile (List.mem_of_find?_eq_some hfind) same.symm)

end Profiles

section Trials

variable {S : Type} (source : NormalSource ℝ S)

/-- A bound that is not positive is never undercut. -/
theorem ensures_below (bound : ℝ) :
    Ensures (below source bound : Step S Bool) fun b => bound ≤ 0 → b = false := by
  refine (ensures_random source.toRandomSource).bind fun x hx => ensures_pure fun low => ?_
  exact decide_eq_false (not_lt.mpr (low.trans hx.1))

theorem ensures_andBelow (first : Bool) (bound : ℝ) :
    Ensures (andBelow source first bound : Step S Bool) fun b =>
      (b = true → first = true) ∧ (bound ≤ 0 → b = false) := by
  refine ensures_ite (fun known => ?_) fun _ => ensures_pure ⟨fun h => absurd h (by decide), fun _ => rfl⟩
  exact (ensures_below source bound).imp fun b low => ⟨fun _ => known, low⟩

theorem ensures_uniform {low high : ℝ} (positive : 0 < low) (ordered : low ≤ high) :
    Ensures (uniform source low high : Step S ℝ) (0 < ·) := by
  refine (ensures_random source.toRandomSource).bind fun x hx => ensures_pure ?_
  exact add_pos_of_pos_of_nonneg positive (mul_nonneg (sub_nonneg.mpr ordered) hx.1)

theorem ensures_noise (sigma : ℝ) : Ensures (noise source sigma : Step S ℝ) (0 < ·) :=
  (ensures_gauss source 0 sigma).bind fun x _ => ensures_pure (Real.exp_pos x)

theorem ensures_outliers (scenario : ValidatorScenario ℝ) :
    Ensures (outliers source scenario : Step S (ℝ × ℝ)) fun p => 0 < p.1 ∧ 0 < p.2 := by
  have drawn : Ensures (uniform source 4 12 : Step S ℝ) (0 < ·) :=
    ensures_uniform source (by norm_num) (by norm_num)
  refine (ensures_below source _).bind fun b _ => ensures_ite (fun _ => ?_) fun _ => ?_
  · refine (ensures_below source _).bind fun b' _ => ensures_ite (fun _ => ?_) fun _ => ?_
    · exact drawn.bind fun x hx => ensures_pure ⟨hx, one_pos⟩
    · exact drawn.bind fun x hx => ensures_pure ⟨one_pos, hx⟩
  · exact ensures_pure ⟨one_pos, one_pos⟩

theorem ensures_multiplier {multipliers : List ℝ} {familyIndex : Nat}
    (inside : familyIndex < multipliers.length) :
    Ensures (multiplier multipliers familyIndex : Step S ℝ) (· ∈ multipliers) := by
  rw [multiplier, List.getElem?_eq_getElem inside]
  exact ensures_pure (List.getElem_mem inside)

/-- The mean times of both arms are positive. -/
structure PositiveMeans (means : TrialMeans ℝ) : Prop where
  baseCold : 0 < means.baseCold
  baseWarm : 0 < means.baseWarm
  candidateCold : 0 < means.candidateCold
  candidateWarm : 0 < means.candidateWarm

variable {profile : MinerProfile ℝ} {scenario : ValidatorScenario ℝ} {familyIndex : Nat}

theorem ensures_trialMeans (runnable : Runnable profile) (usable : Usable scenario)
    (inside : familyIndex < workloadFamilies.length) :
    Ensures (trialMeans profile scenario familyIndex : Step S (TrialMeans ℝ)) PositiveMeans := by
  refine (ensures_multiplier (runnable.families ▸ inside)).bind fun m _ => ?_
  refine (ensures_multiplier (usable.families ▸ inside)).bind fun bias hbias => ensures_pure ?_
  have scale := usable.hardware
  have biased := usable.biases bias hbias
  have floor : ∀ x : ℝ, 0 < max (5 / 100) x := fun x => lt_max_of_lt_left (by norm_num)
  have slowed : ∀ {base : ℝ} (x : ℝ), 0 < base → 0 < base / max (5 / 100) x * bias :=
    fun x positive => mul_pos (div_pos positive (floor x)) biased
  have baseCold : 0 < 80 * scenario.hardwareScale := by linarith
  have baseWarm : 0 < 24 * scenario.hardwareScale := by linarith
  exact ⟨baseCold, baseWarm, slowed _ baseCold, slowed _ baseWarm⟩

theorem orderMultiplier_pos (usable : Usable scenario) (first : Bool) :
    0 < orderMultiplier scenario first := by
  have bias := usable.order
  cases first with
  | true => exact add_pos_of_pos_of_nonneg one_pos bias
  | false => exact lt_max_of_lt_left (by norm_num)

/-- Every trial can be recorded, whatever its noise. -/
theorem ensures_makeTrial (usable : Usable scenario) {workerId : Text} (identified : workerId ≠ [])
    {means : TrialMeans ℝ} (positive : PositiveMeans means) (startWithBaseline : Bool)
    (trialIndex : Nat) :
    Ensures (makeTrial source profile scenario workerId means startWithBaseline trialIndex)
      fun trial => trial.workerId = workerId := by
  refine (ensures_outliers source scenario).bind fun outlier houtlier => ?_
  refine (ensures_noise source _).bind fun baselineCold hbaselineCold => ?_
  refine (ensures_noise source _).bind fun candidateCold hcandidateCold => ?_
  refine (ensures_noise source _).bind fun baselineWarm hbaselineWarm => ?_
  refine (ensures_noise source _).bind fun candidateWarm hcandidateWarm => ?_
  refine (ensures_below source _).bind fun timedOut _ => ?_
  have times : ∀ {mean outlier noise : ℝ} (first : Bool), 0 < mean → 0 < outlier → 0 < noise →
      0 < mean * orderMultiplier scenario first * outlier * noise := fun first hm ho hn =>
    mul_pos (mul_pos (mul_pos hm (orderMultiplier_pos usable first)) ho) hn
  exact ensures_lift (dif_pos ⟨identified, times _ positive.baseCold houtlier.1 hbaselineCold,
    times _ positive.candidateCold houtlier.2 hcandidateCold,
    times _ positive.baseWarm houtlier.1 hbaselineWarm,
    times _ positive.candidateWarm houtlier.2 hcandidateWarm⟩) rfl

theorem ensures_makeTrials (runnable : Runnable profile) (usable : Usable scenario)
    (inside : familyIndex < workloadFamilies.length) {workerId : Text} (identified : workerId ≠ [])
    (trialCount : Nat) :
    Ensures (makeTrials source profile scenario familyIndex workerId trialCount) fun trials =>
      trials.length = trialCount := by
  refine (ensures_trialMeans runnable usable inside).bind fun means positive => ?_
  refine (ensures_below source _).bind fun start _ => ?_
  refine Ensures.imp (ensures_mapM fun i _ =>
    ensures_makeTrial source usable identified positive start i) fun trials related => ?_
  rw [← related.length_eq, List.length_range]

end Trials

section Evaluation

/-- What holds of an evaluation of a strategy in an epoch. -/
structure Evaluated (profile : MinerProfile ℝ) (scenario : ValidatorScenario ℝ) (trialCount : Nat)
    (evaluation : StrategyEpochEvaluation ℝ) : Prop where
  rewardBounds : 0 ≤ evaluation.reward ∧ evaluation.reward ≤ 100
  gated : evaluation.measuredCorrect = false → evaluation.reward = 0
  compliant : evaluation.compliant = true → evaluation.available = true
  correct : evaluation.measuredCorrect = true → evaluation.compliant = true
  invalid : evaluation.invalid = (evaluation.available && !evaluation.measuredCorrect)
  accepted : evaluation.falseAcceptance = false
  injected : evaluation.injectedFalseClaim =
    (scenario.falseAcceptClaim && evaluation.available && !evaluation.measuredCorrect)
  acceptedInjected : evaluation.acceptedInjectedFalseClaim = false
  trialPairs : evaluation.trialPairs = if evaluation.available then trialCount else 0
  hopeless : profile.correctness ≤ 0 ∨ profile.compliance ≤ 0 → evaluation.measuredCorrect = false
  silent : scenario.allFail = true → evaluation.available = false

variable {S : Type} (source : NormalSource ℝ S) {policy : BenchmarkPolicy ℝ}
  {profile : MinerProfile ℝ} {scenario : ValidatorScenario ℝ} {familyIndex : Nat}

/-- What is measured is scored within bounds, by the validator's own verdict. -/
theorem ensures_measure (weights : policy.horizonWeights.sum ≤ 1) (runnable : Runnable profile)
    (usable : Usable scenario) (inside : familyIndex < workloadFamilies.length)
    {databaseBytes : Nat} (database : 0 < databaseBytes) {workerId : Text}
    (identified : workerId ≠ []) (trialCount : Nat) (measuredCorrect compliant : Bool) :
    Ensures (measure source policy profile scenario familyIndex databaseBytes workerId trialCount
        measuredCorrect compliant) fun s =>
      (0 ≤ s.1.reward ∧ s.1.reward ≤ 100) ∧ s.2 = trialCount ∧
        (measuredCorrect = false ∨ compliant = false →
          s.1.reward = 0 ∧ s.1.eligible = false) := by
  refine (ensures_makeTrials source runnable usable inside identified trialCount).bind
    fun trials hlength => ?_
  have setup : 0 ≤ 80 * scenario.hardwareScale * profile.setupFraction := by
    have scale := usable.hardware
    exact mul_nonneg (by linarith) runnable.setup
  refine (ensures_lift (P := fun e : BenchmarkEvidence ℝ => e.correct = measuredCorrect ∧
    e.compliant = compliant) (dif_pos ⟨setup, database⟩) ⟨rfl, rfl⟩).bind fun evidence hevidence => ?_
  obtain ⟨score, hscore, -⟩ := scoreBenchmark_ok policy evidence
  have within := withinBounds_of_score weights hscore
  refine (ensures_lift (P := (· = score)) (mapError_ok_iff.mpr hscore) rfl).bind fun found hfound => ?_
  subst hfound
  refine ensures_pure ⟨within.bounds, hlength, fun rejected => ?_⟩
  have gated : evidence.correct = false ∨ evidence.compliant = false := by
    rw [hevidence.1, hevidence.2]
    exact rejected
  obtain ⟨other, hother, ineligible⟩ : ∃ score, scoreBenchmark policy evidence = .ok score ∧
      score.eligible = false := scoreBenchmark_ineligible gated
  obtain rfl := Except.ok.inj (hscore.symm.trans hother)
  exact ⟨within.gates (.inr gated), ineligible⟩

theorem ensures_evaluateStrategyEpoch (weights : policy.horizonWeights.sum ≤ 1)
    (runnable : Runnable profile) (usable : Usable scenario)
    (inside : familyIndex < workloadFamilies.length) {databaseBytes : Nat}
    (database : 0 < databaseBytes) {workerId : Text} (identified : workerId ≠ [])
    (trialCount : Nat) :
    Ensures (evaluateStrategyEpoch source policy profile scenario familyIndex databaseBytes workerId
      trialCount) (Evaluated profile scenario trialCount) := by
  refine (ensures_andBelow source _ _).bind fun available havailable => ?_
  refine (ensures_andBelow source _ _).bind fun compliant hcompliant => ?_
  refine (ensures_andBelow source _ _).bind fun measuredCorrect hcorrect => ?_
  have hopeless : profile.correctness ≤ 0 ∨ profile.compliance ≤ 0 → measuredCorrect = false := by
    rintro (never | never)
    · exact hcorrect.2 never
    · exact Bool.eq_false_iff.mpr fun h => Bool.eq_false_iff.mp (hcompliant.2 never) (hcorrect.1 h)
  have silent : scenario.allFail = true → available = false := by
    intro fail
    exact Bool.eq_false_iff.mpr fun h => by simpa [fail] using havailable.1 h
  -- a verdict that is wrong at all is wrong on the answer
  have verdict : (!measuredCorrect || !compliant) = !measuredCorrect := by
    cases measuredCorrect with
    | false => rfl
    | true => rw [hcorrect.1 rfl]; rfl
  refine ensures_ite (fun answered => ?_) fun unanswered => ?_
  · refine (ensures_measure source weights runnable usable inside database identified trialCount
      measuredCorrect compliant).bind fun score hscore => ensures_pure ?_
    obtain ⟨bounds, pairs, rejected⟩ := hscore
    have accepted : ((!measuredCorrect || !compliant) && score.1.eligible) = false := by
      rw [verdict]
      cases hverdict : measuredCorrect with
      | true => rfl
      | false => rw [(rejected (.inl hverdict)).2]; rfl
    refine ⟨bounds, fun h => (rejected (.inl h)).1, fun _ => answered, hcorrect.1, ?_, accepted, ?_,
      ?_, ?_, hopeless, silent⟩
    · exact congrArg (available && ·) verdict
    · cases hclaim : scenario.falseAcceptClaim with
      | false => simp [strategyEpochEvaluation, hclaim]
      | true => simp [strategyEpochEvaluation, hclaim, answered]
    · exact (congrArg (_ && ·) accepted).trans (Bool.and_false _)
    · rw [answered]
      exact pairs
  · have absent := Bool.eq_false_iff.mpr unanswered
    refine ensures_pure ⟨⟨le_refl 0, by norm_num [strategyEpochEvaluation]⟩, fun _ => rfl,
      hcompliant.1, hcorrect.1, congrArg (available && ·) verdict, rfl, ?_, Bool.and_false _, ?_, hopeless, silent⟩
    · simp [strategyEpochEvaluation, absent]
    · simp [strategyEpochEvaluation, absent]

end Evaluation

end SimulatedEvaluations
