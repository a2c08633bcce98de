import PlanRace.CloneNeutrality
import PlanRace.SimulatedEvaluations

/-!
# The epochs of a replication

The loops of a replication evaluate every strategy once an epoch and record
every profile. What they leave behind is a journal: an evaluation for each
epoch and strategy, the observations made from it, and the counters of both.
-/

namespace SimulatedEpochs

open JsonText ByteStrings Sha256 CanonicalJson Grouping Draws ScoringV2 BenchmarkScoring MechanismSimulation SimulatedEvaluations
  Fallible

section Counting

/-- The counters after some evaluations, some of them answered, and cache hits. -/
structure Accounted (scenario : ValidatorScenario ℝ) (trialCount evaluations hits answered : Nat)
    (counters : Counters) : Prop where
  evaluated : counters.strategyEvaluations = evaluations
  remembered : counters.duplicateCacheHits = hits
  accepted : counters.falseAcceptances = 0
  acceptedInjected : counters.acceptedInjectedFalseClaims = 0
  injected : counters.injectedFalseClaims =
    if scenario.falseAcceptClaim then counters.invalidAttempts else 0
  wrong : counters.invalidAttempts ≤ answered
  few : answered ≤ evaluations
  pairs : counters.trialPairs = answered * trialCount
  silent : scenario.allFail = true → answered = 0

variable {scenario : ValidatorScenario ℝ} {trialCount evaluations hits answered : Nat}
  {counters : Counters}

theorem accounted_start : Accounted scenario trialCount 0 0 0 {} where
  evaluated := rfl
  remembered := rfl
  accepted := rfl
  acceptedInjected := rfl
  injected := (ite_self 0).symm
  wrong := le_refl 0
  few := le_refl 0
  pairs := (Nat.zero_mul _).symm
  silent _ := rfl

theorem Accounted.evaluated_succ
    (h : Accounted scenario trialCount evaluations hits answered counters)
    {profile : MinerProfile ℝ} {evaluation : StrategyEpochEvaluation ℝ}
    (sound : Evaluated profile scenario trialCount evaluation) :
    Accounted scenario trialCount (evaluations + 1) hits
      (answered + evaluation.available.toNat) (counters.evaluated evaluation) where
  evaluated := congrArg (· + 1) h.evaluated
  remembered := h.remembered
  accepted := by
    change counters.falseAcceptances + evaluation.falseAcceptance.toNat = 0
    rw [h.accepted, sound.accepted]
    rfl
  acceptedInjected := by
    change counters.acceptedInjectedFalseClaims + evaluation.acceptedInjectedFalseClaim.toNat = 0
    rw [h.acceptedInjected, sound.acceptedInjected]
    rfl
  injected := by
    change counters.injectedFalseClaims + evaluation.injectedFalseClaim.toNat =
      if scenario.falseAcceptClaim then counters.invalidAttempts + evaluation.invalid.toNat else 0
    rw [h.injected, sound.injected, sound.invalid, Bool.and_assoc]
    cases scenario.falseAcceptClaim <;> simp
  wrong := by
    change counters.invalidAttempts + evaluation.invalid.toNat ≤ _
    apply Nat.add_le_add h.wrong
    rw [sound.invalid]
    cases evaluation.available <;> simp [Bool.toNat_le]
  few := Nat.add_le_add h.few (Bool.toNat_le _)
  pairs := by
    change counters.trialPairs + evaluation.trialPairs = _
    rw [h.pairs, sound.trialPairs, Nat.add_mul]
    cases evaluation.available <;> simp
  silent fail := by
    rw [h.silent fail, sound.silent fail]
    rfl

theorem Accounted.hit_succ (h : Accounted scenario trialCount evaluations hits answered counters) :
    Accounted scenario trialCount evaluations (hits + 1) answered counters.hit where
  evaluated := h.evaluated
  remembered := congrArg (· + 1) h.remembered
  accepted := h.accepted
  acceptedInjected := h.acceptedInjected
  injected := h.injected
  wrong := h.wrong
  few := h.few
  pairs := h.pairs
  silent := h.silent

/-- The answered evaluations of a cache. -/
def answeredIn (cache : List (Text × StrategyEpochEvaluation ℝ)) : Nat :=
  (cache.filter fun entry => entry.2.available).length

theorem add_answeredIn_concat (n : Nat) (cache : List (Text × StrategyEpochEvaluation ℝ))
    (entry : Text × StrategyEpochEvaluation ℝ) :
    n + answeredIn (cache ++ [entry]) = n + answeredIn cache + entry.2.available.toNat := by
  rw [answeredIn, List.filter_append, List.length_append, ← Nat.add_assoc]
  cases available : entry.2.available <;> simp [answeredIn, available]

/-- The answered evaluations on a page of the journal, one for each strategy. -/
noncomputable def answeredOn (page : Text → StrategyEpochEvaluation ℝ) : Nat :=
  ((distinct ((minerProfiles (K := ℝ)).map MinerProfile.strategyDigest)).filter
    fun digest => (page digest).available).length

/-- A full cache is read as a page. -/
theorem answeredOn_cache {cache : List (Text × StrategyEpochEvaluation ℝ)}
    (keys : Dict.keys cache = distinct ((minerProfiles (K := ℝ)).map MinerProfile.strategyDigest))
    (default : StrategyEpochEvaluation ℝ) :
    answeredOn (fun digest => (Dict.get? cache digest).getD default) = answeredIn cache := by
  have unique : (Dict.keys cache).Nodup := keys ▸ nodup_distinct _
  rw [answeredOn, ← keys, Dict.keys, List.filter_map, List.length_map, answeredIn]
  refine congrArg List.length (List.filter_congr fun entry hentry => ?_)
  rw [Function.comp_apply, (Dict.get?_eq_some_iff unique).mpr hentry]
  rfl

end Counting

section Alike

/-- What a digest stands for does not depend on the profile that brings it. -/
theorem evaluated_of_alike {p q : MinerProfile ℝ}
    (same : profileEvaluationSignature p = profileEvaluationSignature q)
    {scenario : ValidatorScenario ℝ} {trialCount : Nat} {evaluation : StrategyEpochEvaluation ℝ}
    (h : Evaluated p scenario trialCount evaluation) : Evaluated q scenario trialCount evaluation := by
  simp only [profileEvaluationSignature, Prod.mk.injEq, List.cons.injEq] at same
  obtain ⟨⟨-, -, -, -, -, compliance, correctness, -⟩, -⟩ := same
  exact { h with hopeless := by rw [← compliance, ← correctness]; exact h.hopeless }

end Alike

section Epoch

variable {S : Type} (platform : Platform ℝ S)

/-- The cache of an epoch, after some of its profiles. -/
structure Cached (setting : EpochSetting ℝ) (done : List (MinerProfile ℝ))
    (cache : List (Text × StrategyEpochEvaluation ℝ)) : Prop where
  keys : Dict.keys cache = distinct (done.map MinerProfile.strategyDigest)
  sound : ∀ profile ∈ (minerProfiles : List (MinerProfile ℝ)), ∀ evaluation,
    Dict.get? cache profile.strategyDigest = some evaluation →
      Evaluated profile setting.scenario setting.trialCount evaluation

/-- The profile was recorded with the evaluation in the cache. -/
def Noted (setting : EpochSetting ℝ) (cache : List (Text × StrategyEpochEvaluation ℝ))
    (profile : MinerProfile ℝ) (o : EpochObservation ℝ) : Prop :=
  ∃ evaluation, Dict.get? cache profile.strategyDigest = some evaluation ∧
    observation platform.floatText setting.task profile evaluation = .ok o

/-- What the loop over the profiles has done to the progress it started from. -/
structure InEpoch (setting : EpochSetting ℝ) (before : Progress ℝ) (done : List (MinerProfile ℝ))
    (state : EpochProgress ℝ) : Prop where
  cached : Cached setting done state.cache
  observed : ∃ made, state.progress.observations = before.observations ++ made ∧
    List.Forall₂ (Noted platform setting state.cache) done made
  counted : ∃ hits, hits + (distinct (done.map MinerProfile.strategyDigest)).length = done.length ∧
    ∀ {e h a}, Accounted setting.scenario setting.trialCount e h a before.counters →
      Accounted setting.scenario setting.trialCount
        (e + (distinct (done.map MinerProfile.strategyDigest)).length) (h + hits)
        (a + answeredIn state.cache) state.progress.counters

theorem inEpoch_start (setting : EpochSetting ℝ) (before : Progress ℝ) :
    InEpoch platform setting before [] ⟨[], before⟩ where
  cached := ⟨rfl, fun _ _ _ h => absurd h (by simp [Dict.get?])⟩
  observed := ⟨[], (List.append_nil _).symm, .nil⟩
  counted := ⟨0, rfl, fun h => h⟩

/-- The bounds within which the loops are sound. -/
structure Sound (setting : EpochSetting ℝ) : Prop where
  weights : setting.policy.horizonWeights.sum ≤ 1
  usable : Usable setting.scenario
  identified : setting.workerId ≠ []

theorem familyIndex_lt (setting : EpochSetting ℝ) : setting.familyIndex < workloadFamilies.length :=
  List.idxOf_lt_length_of_mem (taskFamily_mem setting.epoch)

theorem databaseBytes_pos (setting : EpochSetting ℝ) : 0 < setting.databaseBytes := by
  unfold EpochSetting.databaseBytes
  omega

/-- A profile is recorded from what its strategy has in the cache afterwards. -/
structure LookedUp (setting : EpochSetting ℝ) (before : Progress ℝ) (done : List (MinerProfile ℝ))
    (profile : MinerProfile ℝ) (found : StrategyEpochEvaluation ℝ × EpochProgress ℝ) : Prop where
  cached : Cached setting (done ++ [profile]) found.2.cache
  entry : Dict.get? found.2.cache profile.strategyDigest = some found.1
  observed : ∃ made, found.2.progress.observations = before.observations ++ made ∧
    List.Forall₂ (Noted platform setting found.2.cache) done made
  counted : ∃ hits, hits + (distinct ((done ++ [profile]).map MinerProfile.strategyDigest)).length =
      done.length + 1 ∧
    ∀ {e h a}, Accounted setting.scenario setting.trialCount e h a before.counters →
      Accounted setting.scenario setting.trialCount
        (e + (distinct ((done ++ [profile]).map MinerProfile.strategyDigest)).length) (h + hits)
        (a + answeredIn found.2.cache) found.2.progress.counters

variable {platform} {setting : EpochSetting ℝ} {before : Progress ℝ} {done : List (MinerProfile ℝ)}
  {state : EpochProgress ℝ} {profile : MinerProfile ℝ}

theorem lookedUp_of_hit (h : InEpoch platform setting before done state)
    {evaluation : StrategyEpochEvaluation ℝ}
    (hit : Dict.get? state.cache profile.strategyDigest = some evaluation) :
    LookedUp platform setting before done profile (evaluation, { state with
      progress := { state.progress with counters := state.progress.counters.hit } }) := by
  have met : profile.strategyDigest ∈ done.map MinerProfile.strategyDigest := by
    rw [← mem_distinct, ← h.cached.keys]
    exact Dict.mem_keys_iff.mpr ⟨evaluation, hit⟩
  have same : distinct ((done ++ [profile]).map MinerProfile.strategyDigest) =
      distinct (done.map MinerProfile.strategyDigest) := by
    rw [List.map_append]
    exact distinct_concat_of_mem met
  obtain ⟨hits, total, counted⟩ := h.counted
  refine ⟨⟨?_, h.cached.sound⟩, hit, h.observed, hits + 1, ?_, fun start => ?_⟩
  · rw [same]
    exact h.cached.keys
  · rw [same]
    omega
  · rw [same]
    exact (counted start).hit_succ

theorem lookedUp_of_miss (hprofile : profile ∈ minerProfiles)
    (h : InEpoch platform setting before done state)
    (miss : Dict.get? state.cache profile.strategyDigest = none)
    {evaluation : StrategyEpochEvaluation ℝ}
    (sound : Evaluated profile setting.scenario setting.trialCount evaluation) :
    LookedUp platform setting before done profile (evaluation, {
      cache := Dict.set state.cache profile.strategyDigest evaluation
      progress := { state.progress with
        counters := state.progress.counters.evaluated evaluation } }) := by
  have new := Dict.get?_eq_none_iff.mp miss
  have unmet : profile.strategyDigest ∉ done.map MinerProfile.strategyDigest := by
    rwa [← mem_distinct, ← h.cached.keys]
  have more : distinct ((done ++ [profile]).map MinerProfile.strategyDigest) =
      distinct (done.map MinerProfile.strategyDigest) ++ [profile.strategyDigest] := by
    rw [List.map_append]
    exact distinct_concat_of_new unmet
  have cache := Dict.set_of_new new evaluation
  have kept : ∀ {k e}, Dict.get? state.cache k = some e →
      Dict.get? (state.cache ++ [(profile.strategyDigest, evaluation)]) k = some e := by
    intro k e hk
    rw [Dict.get?_concat new, if_neg, hk]
    rintro rfl
    rw [miss] at hk
    cases hk
  obtain ⟨hits, total, counted⟩ := h.counted
  obtain ⟨made, observed, noted⟩ := h.observed
  rw [cache]
  refine ⟨⟨?_, fun p hp e he => ?_⟩, ?_, ⟨made, observed, ?_⟩, hits, ?_, fun start => ?_⟩
  · rw [more, Dict.keys_append, h.cached.keys]
    rfl
  · dsimp only at he
    rw [Dict.get?_concat new] at he
    split_ifs at he with own
    · cases he
      exact evaluated_of_alike (alike hprofile hp own.symm) sound
    · exact h.cached.sound p hp e he
  · dsimp only
    rw [Dict.get?_concat new, if_pos rfl]
  · exact noted.imp fun p o ⟨e, he, ho⟩ => ⟨e, kept he, ho⟩
  · rw [more, List.length_append, List.length_singleton]
    omega
  · rw [more, List.length_append, add_answeredIn_concat]
    exact (counted start).evaluated_succ sound

theorem ensures_lookUp (sound : Sound setting) (hprofile : profile ∈ minerProfiles)
    (h : InEpoch platform setting before done state) :
    Ensures (lookUp platform setting state profile)
      (LookedUp platform setting before done profile) := by
  cases hfound : Dict.get? state.cache profile.strategyDigest with
  | some evaluation =>
    rw [lookUp, hfound]
    exact ensures_pure (lookedUp_of_hit h hfound)
  | none =>
    rw [lookUp, hfound]
    refine (ensures_evaluateStrategyEpoch platform.source sound.weights (runnable_of_mem hprofile)
      sound.usable (familyIndex_lt setting) (databaseBytes_pos setting) sound.identified
      setting.trialCount).bind fun evaluation hevaluation => ensures_pure ?_
    exact lookedUp_of_miss hprofile h hfound hevaluation

theorem keyDigest_ne_nil (key : Text) : keyDigest key ≠ [] := by
  apply List.ne_nil_of_length_pos
  rw [keyDigest, length_hexText, length_sha256]
  decide

theorem evidenceDigest_ne_nil (floatText : ℝ → Text) (task : ScheduledTask) (strategyDigest : Text)
    (evaluation : StrategyEpochEvaluation ℝ) :
    evidenceDigest floatText task strategyDigest evaluation ≠ [] := by
  have prefixed : digestPrefix ≠ [] := by decide
  exact fun he => prefixed (List.append_eq_nil_iff.mp he).1

/-- A sound evaluation of a profile can be recorded. -/
theorem exists_observation (floatText : ℝ → Text) (task : ScheduledTask)
    (runnable : Runnable profile) {scenario : ValidatorScenario ℝ} {trialCount : Nat}
    {evaluation : StrategyEpochEvaluation ℝ} (sound : Evaluated profile scenario trialCount evaluation) :
    ∃ o, observation floatText task profile evaluation = .ok o :=
  ⟨_, dif_pos ⟨⟨runnable.identified, task.identified.1, task.identified.2.1, task.identified.2.2,
    evidenceDigest_ne_nil _ _ _ _, keyDigest_ne_nil _, keyDigest_ne_nil _⟩, sound.rewardBounds⟩⟩

theorem ensures_runProfile (sound : Sound setting)
    (hprofile : profile ∈ minerProfiles) (h : InEpoch platform setting before done state) :
    Ensures (runProfile platform setting state profile)
      (InEpoch platform setting before (done ++ [profile])) := by
  refine (ensures_lookUp sound hprofile h).bind fun found hfound => ?_
  have evaluated := hfound.cached.sound profile hprofile found.1 hfound.entry
  obtain ⟨o, ho⟩ := exists_observation platform.floatText setting.task (runnable_of_mem hprofile)
    evaluated
  refine (ensures_lift (P := (· = o)) ho rfl).bind fun made hmade => ensures_pure ?_
  subst hmade
  obtain ⟨made', observed, noted⟩ := hfound.observed
  obtain ⟨hits, total, counted⟩ := hfound.counted
  refine ⟨hfound.cached, ⟨made' ++ [made], ?_, ?_⟩, hits, ?_, counted⟩
  · dsimp only
    rw [observed, List.append_assoc]
  · exact List.rel_append noted (.cons ⟨found.1, hfound.entry, ho⟩ .nil)
  · rw [List.length_append]
    exact total

end Epoch

section Replication

/-- The evaluations of a replication, by epoch and strategy digest. -/
abbrev Journal := Nat → Text → StrategyEpochEvaluation ℝ

/-- The observation of a round, an epoch and a profile, made from the journal. -/
def Entered (floatText : ℝ → Text) (journal : Journal) (round : Nat × MinerProfile ℝ)
    (o : EpochObservation ℝ) : Prop :=
  observation floatText (scheduledTask round.1) round.2
    (journal round.1 round.2.strategyDigest) = .ok o

noncomputable def rounds (epochs : List Nat) : List (Nat × MinerProfile ℝ) :=
  epochs.flatMap fun epoch => minerProfiles.map fun profile => (epoch, profile)

/-- What one epoch adds to the progress. -/
structure EpochAdded (floatText : ℝ → Text) (scenario : ValidatorScenario ℝ) (trialCount epoch : Nat)
    (before after : Progress ℝ) (page : Text → StrategyEpochEvaluation ℝ) : Prop where
  sound : ∀ profile ∈ (minerProfiles : List (MinerProfile ℝ)),
    Evaluated profile scenario trialCount (page profile.strategyDigest)
  observed : ∃ made, after.observations = before.observations ++ made ∧
    List.Forall₂ (Entered floatText fun _ => page)
      (minerProfiles.map fun profile => (epoch, profile)) made
  counted : ∀ {e h a}, Accounted scenario trialCount e h a before.counters →
    Accounted scenario trialCount (e + 19) (h + 1) (a + answeredOn page) after.counters

variable {S : Type} (platform : Platform ℝ S) {policy : BenchmarkPolicy ℝ}
  {scenario : ValidatorScenario ℝ}

theorem ensures_runEpoch (weights : policy.horizonWeights.sum ≤ 1)
    (usable : Usable scenario) (config : SimulationConfig) (cohort : Nat) (before : Progress ℝ)
    (epoch : Nat) :
    Ensures (runEpoch platform policy config cohort scenario before epoch) fun after =>
      ∃ page, EpochAdded platform.floatText scenario config.trialsPerTask epoch before after page := by
  have identified : "cohort-".toList ++ intText cohort ++ "-scenario-".toList ++
      scenario.scenarioId ++ "-epoch-".toList ++ intText epoch ≠ [] := by simp
  have started := inEpoch_start platform ⟨policy, scenario, epoch, "cohort-".toList ++
    intText cohort ++ "-scenario-".toList ++ scenario.scenarioId ++ "-epoch-".toList ++
      intText epoch, config.trialsPerTask⟩ before
  refine (ensures_foldlM (fun done profile state hprofile h =>
    ensures_runProfile ⟨weights, usable, identified⟩ hprofile h) started).bind
      fun state h => ensures_pure ?_
  have entry : ∀ profile ∈ (minerProfiles : List (MinerProfile ℝ)),
      ∃ evaluation, Dict.get? state.cache profile.strategyDigest = some evaluation := by
    intro profile hprofile
    rw [← Dict.mem_keys_iff, h.cached.keys, mem_distinct]
    exact List.mem_map_of_mem hprofile
  obtain ⟨made, observed, noted⟩ := h.observed
  obtain ⟨hits, total, counted⟩ := h.counted
  refine ⟨fun digest => (Dict.get? state.cache digest).getD
    (strategyEpochEvaluation scenario false false false none), fun profile hprofile => ?_,
    ⟨made, observed, ?_⟩, fun start => ?_⟩
  · obtain ⟨evaluation, found⟩ := entry profile hprofile
    rw [found]
    exact h.cached.sound profile hprofile evaluation found
  · rw [List.forall₂_map_left_iff]
    refine noted.imp fun profile o ⟨evaluation, found, ho⟩ => ?_
    rw [Entered, found]
    exact ho
  · rw [strategyDigests_length, length_minerProfiles] at total
    obtain rfl : hits = 1 := by omega
    have added := counted start
    rwa [strategyDigests_length, ← answeredOn_cache h.cached.keys
      (strategyEpochEvaluation scenario false false false none)] at added

/-- The answered evaluations of some epochs. -/
noncomputable def answeredBy (journal : Journal) (epochs : List Nat) : Nat :=
  (epochs.map fun epoch => answeredOn (journal epoch)).sum

/-- What the loop over the epochs leaves behind. -/
structure Replicated (floatText : ℝ → Text) (scenario : ValidatorScenario ℝ) (trialCount : Nat)
    (epochs : List Nat) (journal : Journal) (progress : Progress ℝ) : Prop where
  sound : ∀ epoch ∈ epochs, ∀ profile ∈ (minerProfiles : List (MinerProfile ℝ)),
    Evaluated profile scenario trialCount (journal epoch profile.strategyDigest)
  observed : List.Forall₂ (Entered floatText journal) (rounds epochs) progress.observations
  counted : Accounted scenario trialCount (epochs.length * 19) epochs.length
    (answeredBy journal epochs) progress.counters

variable {platform}

/-- A new epoch extends the journal by its page. -/
theorem Replicated.concat {trialCount : Nat} {epochs : List Nat} {journal : Journal}
    {before after : Progress ℝ} {epoch : Nat} {page : Text → StrategyEpochEvaluation ℝ}
    (h : Replicated platform.floatText scenario trialCount epochs journal before)
    (added : EpochAdded platform.floatText scenario trialCount epoch before after page)
    (new : epoch ∉ epochs) :
    Replicated platform.floatText scenario trialCount (epochs ++ [epoch])
      (Function.update journal epoch page) after := by
  have old : ∀ e ∈ epochs, Function.update journal epoch page e = journal e := fun e he =>
    Function.update_of_ne (ne_of_mem_of_not_mem he new) _ _
  obtain ⟨made, observed, entered⟩ := added.observed
  refine ⟨fun e he profile hprofile => ?_, ?_, ?_⟩
  · rcases List.mem_append.mp he with he | he
    · rw [old e he]
      exact h.sound e he profile hprofile
    · rw [List.mem_singleton.mp he, Function.update_self]
      exact added.sound profile hprofile
  · have earlier : List.Forall₂ (Entered platform.floatText (Function.update journal epoch page))
        (rounds epochs) before.observations := by
      refine ((List.forall₂_and_left (p := (· ∈ rounds epochs)) _ _).mpr
        ⟨fun _ hround => hround, h.observed⟩).imp fun round o hround => ?_
      obtain ⟨e, he, profile, -, rfl⟩ : ∃ e ∈ epochs, ∃ profile ∈ minerProfiles,
          (e, profile) = round := by simpa [rounds] using hround.1
      rw [Entered, old e he]
      exact hround.2
    have last : List.Forall₂ (Entered platform.floatText (Function.update journal epoch page))
        (minerProfiles.map fun profile => (epoch, profile)) made := by
      rw [List.forall₂_map_left_iff] at entered ⊢
      refine entered.imp fun profile o ho => ?_
      rw [Entered, Function.update_self]
      exact ho
    rw [observed, rounds, List.flatMap_append, List.flatMap_singleton]
    exact List.rel_append earlier last
  · have answered : answeredBy (Function.update journal epoch page) (epochs ++ [epoch]) =
        answeredBy journal epochs + answeredOn page := by
      rw [answeredBy, List.map_append, List.sum_append, List.map_singleton, List.sum_singleton,
        Function.update_self, List.map_congr_left fun e he => congrArg answeredOn (old e he)]
      rfl
    rw [List.length_append, List.length_singleton, Nat.add_mul, answered]
    exact added.counted h.counted

variable (platform) in
theorem ensures_runEpochs (weights : policy.horizonWeights.sum ≤ 1)
    (usable : Usable scenario) (config : SimulationConfig) (cohort : Nat) :
    Ensures (runEpochs platform policy config cohort scenario) fun progress =>
      ∃ journal, Replicated platform.floatText scenario config.trialsPerTask
        (List.range config.epochs) journal progress := by
  have start : ([] : List Nat).Nodup → ∃ journal, Replicated platform.floatText scenario
      config.trialsPerTask [] journal {} := fun _ =>
    ⟨fun _ _ => strategyEpochEvaluation scenario false false false none,
      fun _ he => absurd he List.not_mem_nil, .nil, by simpa [answeredBy] using accounted_start⟩
  have step : ∀ done epoch before, epoch ∈ List.range config.epochs →
      (done.Nodup → ∃ journal, Replicated platform.floatText scenario config.trialsPerTask done
        journal before) →
      Ensures (runEpoch platform policy config cohort scenario before epoch) fun after =>
        (done ++ [epoch]).Nodup → ∃ journal, Replicated platform.floatText scenario
          config.trialsPerTask (done ++ [epoch]) journal after := by
    intro done epoch before _ h
    refine (ensures_runEpoch platform weights usable config cohort before epoch).imp
      fun after ⟨page, added⟩ distinct => ?_
    obtain ⟨nodup, -, apart⟩ := List.nodup_append'.mp distinct
    obtain ⟨journal, replicated⟩ := h nodup
    exact ⟨_, replicated.concat added fun m => apart m List.mem_cons_self⟩
  exact (ensures_foldlM step start).imp fun progress h => h List.nodup_range

end Replication

end SimulatedEpochs
