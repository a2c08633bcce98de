import PlanRace.HardGates
import PlanRace.SimulatedEpochs

/-!
# The network of a replication

The observations that a replication records are a network that the scorer
accepts. A profile whose answers are never correct has no eligible aggregate in
it, and profiles of one strategy submit exact copies.
-/

namespace SimulatedNetwork

open JsonText Grouping CanonicalJson LexOrder ScoringV2 NetworkAggregation Allocation CloneNeutrality
  MechanismSimulation SimulatedEvaluations SimulatedEpochs Fallible

section Records

variable {floatText : ℝ → Text} {journal : Journal} {epoch : Nat} {profile : MinerProfile ℝ}
  {o : EpochObservation ℝ}

/-- What an observation takes from its profile and from the journal. -/
structure Made (floatText : ℝ → Text) (journal : Journal) (epoch : Nat)
    (profile : MinerProfile ℝ) (o : EpochObservation ℝ) : Prop where
  minerId : o.minerId = profile.profileId
  metadata : o.metadata =
    ((scheduledTask epoch).epoch, (scheduledTask epoch).family, (scheduledTask epoch).taskCommitment)
  taskId : o.taskId = (scheduledTask epoch).taskId
  available : o.available = (journal epoch profile.strategyDigest).available
  correct : o.correct = (journal epoch profile.strategyDigest).measuredCorrect
  compliant : o.compliant = (journal epoch profile.strategyDigest).compliant
  strategyDigest : o.strategyDigest = profile.strategyDigest
  behaviorDigest : o.behaviorDigest = profile.behaviorDigest
  reward : o.reward = (journal epoch profile.strategyDigest).reward
  evidenceDigest : o.evidenceDigest = evidenceDigest floatText (scheduledTask epoch)
    profile.strategyDigest (journal epoch profile.strategyDigest)
  alone : o.duplicateGroupSize = 1

theorem made_of_entered (h : Entered floatText journal (epoch, profile) o) :
    Made floatText journal epoch profile o := by
  unfold Entered observation checked at h
  split_ifs at h with valid
  cases h
  exact ⟨rfl, rfl, rfl, rfl, rfl, rfl, rfl, rfl, rfl, rfl, rfl⟩

/-- Two observations with one content are one. -/
theorem observation_ext {o p : EpochObservation ℝ} (minerId : o.minerId = p.minerId)
    (metadata : o.metadata = p.metadata) (taskId : o.taskId = p.taskId)
    (available : o.available = p.available) (correct : o.correct = p.correct)
    (compliant : o.compliant = p.compliant) (strategyDigest : o.strategyDigest = p.strategyDigest)
    (behaviorDigest : o.behaviorDigest = p.behaviorDigest) (reward : o.reward = p.reward)
    (evidenceDigest : o.evidenceDigest = p.evidenceDigest)
    (size : o.duplicateGroupSize = p.duplicateGroupSize) : o = p := by
  cases o
  cases p
  simp only [EpochObservation.metadata, Prod.mk.injEq] at metadata
  obtain ⟨epoch, family, commitment⟩ := metadata
  simp only at *
  subst_vars
  rfl

end Records

section Schedule

/-- No two epochs below a number have one task identifier. -/
def DistinctTasks (epochs : Nat) : Prop :=
  ((List.range epochs).map fun epoch => (scheduledTask epoch).taskId).Nodup

variable {epochs first second : Nat}

theorem taskId_injOn (distinct : DistinctTasks epochs) (hfirst : first < epochs)
    (hsecond : second < epochs) (same : (scheduledTask first).taskId = (scheduledTask second).taskId) :
    first = second :=
  List.inj_on_of_nodup_map distinct (List.mem_range.mpr hfirst) (List.mem_range.mpr hsecond) same

/-- A commitment shows the whole hash, and an identifier its first half. -/
theorem taskId_of_commitment
    (same : (scheduledTask first).taskCommitment = (scheduledTask second).taskCommitment) :
    (scheduledTask first).taskId = (scheduledTask second).taskId := by
  have hash : taskHash first = taskHash second := List.append_cancel_left same
  change (taskHash first).take 32 = (taskHash second).take 32
  rw [hash]

end Schedule

section Answered

variable {floatText : ℝ → Text} {scenario : ValidatorScenario ℝ} {trialCount epochs : Nat}
  {journal : Journal} {progress : Progress ℝ}

/-- The answered evaluations behind observations: the available ones, once for each
task and strategy. -/
def answeredEvaluations (observations : List (EpochObservation ℝ)) : Nat :=
  (distinct ((observations.filter EpochObservation.available).map
    fun o => (o.taskId, o.strategyDigest))).length

/-- The tasks and strategies that the journal has an answer for. -/
noncomputable def answeredPairs (journal : Journal) (epochs : List Nat) : List (Text × Text) :=
  epochs.flatMap fun epoch => ((distinct ((minerProfiles (K := ℝ)).map
    MinerProfile.strategyDigest)).filter fun digest => (journal epoch digest).available).map
      fun digest => ((scheduledTask epoch).taskId, digest)

theorem length_answeredPairs (journal : Journal) (epochs : List Nat) :
    (answeredPairs journal epochs).length = answeredBy journal epochs := by
  simp only [answeredPairs, answeredBy, answeredOn, List.length_flatMap, List.length_map]

theorem answeredPairs_nodup (apart : DistinctTasks epochs) (journal : Journal) :
    (answeredPairs journal (List.range epochs)).Nodup := by
  refine List.nodup_flatMap.mpr ⟨fun epoch _ => ?_, ?_⟩
  · exact ((nodup_distinct _).filter _).map (Prod.mk_right_injective _)
  · refine (List.pairwise_map.mp apart).imp fun differ pair hpair other => ?_
    obtain ⟨_, -, rfl⟩ := List.mem_map.mp hpair
    obtain ⟨_, -, same⟩ := List.mem_map.mp other
    exact differ (congrArg Prod.fst same).symm

/-- The observations show the answers of the journal. -/
theorem mem_answeredPairs (entered : List.Forall₂ (Entered floatText journal)
      (rounds (List.range epochs)) progress.observations) (pair : Text × Text) :
    pair ∈ (progress.observations.filter EpochObservation.available).map
        (fun o => (o.taskId, o.strategyDigest)) ↔
      pair ∈ answeredPairs journal (List.range epochs) := by
  constructor
  · intro h
    obtain ⟨o, ho, rfl⟩ := List.mem_map.mp h
    obtain ⟨hin, available⟩ := List.mem_filter.mp ho
    obtain ⟨round, hround, made⟩ := exists_of_forall₂ entered hin
    obtain ⟨epoch, inside, hround⟩ := List.mem_flatMap.mp hround
    obtain ⟨profile, hprofile, rfl⟩ := List.mem_map.mp hround
    have made := made_of_entered made
    refine List.mem_flatMap.mpr ⟨epoch, inside, List.mem_map.mpr ⟨profile.strategyDigest,
      List.mem_filter.mpr ⟨mem_distinct.mpr (List.mem_map_of_mem hprofile), ?_⟩, ?_⟩⟩
    · rw [← made.available, available]
    · rw [made.taskId, made.strategyDigest]
  · intro h
    obtain ⟨epoch, inside, h⟩ := List.mem_flatMap.mp h
    obtain ⟨digest, hdigest, rfl⟩ := List.mem_map.mp h
    obtain ⟨listed, available⟩ := List.mem_filter.mp hdigest
    obtain ⟨profile, hprofile, rfl⟩ := List.mem_map.mp (mem_distinct.mp listed)
    have round : (epoch, profile) ∈ rounds (List.range epochs) :=
      List.mem_flatMap.mpr ⟨epoch, inside, List.mem_map_of_mem hprofile⟩
    obtain ⟨o, ho, made⟩ := exists_of_forall₂ entered.flip round
    have made := made_of_entered made
    refine List.mem_map.mpr ⟨o, List.mem_filter.mpr ⟨ho, made.available.trans available⟩, ?_⟩
    rw [made.taskId, made.strategyDigest]

theorem answeredEvaluations_eq (apart : DistinctTasks epochs) (replicated : Replicated floatText
      scenario trialCount (List.range epochs) journal progress) :
    answeredEvaluations progress.observations = answeredBy journal (List.range epochs) := by
  rw [← length_answeredPairs, answeredEvaluations]
  refine ((List.perm_ext_iff_of_nodup (nodup_distinct _)
    (answeredPairs_nodup apart journal)).mpr fun pair => ?_).length_eq
  rw [mem_distinct]
  exact mem_answeredPairs replicated.observed pair

end Answered

section Kept

variable {floatText : ℝ → Text} {journal : Journal} {epochs : Nat}
  {observations : List (EpochObservation ℝ)}

/-- Observations of the rounds of a replication, each round at most once. -/
structure Kept (floatText : ℝ → Text) (journal : Journal) (epochs : Nat)
    (observations : List (EpochObservation ℝ)) : Prop where
  entered : ∀ o ∈ observations, ∃ epoch < epochs, ∃ profile ∈ (minerProfiles : List (MinerProfile ℝ)),
    Entered floatText journal (epoch, profile) o
  once : (observations.map fun o => (o.minerId, o.taskId)).Nodup

theorem Kept.filter (h : Kept floatText journal epochs observations)
    (keep : EpochObservation ℝ → Bool) :
    Kept floatText journal epochs (observations.filter keep) where
  entered := fun o ho => h.entered o (List.mem_filter.mp ho).1
  once := h.once.sublist (List.filter_sublist.map _)

/-- One identity observes a task once. -/
theorem Kept.taskIds_nodup (h : Kept floatText journal epochs observations) (m : Text) :
    ((under EpochObservation.minerId observations m).map EpochObservation.taskId).Nodup := by
  have own := h.once.sublist
    ((List.filter_sublist (p := fun o : EpochObservation ℝ => decide (o.minerId = m))).map
      fun o => (o.minerId, o.taskId))
  have named : (observations.filter fun o => decide (o.minerId = m)).map
      (fun o => (o.minerId, o.taskId)) =
        ((under EpochObservation.minerId observations m).map EpochObservation.taskId).map
          fun id => (m, id) := by
    rw [List.map_map]
    refine List.map_congr_left fun o ho => ?_
    rw [Function.comp_apply, (mem_under.mp ho).2]
  rw [named] at own
  exact own.of_map

theorem profileIds_nodup : ((minerProfiles (K := ℝ)).map MinerProfile.profileId).Nodup := by decide

theorem profile_unique {p q : MinerProfile ℝ} (hp : p ∈ minerProfiles) (hq : q ∈ minerProfiles)
    (same : p.profileId = q.profileId) : p = q :=
  List.inj_on_of_nodup_map profileIds_nodup hp hq same

theorem mem_rounds {epochs : List Nat} {round : Nat × MinerProfile ℝ} :
    round ∈ rounds epochs ↔ round.1 ∈ epochs ∧ round.2 ∈ minerProfiles := by
  obtain ⟨epoch, profile⟩ := round
  simp [rounds]

theorem rounds_nodup (distinct : DistinctTasks epochs) : ((rounds (List.range epochs)).map
    fun round => (round.2.profileId, (scheduledTask round.1).taskId)).Nodup := by
  rw [rounds, List.map_flatMap, List.nodup_flatMap]
  constructor
  · intro epoch _
    rw [List.map_map]
    refine (List.nodup_map_iff_inj_on profileIds_nodup.of_map).mpr fun p hp q hq same => ?_
    exact profile_unique hp hq (Prod.mk.inj same).1
  · refine (List.pairwise_map.mp distinct).imp fun apart x hx hy => apart ?_
    simp only [List.map_map, List.mem_map] at hx hy
    obtain ⟨p, -, rfl⟩ := hx
    obtain ⟨q, -, same⟩ := hy
    exact (Prod.mk.inj same).2.symm

variable {scenario : ValidatorScenario ℝ} {trialCount : Nat} {progress : Progress ℝ}

theorem networkObservations_perm (replicated : Replicated floatText scenario trialCount
    (List.range epochs) journal progress) :
    (networkObservations progress).Perm progress.observations := by
  have byId : networkObservations progress = ((minerProfiles (K := ℝ)).map
      MinerProfile.profileId).flatMap (under EpochObservation.minerId progress.observations) := by
    rw [List.flatMap_map]
    rfl
  rw [byId]
  refine (flatMap_under_perm EpochObservation.minerId progress.observations
    profileIds_nodup).trans (List.Perm.of_eq (List.filter_eq_self.mpr fun o ho => ?_))
  obtain ⟨⟨epoch, profile⟩, hround, entered⟩ := exists_of_forall₂ replicated.observed ho
  have listed : o.minerId ∈ (minerProfiles (K := ℝ)).map MinerProfile.profileId := by
    rw [(made_of_entered entered).minerId]
    exact List.mem_map_of_mem (mem_rounds.mp hround).2
  simpa using listed

theorem kept_network (distinct : DistinctTasks epochs) (replicated : Replicated floatText scenario
    trialCount (List.range epochs) journal progress) :
    Kept floatText journal epochs (networkObservations progress) where
  entered := by
    intro o ho
    have hin := (networkObservations_perm replicated).mem_iff.mp ho
    obtain ⟨⟨epoch, profile⟩, hround, entered⟩ := exists_of_forall₂ replicated.observed hin
    obtain ⟨inside, hprofile⟩ := mem_rounds.mp hround
    exact ⟨epoch, List.mem_range.mp inside, profile, hprofile, entered⟩
  once := by
    rw [((networkObservations_perm replicated).map _).nodup_iff]
    have same := map_eq_map_of_forall₂ replicated.observed
      (f := fun round => (round.2.profileId, (scheduledTask round.1).taskId))
      (g := fun o => (o.minerId, o.taskId)) fun round o entered => by
        have made := made_of_entered entered
        rw [made.minerId, made.taskId]
    rw [← same]
    exact rounds_nodup distinct

/-- No round is left out. -/
theorem exists_entered (replicated : Replicated floatText scenario trialCount (List.range epochs)
    journal progress) {epoch : Nat} (inside : epoch < epochs) {profile : MinerProfile ℝ}
    (hprofile : profile ∈ minerProfiles) :
    ∃ o ∈ networkObservations progress, Entered floatText journal (epoch, profile) o := by
  have hround : (epoch, profile) ∈ rounds (List.range epochs) :=
    mem_rounds.mpr ⟨List.mem_range.mpr inside, hprofile⟩
  obtain ⟨o, ho, entered⟩ := exists_of_forall₂ replicated.observed.flip hround
  exact ⟨o, (networkObservations_perm replicated).mem_iff.mpr ho, entered⟩

/-- What a replication keeps is a network that the scorer accepts. -/
theorem networkOk_of_kept (distinct : DistinctTasks epochs)
    (kept : Kept floatText journal epochs observations) {policy : AggregationPolicy ℝ}
    (schedule : policy.taskSchedule = simulationTaskSchedule epochs) {roster : List Text}
    (nonempty : roster ≠ []) (unique : roster.Nodup) (inRoster : ∀ o ∈ observations, o.minerId ∈ roster) :
    NetworkOk observations roster policy where
  rosterNonempty := nonempty
  rosterUnique := unique
  inRoster := inRoster
  onSchedule := by
    intro o ho
    obtain ⟨epoch, inside, profile, -, entered⟩ := kept.entered o ho
    have made := made_of_entered entered
    refine ⟨scheduledTask epoch, ?_, made.taskId.symm, made.metadata⟩
    rw [schedule]
    exact List.mem_map_of_mem (List.mem_range.mpr inside)
  oncePerTask := by
    intro m _
    exact kept.taskIds_nodup m
  groups := by
    intro g hg
    have members : ∀ o ∈ g.2, o ∈ observations ∧ o.cacheKey = g.1 := by
      intro o ho
      rw [(mem_groupBy.mp hg).2] at ho
      obtain ⟨hin, hkey⟩ := mem_under.mp ho
      exact ⟨(List.mem_filter.mp hin).1, hkey⟩
    have within : g.2.Sublist observations := by
      rw [(mem_groupBy.mp hg).2]
      exact List.filter_sublist.trans List.filter_sublist
    -- one commitment and one strategy name one entry of the journal
    have entry : ∀ o ∈ g.2, ∀ p ∈ g.2, o.taskId = p.taskId ∧
        o.evidenceDigest = p.evidenceDigest ∧ o.reward = p.reward := by
      intro o ho p hp
      obtain ⟨e, he, a, -, ha⟩ := kept.entered o (members o ho).1
      obtain ⟨e', he', b, -, hb⟩ := kept.entered p (members p hp).1
      have first := made_of_entered ha
      have second := made_of_entered hb
      have key := (members o ho).2.trans (members p hp).2.symm
      have commitment := (congrArg Prod.fst key).trans rfl
      have strategy : a.strategyDigest = b.strategyDigest := by
        rw [← first.strategyDigest, ← second.strategyDigest]
        exact congrArg Prod.snd key
      have firstCommitment : o.taskCommitment = (scheduledTask e).taskCommitment :=
        congrArg (fun fields => fields.2.2) first.metadata
      have secondCommitment : p.taskCommitment = (scheduledTask e').taskCommitment :=
        congrArg (fun fields => fields.2.2) second.metadata
      obtain rfl := taskId_injOn distinct he he' (taskId_of_commitment
        (firstCommitment.symm.trans (commitment.trans secondCommitment)))
      rw [first.taskId, second.taskId, first.evidenceDigest, second.evidenceDigest, first.reward,
        second.reward, strategy]
      exact ⟨rfl, rfl, rfl⟩
    cases hmembers : g.2 with
    | nil => exact ⟨List.nodup_nil, by simp, by simp⟩
    | cons o rest =>
      have ho : o ∈ g.2 := hmembers ▸ List.mem_cons_self
      rw [← hmembers]
      refine groupOk_of_equal o.evidenceDigest o.reward ?_ (fun p hp => (entry p hp o ho).2.1)
        fun p hp => (entry p hp o ho).2.2
      have pairs := kept.once.sublist (within.map fun o => (o.minerId, o.taskId))
      refine (List.nodup_map_iff_inj_on pairs.of_map).mpr fun p hp q hq same => ?_
      exact List.inj_on_of_nodup_map pairs hp hq (Prod.ext same (entry p hp q hq).1)

end Kept

section Verdicts

variable {floatText : ℝ → Text} {journal : Journal} {epochs : Nat}
  {observations : List (EpochObservation ℝ)} {policy : AggregationPolicy ℝ} {roster : List Text}

/-- Eligibility rests on an observation that was available and correct. -/
theorem exists_of_eligible (ok : NetworkOk observations roster policy) {m : Text}
    (eligible : (memberAggregate observations policy m).eligible = true) :
    ∃ o ∈ observations, o.minerId = m ∧ o.available = true ∧ o.correct = true := by
  obtain ⟨deduplicated, dedup, rewarded⟩ := (HardGates.gatesMet_of_eligible ok eligible).families
  obtain ⟨family, hfamily⟩ := List.exists_mem_of_ne_nil _ policy.familiesUnique.1
  obtain ⟨t, -, -, o, ho, miner, -, available, correct, -⟩ := rewarded family hfamily
  obtain ⟨p, hp, rfl⟩ := List.mem_map.mp ((deduplicateTaskRewards_perm dedup).mem_iff.mp ho)
  obtain ⟨hminer, -, -, havailable, hcorrect, -⟩ := shared_frame observations p
  exact ⟨p, hp, hminer.symm.trans miner, havailable.symm.trans available,
    hcorrect.symm.trans correct⟩

variable {scenario : ValidatorScenario ℝ} {trialCount : Nat}
  (sound : ∀ epoch < epochs, ∀ profile ∈ (minerProfiles : List (MinerProfile ℝ)),
    Evaluated profile scenario trialCount (journal epoch profile.strategyDigest))
  (kept : Kept floatText journal epochs observations)
  (ok : NetworkOk observations roster policy)
include sound kept ok

/-- A profile whose answers are never correct is not eligible. -/
theorem ineligible_of_hopeless {profile : MinerProfile ℝ} (hprofile : profile ∈ minerProfiles)
    (hopeless : profile.correctness ≤ 0 ∨ profile.compliance ≤ 0) :
    (memberAggregate observations policy profile.profileId).eligible = false := by
  apply Bool.eq_false_iff.mpr
  intro eligible
  obtain ⟨o, ho, miner, -, correct⟩ := exists_of_eligible ok eligible
  obtain ⟨epoch, inside, p, hp, entered⟩ := kept.entered o ho
  have made := made_of_entered entered
  obtain rfl := profile_unique hp hprofile (made.minerId.symm.trans miner)
  rw [made.correct, (sound epoch inside p hp).hopeless hopeless] at correct
  cases correct

/-- Where no answer arrives nobody is eligible. -/
theorem ineligible_of_allFail (fail : scenario.allFail = true) (m : Text) :
    (memberAggregate observations policy m).eligible = false := by
  apply Bool.eq_false_iff.mpr
  intro eligible
  obtain ⟨o, ho, -, available, -⟩ := exists_of_eligible ok eligible
  obtain ⟨epoch, inside, p, hp, entered⟩ := kept.entered o ho
  rw [(made_of_entered entered).available, (sound epoch inside p hp).silent fail] at available
  cases available

end Verdicts

section Copies

variable {floatText : ℝ → Text} {scenario : ValidatorScenario ℝ} {trialCount epochs : Nat}
  {journal : Journal} {progress : Progress ℝ}

/-- Profiles that share a strategy digest share the behavior digest. -/
theorem behaviorDigest_eq {p q : MinerProfile ℝ} (hp : p ∈ minerProfiles)
    (hq : q ∈ minerProfiles) (same : p.strategyDigest = q.strategyDigest) :
    p.behaviorDigest = q.behaviorDigest := by
  have signature := alike hp hq same
  have key : p.behaviorKey = q.behaviorKey := congrArg (fun s => s.2.2) signature
  unfold MinerProfile.behaviorDigest MinerProfile.behaviorSource
  rw [key]
  cases q.behaviorKey with
  | none => exact same
  | some key =>
    cases key with
    | nil => exact same
    | cons _ _ => rfl

/-- The profiles of one strategy, by their identities. -/
def Strategists (digest : Text) (members : List Text) : Prop :=
  members.Nodup ∧ ∀ id, id ∈ members ↔ ∃ profile ∈ (minerProfiles : List (MinerProfile ℝ)),
    profile.profileId = id ∧ profile.strategyDigest = digest

variable (distinct : DistinctTasks epochs)
  (replicated : Replicated floatText scenario trialCount (List.range epochs) journal progress)
  {digest m : Text} {removed : List Text} (group : Strategists digest (m :: removed))
include distinct replicated group

/-- Each member of a group submits what the first one does. -/
theorem copies_of_group {c : Text} (hc : c ∈ m :: removed) :
    (under EpochObservation.minerId (networkObservations progress) c).Perm
      ((under EpochObservation.minerId (networkObservations progress) m).map (relabel c)) := by
  have kept := kept_network distinct replicated
  obtain ⟨pc, hpc, idc, digestc⟩ := (group.2 c).mp hc
  obtain ⟨pm, hpm, idm, digestm⟩ := (group.2 m).mp List.mem_cons_self
  have named : c ≠ [] := idc ▸ (runnable_of_mem hpc).identified
  have digests := digestc.trans digestm.symm
  have entered : ∀ {id : Text} {p : MinerProfile ℝ}, p ∈ minerProfiles → p.profileId = id →
      ∀ o ∈ under EpochObservation.minerId (networkObservations progress) id,
        ∃ epoch < epochs, Made floatText journal epoch p o := by
    intro id p hp hid o ho
    obtain ⟨hin, hminer⟩ := mem_under.mp ho
    obtain ⟨epoch, inside, q, hq, he⟩ := kept.entered o hin
    have made := made_of_entered he
    obtain rfl := profile_unique hq hp (made.minerId.symm.trans (hminer.trans hid.symm))
    exact ⟨epoch, inside, made⟩
  have exists_under : ∀ {id : Text} {p : MinerProfile ℝ}, p ∈ minerProfiles → p.profileId = id →
      ∀ epoch < epochs, ∃ o ∈ under EpochObservation.minerId (networkObservations progress) id,
        Made floatText journal epoch p o := by
    intro id p hp hid epoch inside
    obtain ⟨o, ho, he⟩ := exists_entered replicated inside hp
    have made := made_of_entered he
    exact ⟨o, mem_under.mpr ⟨ho, made.minerId.trans hid⟩, made⟩
  have copy : ∀ {epoch : Nat} {o p : EpochObservation ℝ}, Made floatText journal epoch pc o →
      Made floatText journal epoch pm p → relabel c p = o := by
    intro epoch o p ho hp
    obtain ⟨hmeta, htask, havailable, hcorrect, hcompliant, hstrategy, hbehavior, hreward,
      hevidence⟩ := relabel_frame c p
    refine observation_ext ?_ ?_ ?_ ?_ ?_ ?_ ?_ ?_ ?_ ?_ ?_
    · rw [relabel_minerId named, ho.minerId, idc]
    · rw [hmeta, hp.metadata, ho.metadata]
    · rw [htask, hp.taskId, ho.taskId]
    · rw [havailable, hp.available, ho.available, digests]
    · rw [hcorrect, hp.correct, ho.correct, digests]
    · rw [hcompliant, hp.compliant, ho.compliant, digests]
    · rw [hstrategy, hp.strategyDigest, ho.strategyDigest, digests]
    · rw [hbehavior, hp.behaviorDigest, ho.behaviorDigest]
      exact behaviorDigest_eq hpm hpc digests.symm
    · rw [hreward, hp.reward, ho.reward, digests]
    · rw [hevidence, hp.evidenceDigest, ho.evidenceDigest, digests]
    · rw [ho.alone, ← hp.alone, relabel, dif_pos named]
  refine (List.perm_ext_iff_of_nodup (kept.taskIds_nodup c).of_map ?_).mpr fun o => ?_
  · refine List.Nodup.of_map EpochObservation.taskId ?_
    have ids : (under EpochObservation.minerId (networkObservations progress) m).map
        (EpochObservation.taskId ∘ relabel c) =
          (under EpochObservation.minerId (networkObservations progress) m).map
            EpochObservation.taskId := List.map_congr_left fun o _ => (relabel_frame c o).2.1
    rw [List.map_map, ids]
    exact kept.taskIds_nodup m
  constructor
  · intro ho
    obtain ⟨epoch, inside, made⟩ := entered hpc idc o ho
    obtain ⟨p, hp, first⟩ := exists_under hpm idm epoch inside
    exact List.mem_map.mpr ⟨p, hp, copy made first⟩
  · intro ho
    obtain ⟨p, hp, rfl⟩ := List.mem_map.mp ho
    obtain ⟨epoch, inside, first⟩ := entered hpm idm p hp
    obtain ⟨o, hin, made⟩ := exists_under hpc idc epoch inside
    rw [copy made first]
    exact hin

omit distinct replicated in
theorem not_mem_removed : m ∉ removed := (List.nodup_cons.mp group.1).1

/-- The network is its control, the group's first member alone, with that member
cloned. -/
theorem cloned_control : Cloned
    ((networkObservations progress).filter fun o => decide (o.minerId ∉ removed))
    (networkObservations progress)
    ((minerIds (K := ℝ)).filter fun minerId => decide (minerId ∉ removed)) (minerIds (K := ℝ)) m
    (m :: removed) where
  member := by
    obtain ⟨profile, hprofile, rfl, -⟩ := (group.2 m).mp List.mem_cons_self
    exact List.mem_filter.mpr ⟨List.mem_map_of_mem hprofile,
      decide_eq_true (not_mem_removed group)⟩
  some := List.cons_ne_nil _ _
  distinct := group.1
  named := by
    intro c hc
    obtain ⟨profile, hprofile, rfl, -⟩ := (group.2 c).mp hc
    exact (runnable_of_mem hprofile).identified
  fresh := by
    intro c hc hin
    have kept := of_decide_eq_true (List.mem_filter.mp hin).2
    exact (List.mem_cons.mp hc).resolve_right kept
  roster := by
    have ids : (minerIds (K := ℝ)).Nodup := profileIds_nodup
    have others := (ids.filter fun minerId => decide (minerId ∉ removed))
    have apart : (m :: removed).Disjoint
        (((minerIds (K := ℝ)).filter fun minerId => decide (minerId ∉ removed)).erase m) := by
      intro c hc he
      obtain ⟨hne, hin⟩ := others.mem_erase_iff.mp he
      rcases List.mem_cons.mp hc with rfl | hc
      · exact hne rfl
      · exact of_decide_eq_true (List.mem_filter.mp hin).2 hc
    refine (List.perm_ext_iff_of_nodup ids
      (List.nodup_append'.mpr ⟨group.1, others.erase m, apart⟩)).mpr fun c => ?_
    rw [List.mem_append, others.mem_erase_iff, List.mem_filter, decide_eq_true_eq]
    constructor
    · intro hc
      by_cases member : c ∈ m :: removed
      · exact .inl member
      · obtain ⟨hne, hout⟩ := not_or.mp fun h => member (List.mem_cons.mpr h)
        exact .inr ⟨hne, hc, hout⟩
    · rintro (hc | ⟨-, hc, -⟩)
      · obtain ⟨profile, hprofile, rfl, -⟩ := (group.2 c).mp hc
        exact List.mem_map_of_mem hprofile
      · exact hc
  others := by
    rw [List.filter_filter]
    refine List.filter_congr fun o _ => ?_
    rw [← Bool.decide_and, decide_eq_decide, List.mem_cons, not_or]
  copies := by
    intro c hc
    have own : under EpochObservation.minerId ((networkObservations progress).filter
        fun o => decide (o.minerId ∉ removed)) m =
          under EpochObservation.minerId (networkObservations progress) m := by
      rw [under, under, List.filter_filter]
      refine List.filter_congr fun o _ => ?_
      by_cases miner : o.minerId = m
      · simp [miner, not_mem_removed group]
      · simp [miner]
    rw [own]
    exact copies_of_group distinct replicated group hc

/-- Nobody outside the group has its strategy. -/
theorem ownScores_control : OwnScores
    ((networkObservations progress).filter fun o => decide (o.minerId ∉ removed)) m := by
  intro o ho p hp miner other _ _ same
  have kept := kept_network distinct replicated
  obtain ⟨hin, -⟩ := List.mem_filter.mp ho
  obtain ⟨hin', hout⟩ := List.mem_filter.mp hp
  obtain ⟨e, -, a, ha, he⟩ := kept.entered o hin
  obtain ⟨e', -, b, hb, he'⟩ := kept.entered p hin'
  have first := made_of_entered he
  have second := made_of_entered he'
  obtain ⟨q, hq, idq, digestq⟩ := (group.2 m).mp List.mem_cons_self
  obtain rfl := profile_unique ha hq (first.minerId.symm.trans (miner.trans idq.symm))
  have strategy : o.strategyDigest = p.strategyDigest := congrArg Prod.snd same
  have digestb : b.strategyDigest = digest := by
    rw [← digestq, ← first.strategyDigest, strategy, second.strategyDigest]
  have member := (group.2 p.minerId).mpr ⟨b, hb, second.minerId.symm, digestb⟩
  exact of_decide_eq_true hout ((List.mem_cons.mp member).resolve_left other)

omit group in
theorem networkOk_network {policy : AggregationPolicy ℝ}
    (schedule : policy.taskSchedule = simulationTaskSchedule epochs) :
    NetworkOk (networkObservations progress) (minerIds (K := ℝ)) policy := by
  have kept := kept_network distinct replicated
  refine networkOk_of_kept distinct kept schedule (by decide) profileIds_nodup fun o ho => ?_
  obtain ⟨epoch, -, profile, hprofile, entered⟩ := kept.entered o ho
  rw [(made_of_entered entered).minerId]
  exact List.mem_map_of_mem hprofile

omit group in
/-- So is what is left without some of the miners. -/
theorem networkOk_without {policy : AggregationPolicy ℝ}
    (schedule : policy.taskSchedule = simulationTaskSchedule epochs) {left : Text}
    {removed : List Text} (listed : left ∈ minerIds (K := ℝ)) (kept : left ∉ removed) :
    NetworkOk ((networkObservations progress).filter fun o => decide (o.minerId ∉ removed))
      ((minerIds (K := ℝ)).filter fun minerId => decide (minerId ∉ removed)) policy := by
  have rest := (kept_network distinct replicated).filter fun o => decide (o.minerId ∉ removed)
  have some : left ∈ (minerIds (K := ℝ)).filter fun minerId => decide (minerId ∉ removed) :=
    List.mem_filter.mpr ⟨listed, decide_eq_true kept⟩
  refine networkOk_of_kept distinct rest schedule (List.ne_nil_of_mem some)
    (profileIds_nodup.filter _) fun o ho => ?_
  obtain ⟨hin, hout⟩ := List.mem_filter.mp ho
  exact List.mem_filter.mpr
    ⟨(networkOk_network distinct replicated schedule).inRoster o hin, hout⟩

/-- Copies of a strategy leave the plan and the weight of every group as they
are with one of them alone. -/
theorem copies_neutral {policy : AggregationPolicy ℝ}
    (schedule : policy.taskSchedule = simulationTaskSchedule epochs)
    {control : AllocationResult ℝ}
    (h : allocateWeights (((minerIds (K := ℝ)).filter fun minerId => decide (minerId ∉ removed)).map
      (memberAggregate ((networkObservations progress).filter fun o =>
        decide (o.minerId ∉ removed)) policy)) policy = .ok control) :
    ∃ allocation, allocateWeights ((minerIds (K := ℝ)).map
        (memberAggregate (networkObservations progress) policy)) policy = .ok allocation ∧
      allocation.planned = control.planned ∧
      allocation.strategyWeights = control.strategyWeights := by
  have cloned := cloned_control distinct replicated group
  have listed := (List.mem_filter.mp cloned.member).1
  obtain ⟨allocation, allocated, planned, weights, -⟩ := clones_neutral_of_ok cloned
    (ownScores_control distinct replicated group)
    (networkOk_without distinct replicated schedule listed (not_mem_removed group)) h
  exact ⟨allocation, allocated, planned, weights⟩

end Copies

end SimulatedNetwork
