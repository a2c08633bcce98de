import PlanRace.ScoringV2
import PlanRace.Library.Fallible

/-!
# What deduplication and aggregation compute

Accepted calls of `deduplicateTaskRewards` and `aggregateScheduledMiner` are
equal to total functions of their observations. Neither looks at the order in
which a miner's observations arrive.
-/

namespace NetworkAggregation

open JsonText LexOrder CanonicalJson Grouping Statistics ScoringV2 Fallible

section Share

variable {K : Type} [Field K] [LinearOrder K] [IsStrictOrderedRing K]

/-- The accepted observations that share the cached score of an observation. -/
def cacheGroup (observations : List (EpochObservation K)) (o : EpochObservation K) :
    List (EpochObservation K) :=
  under EpochObservation.cacheKey (observations.filter EpochObservation.accepted) o.cacheKey

/-- A member of a group, with its part of the group's reward. -/
def shareWith (members : List (EpochObservation K)) (o : EpochObservation K) :
    EpochObservation K :=
  match members with
  | [] => o
  | first :: rest => o.share first.reward first.rewardBounds (first :: rest).length (size_positive first rest)

def shared (observations : List (EpochObservation K)) (o : EpochObservation K) :
    EpochObservation K :=
  if o.accepted then shareWith (cacheGroup observations o) o else o

/-- The group passes the checks of the evaluate-once accounting. -/
structure GroupOk (members : List (EpochObservation K)) : Prop where
  miners : (members.map EpochObservation.minerId).Nodup
  evidence : ∀ m ∈ members, ∀ first ∈ members.head?, m.evidenceDigest = first.evidenceDigest
  spread : ∀ first ∈ members.head?,
    (members.map EpochObservation.reward).foldl max first.reward -
      (members.map EpochObservation.reward).foldl min first.reward ≤ 1 / 10 ^ 9

theorem shareGroup_eq {members : List (EpochObservation K)} (h : GroupOk members) :
    shareGroup members = .ok (members.map (shareWith members)) := by
  cases members with
  | nil => rfl
  | cons first rest =>
    have evidence : ((first :: rest).any fun m =>
        decide (m.evidenceDigest ≠ first.evidenceDigest)) = false := by
      rw [List.any_eq_false]
      intro m hm
      simp [h.evidence m hm first rfl]
    have spread := h.spread first rfl
    unfold shareGroup
    dsimp only
    rw [if_neg (not_not.mpr h.miners), if_neg]
    · rfl
    · rw [evidence]
      simpa using spread

theorem groupOk_of_shareGroup {members out : List (EpochObservation K)}
    (h : shareGroup members = .ok out) : GroupOk members := by
  cases members with
  | nil => exact ⟨List.nodup_nil, by simp, by simp⟩
  | cons first rest =>
    unfold shareGroup at h
    dsimp only at h
    split_ifs at h with miners bad
    push Not at bad
    refine ⟨miners, ?_, ?_⟩
    · intro m hm f hf
      cases hf
      by_contra hne
      exact bad.1 (List.any_eq_true.mpr ⟨m, hm, by simpa using hne⟩)
    · intro f hf
      cases hf
      exact bad.2

omit [IsStrictOrderedRing K]

/-- Every task has one schedule metadata. -/
def MetadataConsistent (observations : List (EpochObservation K)) : Prop :=
  ∀ o ∈ observations, ∀ p ∈ observations, o.taskId = p.taskId → o.metadata = p.metadata

/-- The check of the source compares with the first observation of a task only. -/
theorem metadataConsistent_iff (observations : List (EpochObservation K)) :
    MetadataConsistent observations ↔
      (observations.any fun o => (observations.find? fun p => p.taskId = o.taskId).any fun p =>
        decide (p.metadata ≠ o.metadata)) = false := by
  rw [List.any_eq_false]
  constructor
  · intro h o ho
    cases hfind : observations.find? fun p => p.taskId = o.taskId with
    | none => simp
    | some p =>
      have hp := List.mem_of_find?_eq_some hfind
      have hid := List.find?_some hfind
      simp only [decide_eq_true_eq] at hid
      simp [h p hp o ho hid]
  · intro h
    have first : ∀ o ∈ observations, ∃ p, (observations.find? fun p => p.taskId = o.taskId) = some p ∧
        p.metadata = o.metadata := by
      intro o ho
      have hsome : (observations.find? fun p => p.taskId = o.taskId).isSome := by
        rw [List.find?_isSome]
        exact ⟨o, ho, by simp⟩
      obtain ⟨p, hp⟩ := Option.isSome_iff_exists.mp hsome
      refine ⟨p, hp, ?_⟩
      simpa [hp] using h o ho
    intro o ho p hp hid
    obtain ⟨f, hf, hfo⟩ := first o ho
    obtain ⟨g, hg, hgp⟩ := first p hp
    rw [hid] at hf
    rw [hf] at hg
    cases hg
    rw [← hfo, hgp]

variable [IsStrictOrderedRing K]

theorem deduplicateTaskRewards_eq {observations : List (EpochObservation K)}
    (consistent : MetadataConsistent observations)
    (groups : ∀ g ∈ cacheGroups observations, GroupOk g.2) :
    deduplicateTaskRewards observations =
      .ok (sortBy id observationKey ((observations.filter fun o => !o.accepted) ++
        (cacheGroups observations).flatMap fun g => g.2.map (shareWith g.2))) := by
  have shares : (cacheGroups observations).mapM (fun g => shareGroup g.2) =
      .ok ((cacheGroups observations).map fun g => g.2.map (shareWith g.2)) :=
    mapM_eq_map fun g hg => shareGroup_eq (groups g hg)
  unfold deduplicateTaskRewards
  dsimp only
  rw [if_neg (Bool.eq_false_iff.mp ((metadataConsistent_iff observations).mp consistent))]
  rw [shares]
  rfl

theorem of_deduplicateTaskRewards {observations deduplicated : List (EpochObservation K)}
    (h : deduplicateTaskRewards observations = .ok deduplicated) :
    MetadataConsistent observations ∧ ∀ g ∈ cacheGroups observations, GroupOk g.2 := by
  unfold deduplicateTaskRewards at h
  dsimp only at h
  split_ifs at h with inconsistent
  · cases h
  · refine ⟨(metadataConsistent_iff _).mpr (Bool.eq_false_iff.mpr inconsistent), ?_⟩
    intro g hg
    obtain ⟨shares, hshares, -⟩ := bind_ok h
    obtain ⟨out, -, hout⟩ := ok_of_mapM hshares g hg
    exact groupOk_of_shareGroup hout

@[simp] theorem share_accepted (o : EpochObservation K) (r : K) (b : 0 ≤ r ∧ r ≤ 100) (n : Nat)
    (p : 1 ≤ n) : (o.share r b n p).accepted = o.accepted := rfl

/-- Sharing changes the reward and the group size only. -/
theorem shareWith_frame (members : List (EpochObservation K)) (o : EpochObservation K) :
    (shareWith members o).minerId = o.minerId ∧ (shareWith members o).metadata = o.metadata ∧
      (shareWith members o).taskId = o.taskId ∧ (shareWith members o).available = o.available ∧
      (shareWith members o).correct = o.correct ∧ (shareWith members o).compliant = o.compliant ∧
      (shareWith members o).strategyDigest = o.strategyDigest ∧
      (shareWith members o).behaviorDigest = o.behaviorDigest := by
  cases members <;> exact ⟨rfl, rfl, rfl, rfl, rfl, rfl, rfl, rfl⟩

theorem shared_frame (observations : List (EpochObservation K)) (o : EpochObservation K) :
    (shared observations o).minerId = o.minerId ∧ (shared observations o).metadata = o.metadata ∧
      (shared observations o).taskId = o.taskId ∧
      (shared observations o).available = o.available ∧
      (shared observations o).correct = o.correct ∧
      (shared observations o).compliant = o.compliant ∧
      (shared observations o).strategyDigest = o.strategyDigest ∧
      (shared observations o).behaviorDigest = o.behaviorDigest := by
  unfold shared
  split_ifs
  · exact shareWith_frame _ o
  · exact ⟨rfl, rfl, rfl, rfl, rfl, rfl, rfl, rfl⟩

/-- Deduplication replaces each observation by its shared form. -/
theorem deduplicateTaskRewards_perm {observations deduplicated : List (EpochObservation K)}
    (h : deduplicateTaskRewards observations = .ok deduplicated) :
    deduplicated.Perm (observations.map (shared observations)) := by
  obtain ⟨consistent, groups⟩ := of_deduplicateTaskRewards h
  rw [deduplicateTaskRewards_eq consistent groups] at h
  cases h
  refine (sortBy_perm id observationKey _).trans ?_
  have untouched : (observations.filter fun o => !o.accepted) =
      (observations.filter fun o => !o.accepted).map (shared observations) := by
    rw [List.map_congr_left (g := id), List.map_id]
    intro o ho
    have hout : o.accepted = false := by simpa using (List.mem_filter.mp ho).2
    simp [shared, hout]
  have groups : ((cacheGroups observations).flatMap fun g => g.2.map (shareWith g.2)) =
      ((cacheGroups observations).flatMap Prod.snd).map (shared observations) := by
    rw [List.map_flatMap]
    refine List.flatMap_congr fun g hg => List.map_congr_left fun o ho => ?_
    have hmembers := (mem_groupBy.mp hg).2
    obtain ⟨hin, hkey⟩ := mem_under.mp (hmembers ▸ ho)
    rw [shared, if_pos (List.mem_filter.mp hin).2, cacheGroup, hkey, ← hmembers]
  rw [untouched, groups, ← List.map_append]
  refine List.Perm.map _ ?_
  refine ((flatMap_groupBy_perm _ _).append_left _).trans (List.perm_append_comm.trans ?_)
  exact List.filter_append_perm EpochObservation.accepted observations

/-- What one miner's observations become. -/
theorem under_deduplicated_perm {observations deduplicated : List (EpochObservation K)}
    (h : deduplicateTaskRewards observations = .ok deduplicated) (minerId : Text) :
    (under EpochObservation.minerId deduplicated minerId).Perm
      ((under EpochObservation.minerId observations minerId).map (shared observations)) := by
  refine (under_perm _ (deduplicateTaskRewards_perm h) minerId).trans ?_
  rw [under, List.filter_map, under]
  refine List.Perm.of_eq (congrArg _ (List.filter_congr fun o _ => ?_))
  simp [(shared_frame observations o).1]

end Share

section Scheduled

variable {K : Type} [Field K] [LinearOrder K]

/-- An observation carries the metadata of its scheduled task. -/
def OnSchedule (policy : AggregationPolicy K) (o : EpochObservation K) : Prop :=
  ∃ t ∈ policy.taskSchedule, t.taskId = o.taskId ∧ o.metadata = (t.epoch, t.family, t.taskCommitment)

theorem find?_scheduled (policy : AggregationPolicy K) {t : ScheduledTask}
    (h : t ∈ policy.taskSchedule) :
    (policy.taskSchedule.find? fun s => s.taskId = t.taskId) = some t := by
  have hsome : (policy.taskSchedule.find? fun s => s.taskId = t.taskId).isSome := by
    rw [List.find?_isSome]
    exact ⟨t, h, by simp⟩
  obtain ⟨s, hs⟩ := Option.isSome_iff_exists.mp hsome
  have hid := List.find?_some hs
  simp only [decide_eq_true_eq] at hid
  rw [hs, List.inj_on_of_nodup_map policy.scheduleUnique.1 (List.mem_of_find?_eq_some hs) h hid]

/-- Observations are indexed by task exactly when each is on schedule and no
task is observed twice. -/
theorem checkScheduled_ok_iff (policy : AggregationPolicy K)
    (observations : List (EpochObservation K)) (seen : List Text) :
    checkScheduled policy observations seen = .ok () ↔
      (∀ o ∈ observations, OnSchedule policy o ∧ o.taskId ∉ seen) ∧
        (observations.map EpochObservation.taskId).Nodup := by
  induction observations generalizing seen with
  | nil => simp [checkScheduled]
  | cons o rest ih =>
    unfold checkScheduled
    cases hfind : policy.taskSchedule.find? fun t => t.taskId = o.taskId with
    | none =>
      simp only [reduceCtorEq, false_iff, not_and]
      intro h
      obtain ⟨⟨t, ht, hid, -⟩, -⟩ := h o List.mem_cons_self
      rw [List.find?_eq_none] at hfind
      exact absurd (by simpa using hid) (hfind t ht)
    | some t =>
      have ht := List.mem_of_find?_eq_some hfind
      have hid := List.find?_some hfind
      simp only [decide_eq_true_eq] at hid
      have schedule : OnSchedule policy o ↔ o.metadata = (t.epoch, t.family, t.taskCommitment) := by
        constructor
        · rintro ⟨s, hs, hsid, hmeta⟩
          have hsame := find?_scheduled policy hs
          rw [hsid, hfind] at hsame
          cases hsame
          exact hmeta
        · exact fun hmeta => ⟨t, ht, hid, hmeta⟩
      dsimp only
      split_ifs with hmeta hseen
      · simp only [false_iff, not_and]
        intro h
        exact absurd (schedule.mp (h o List.mem_cons_self).1) hmeta
      · simp only [false_iff, not_and]
        intro h
        exact absurd hseen (h o List.mem_cons_self).2
      · rw [ih]
        simp only [List.mem_cons, not_or, List.map_cons, List.nodup_cons, List.mem_map,
          forall_eq_or_imp]
        constructor
        · rintro ⟨hall, hnodup⟩
          refine ⟨⟨⟨schedule.mpr (not_not.mp hmeta), hseen⟩, fun p hp => ?_⟩, ?_, hnodup⟩
          · exact ⟨(hall p hp).1, (hall p hp).2.2⟩
          · rintro ⟨p, hp, hpid⟩
            exact (hall p hp).2.1 hpid
        · rintro ⟨⟨-, hall⟩, hfresh, hnodup⟩
          exact ⟨fun p hp => ⟨(hall p hp).1, fun he => hfresh ⟨p, hp, he⟩, (hall p hp).2⟩, hnodup⟩

theorem find?_eq_of_perm {xs ys : List (EpochObservation K)} (h : xs.Perm ys)
    (distinct : (xs.map EpochObservation.taskId).Nodup) (taskId : Text) :
    (xs.find? fun o => o.taskId = taskId) = ys.find? fun o => o.taskId = taskId := by
  have unique : ∀ o ∈ xs, ∀ p ∈ xs, o.taskId = p.taskId → o = p := fun o ho p hp he =>
    List.inj_on_of_nodup_map distinct ho hp he
  cases hx : xs.find? fun o => o.taskId = taskId with
  | none =>
    rw [List.find?_eq_none] at hx
    exact (List.find?_eq_none.mpr fun o ho => hx o (h.mem_iff.mpr ho)).symm
  | some o =>
    have ho := List.mem_of_find?_eq_some hx
    have hid := List.find?_some hx
    simp only [decide_eq_true_eq] at hid
    have hsome : (ys.find? fun p => p.taskId = taskId).isSome := by
      rw [List.find?_isSome]
      exact ⟨o, h.mem_iff.mp ho, by simpa using hid⟩
    obtain ⟨p, hp⟩ := Option.isSome_iff_exists.mp hsome
    have hpid := List.find?_some hp
    simp only [decide_eq_true_eq] at hpid
    rw [hp, unique o ho p (h.mem_iff.mpr (List.mem_of_find?_eq_some hp)) (hid.trans hpid.symm)]

theorem familyRewards_eq_of_perm (policy : AggregationPolicy K)
    {xs ys : List (EpochObservation K)} (h : xs.Perm ys)
    (distinct : (xs.map EpochObservation.taskId).Nodup) (family : Text) :
    familyRewards policy xs family = familyRewards policy ys family := by
  refine List.map_congr_left fun t _ => ?_
  rw [gatedReward, gatedReward, find?_eq_of_perm h distinct]

theorem rate_eq_of_perm {xs ys : List (EpochObservation K)} (h : xs.Perm ys)
    (holds : EpochObservation K → Bool) : rate xs holds = rate ys holds := by
  have hnil : xs = [] ↔ ys = [] := by
    rw [← List.length_eq_zero_iff, ← List.length_eq_zero_iff, h.length_eq]
  simp only [rate, hnil, fmean_eq_of_perm (h.map _)]

theorem textKey_injective : Function.Injective textKey :=
  List.map_injective_iff.mpr fun _ _ he => Char.toNat_inj.mp (Nat.succ.inj he)

theorem pairKey_injective : Function.Injective pairKey := by
  rintro ⟨a, b⟩ ⟨c, d⟩ he
  have positive : ∀ t, 0 ∉ textKey t := by simp [textKey]
  obtain ⟨hfst, -, hsnd⟩ :=
    (List.append_cons_inj_of_notMem (positive c) (positive d)).mp he.symm
  rw [textKey_injective hfst, textKey_injective hsnd]

theorem portfolio_eq_iff (digest : EpochObservation K → Text) (xs ys : List (EpochObservation K)) :
    portfolio digest xs = portfolio digest ys ↔
      ∀ p, p ∈ xs.map (fun o => (o.family, digest o)) ↔ p ∈ ys.map (fun o => (o.family, digest o)) := by
  unfold portfolio
  constructor
  · intro he p
    have hperm := perm_of_sortBy_eq he
    simpa using hperm.mem_iff (a := p)
  · intro h
    refine sortBy_eq_of_perm Function.injective_id (fun p _ q _ hk => pairKey_injective hk) ?_
    refine (List.perm_ext_iff_of_nodup (List.nodup_dedup _) (List.nodup_dedup _)).mpr fun p => ?_
    simpa using h p

theorem familyRewards_ne_nil (policy : AggregationPolicy K)
    (observations : List (EpochObservation K)) {family : Text}
    (h : family ∈ policy.requiredFamilies) : familyRewards policy observations family ≠ [] := by
  have hquota := policy.familyQuota family h
  have hpositive := policy.tasksPerFamilyPositive
  have hcount : 0 < (policy.taskSchedule.map ScheduledTask.family).count family := by omega
  obtain ⟨t, ht, hfamily⟩ := List.mem_map.mp (List.count_pos_iff.mp hcount)
  intro he
  have hmem : gatedReward observations t ∈ familyRewards policy observations family :=
    List.mem_map_of_mem (List.mem_filter.mpr ⟨ht, by simpa using hfamily⟩)
  rw [he] at hmem
  cases hmem

variable [FloorSemiring K] [RealFunctions K]

/-- The score of one family, which a valid policy always has. -/
def familyScoreValue (policy : AggregationPolicy K) (observations : List (EpochObservation K))
    (family : Text) : K :=
  let values := familyRewards policy observations family
  max 0 (clippedMean values (winsorWidth values.length policy.winsorFraction 0) -
    policy.confidenceZ * robustStandardError values)

theorem familyScore_eq (policy : AggregationPolicy K) (observations : List (EpochObservation K))
    {family : Text} (h : family ∈ policy.requiredFamilies) :
    familyScore policy observations family =
      .ok (family, familyScoreValue policy observations family) := by
  have mean := winsorizedMean_eq (familyRewards_ne_nil policy observations h) policy.winsorBounds 0
  unfold familyScore
  dsimp only
  rw [Nat.cast_zero] at mean
  rw [mean]
  rfl

/-- The aggregate of a miner whose observations are on schedule. -/
def aggregateOf (minerId : Text) (observations : List (EpochObservation K))
    (policy : AggregationPolicy K) : MinerAggregate K :=
  aggregateFrom minerId observations policy
    (policy.requiredFamilies.map fun family => (family, familyScoreValue policy observations family))

theorem aggregateScheduledMiner_ok_iff (minerId : Text) {observations : List (EpochObservation K)}
    {policy : AggregationPolicy K} {a : MinerAggregate K} :
    aggregateScheduledMiner minerId observations policy = .ok a ↔
      checkScheduled policy observations [] = .ok () ∧ a = aggregateOf minerId observations policy := by
  have scores : policy.requiredFamilies.mapM (familyScore policy observations) =
      .ok (policy.requiredFamilies.map fun family =>
        (family, familyScoreValue policy observations family)) :=
    mapM_eq_map fun family h => familyScore_eq policy observations h
  unfold aggregateScheduledMiner
  rw [scores]
  cases checkScheduled policy observations [] with
  | error e => exact ⟨fun h => (by cases h), fun h => (by cases h.1)⟩
  | ok u =>
    constructor
    · intro h
      cases h
      exact ⟨rfl, rfl⟩
    · rintro ⟨-, rfl⟩
      rfl

theorem aggregateOf_center (minerId : Text) (observations : List (EpochObservation K))
    (policy : AggregationPolicy K) : (aggregateOf minerId observations policy).center =
      geometricCenter (policy.requiredFamilies.map (familyScoreValue policy observations)) := by
  have scores : (policy.requiredFamilies.map fun family =>
      (family, familyScoreValue policy observations family)).map Prod.snd =
        policy.requiredFamilies.map (familyScoreValue policy observations) := by
    rw [List.map_map]
    rfl
  rw [← scores]
  rfl

/-- A miner is eligible when none of the gates rejects it. -/
theorem aggregateOf_eligible_iff (minerId : Text) (observations : List (EpochObservation K))
    (policy : AggregationPolicy K) :
    (aggregateOf minerId observations policy).eligible = true ↔
      ∀ gate ∈ failureGates policy (observations.filter EpochObservation.available)
        (aggregateOf minerId observations policy).availability
        (aggregateOf minerId observations policy).compliance
        (aggregateOf minerId observations policy).correctness
        (max 0 ((aggregateOf minerId observations policy).center -
            (aggregateOf minerId observations policy).uncertainty) *
          (aggregateOf minerId observations policy).availability *
          (aggregateOf minerId observations policy).compliance)
        (policy.requiredFamilies.map (familyScoreValue policy observations)),
        gate.1 = false := by
  have scores : (policy.requiredFamilies.map fun family =>
      (family, familyScoreValue policy observations family)).map Prod.snd =
        policy.requiredFamilies.map (familyScoreValue policy observations) := by
    simp [Function.comp_def]
  simp only [aggregateOf, aggregateFrom, scores, Option.isNone_iff_eq_none, Option.map_eq_none_iff,
    List.find?_eq_none, Bool.not_eq_true]

/-- The last gate leaves only positive rewards. -/
theorem aggregateOf_reward_pos {minerId : Text} {observations : List (EpochObservation K)}
    {policy : AggregationPolicy K}
    (eligible : (aggregateOf minerId observations policy).eligible = true) :
    0 < (aggregateOf minerId observations policy).reward := by
  have gates := (aggregateOf_eligible_iff minerId observations policy).mp eligible
  have last := gates (_, .noRobustImprovement)
    (.tail _ (.tail _ (.tail _ (.tail _ (.tail _ (.tail _ (.head _)))))))
  have shown : (aggregateOf minerId observations policy).reward =
      if (aggregateOf minerId observations policy).eligible then
        max 0 ((aggregateOf minerId observations policy).center -
            (aggregateOf minerId observations policy).uncertainty) *
          (aggregateOf minerId observations policy).availability *
          (aggregateOf minerId observations policy).compliance
      else 0 := rfl
  rw [shown, if_pos eligible]
  exact not_le.mp (of_decide_eq_false last)

/-- Aggregation does not depend on the order of a miner's observations. -/
theorem aggregateOf_eq_of_perm (minerId : Text) {xs ys : List (EpochObservation K)}
    (h : xs.Perm ys) (distinct : (xs.map EpochObservation.taskId).Nodup)
    (policy : AggregationPolicy K) : aggregateOf minerId xs policy = aggregateOf minerId ys policy := by
  have available := h.filter EpochObservation.available
  have scores : familyScoreValue policy xs = familyScoreValue policy ys := by
    funext family
    rw [familyScoreValue, familyScoreValue, familyRewards_eq_of_perm policy h distinct]
  have gates : failureGates policy (xs.filter EpochObservation.available) =
      failureGates policy (ys.filter EpochObservation.available) := by
    funext availability compliance correctness reward scores
    simp only [failureGates, available.length_eq,
      (available.map EpochObservation.family).count_eq]
  have strategies := (portfolio_eq_iff EpochObservation.strategyDigest _ _).mpr
    fun p => (available.map fun o => (o.family, o.strategyDigest)).mem_iff
  have behaviors := (portfolio_eq_iff EpochObservation.behaviorDigest _ _).mpr
    fun p => (available.map fun o => (o.family, o.behaviorDigest)).mem_iff
  simp only [aggregateOf, aggregateFrom, scores, gates, available.length_eq,
    rate_eq_of_perm available, strategyPortfolioPayload, behaviorPortfolioPayload, strategies,
    behaviors]

end Scheduled

section Network

variable {K : Type} [Field K] [LinearOrder K] [IsStrictOrderedRing K]

/-- The observations that `aggregate_network` accepts for a roster. -/
structure NetworkOk (observations : List (EpochObservation K)) (minerIds : List Text)
    (policy : AggregationPolicy K) : Prop where
  rosterNonempty : minerIds ≠ []
  rosterUnique : minerIds.Nodup
  inRoster : ∀ o ∈ observations, o.minerId ∈ minerIds
  onSchedule : ∀ o ∈ observations, OnSchedule policy o
  oncePerTask : ∀ m ∈ minerIds,
    ((under EpochObservation.minerId observations m).map EpochObservation.taskId).Nodup
  groups : ∀ g ∈ cacheGroups observations, GroupOk g.2

omit [IsStrictOrderedRing K] in
theorem metadataConsistent_of_onSchedule {observations : List (EpochObservation K)}
    {policy : AggregationPolicy K} (h : ∀ o ∈ observations, OnSchedule policy o) :
    MetadataConsistent observations := by
  intro o ho p hp he
  obtain ⟨s, hs, hsid, hsmeta⟩ := h o ho
  obtain ⟨t, ht, htid, htmeta⟩ := h p hp
  have hst := List.inj_on_of_nodup_map policy.scheduleUnique.1 hs ht (hsid.trans (he.trans htid.symm))
  rw [hsmeta, htmeta, hst]

theorem onSchedule_shared {policy : AggregationPolicy K} (observations : List (EpochObservation K))
    (o : EpochObservation K) : OnSchedule policy (shared observations o) ↔ OnSchedule policy o := by
  obtain ⟨-, hmeta, hid, -⟩ := shared_frame observations o
  rw [OnSchedule, OnSchedule, hmeta, hid]

theorem map_taskId_shared (observations members : List (EpochObservation K)) :
    (members.map (shared observations)).map EpochObservation.taskId =
      members.map EpochObservation.taskId := by
  rw [List.map_map]
  exact List.map_congr_left fun o _ => (shared_frame observations o).2.2.1

/-- A miner's deduplicated observations pass the schedule checks exactly when
the submitted ones do. -/
theorem checkScheduled_deduplicated (policy : AggregationPolicy K)
    {observations deduplicated : List (EpochObservation K)} (h : deduplicateTaskRewards observations = .ok deduplicated)
    (m : Text) :
    checkScheduled policy (under EpochObservation.minerId deduplicated m) [] = .ok () ↔
      (∀ o ∈ under EpochObservation.minerId observations m, OnSchedule policy o) ∧
        ((under EpochObservation.minerId observations m).map EpochObservation.taskId).Nodup := by
  have hperm := under_deduplicated_perm h m
  rw [checkScheduled_ok_iff, (hperm.map EpochObservation.taskId).nodup_iff, map_taskId_shared]
  refine and_congr_left fun _ => ?_
  constructor
  · intro hall o ho
    exact (onSchedule_shared observations o).mp
      (hall _ (hperm.mem_iff.mpr (List.mem_map_of_mem ho))).1
  · intro hall o ho
    obtain ⟨p, hp, rfl⟩ := List.mem_map.mp (hperm.mem_iff.mp ho)
    exact ⟨(onSchedule_shared observations p).mpr (hall p hp), List.not_mem_nil⟩

variable [FloorSemiring K] [RealFunctions K]

/-- The aggregate of one miner of an accepted network. -/
def memberAggregate (observations : List (EpochObservation K)) (policy : AggregationPolicy K)
    (minerId : Text) : MinerAggregate K :=
  aggregateOf minerId
    ((under EpochObservation.minerId observations minerId).map (shared observations)) policy

/-- Aggregating a network succeeds exactly on the accepted observations, and
then aggregates each miner of the roster. -/
theorem aggregateNetwork_ok_iff {observations : List (EpochObservation K)} {minerIds : List Text}
    {policy : AggregationPolicy K} {aggregates : List (MinerAggregate K)} :
    aggregateNetwork observations minerIds policy = .ok aggregates ↔
      NetworkOk observations minerIds policy ∧
        aggregates = minerIds.map (memberAggregate observations policy) := by
  have member : ∀ {deduplicated}, deduplicateTaskRewards observations = .ok deduplicated →
      ∀ m a, aggregateScheduledMiner m (under EpochObservation.minerId deduplicated m) policy =
        .ok a → a = memberAggregate observations policy m := by
    intro deduplicated hdedup m a ha
    obtain ⟨hcheck, rfl⟩ := (aggregateScheduledMiner_ok_iff m).mp ha
    exact aggregateOf_eq_of_perm m (under_deduplicated_perm hdedup m)
      ((checkScheduled_ok_iff policy _ []).mp hcheck).2 policy
  unfold aggregateNetwork
  constructor
  · intro h
    dsimp only at h
    by_cases roster : minerIds = [] ∨ ¬ minerIds.Nodup
    · rw [if_pos roster] at h
      cases h
    by_cases outside : (observations.any fun o => decide (o.minerId ∉ minerIds)) = true
    · rw [if_neg roster, if_pos outside] at h
      cases h
    rw [if_neg roster, if_neg outside] at h
    push Not at roster
    have inRoster : ∀ o ∈ observations, o.minerId ∈ minerIds := by
      intro o ho
      by_contra hout
      exact outside (List.any_eq_true.mpr ⟨o, ho, by simpa using hout⟩)
    obtain ⟨deduplicated, hdedup, h⟩ := bind_ok h
    have checks : ∀ m ∈ minerIds,
        (∀ o ∈ under EpochObservation.minerId observations m, OnSchedule policy o) ∧
          ((under EpochObservation.minerId observations m).map EpochObservation.taskId).Nodup := by
      intro m hm
      obtain ⟨a, -, ha⟩ := ok_of_mapM h m hm
      exact (checkScheduled_deduplicated policy hdedup m).mp ((aggregateScheduledMiner_ok_iff m).mp ha).1
    refine ⟨⟨roster.1, roster.2, inRoster, ?_, fun m hm => (checks m hm).2,
      (of_deduplicateTaskRewards hdedup).2⟩, eq_map_of_mapM h fun m _ a ha => member hdedup m a ha⟩
    intro o ho
    exact (checks o.minerId (inRoster o ho)).1 o (mem_under.mpr ⟨ho, rfl⟩)
  · rintro ⟨ok, rfl⟩
    have hdedup := deduplicateTaskRewards_eq (metadataConsistent_of_onSchedule ok.onSchedule)
      ok.groups
    have outside : (observations.any fun o => decide (o.minerId ∉ minerIds)) = false := by
      rw [List.any_eq_false]
      intro o ho
      simp [ok.inRoster o ho]
    dsimp only
    rw [if_neg (not_or.mpr ⟨ok.rosterNonempty, not_not.mpr ok.rosterUnique⟩),
      if_neg (Bool.eq_false_iff.mp outside), hdedup]
    refine mapM_eq_map fun m hm => ?_
    have hcheck := (checkScheduled_deduplicated policy hdedup m).mpr
      ⟨fun o ho => ok.onSchedule o (mem_under.mp ho).1, ok.oncePerTask m hm⟩
    have hok := (aggregateScheduledMiner_ok_iff m).mpr ⟨hcheck, rfl⟩
    rw [hok, member hdedup m _ hok]

end Network

/-! ## A small schedule -/

namespace Sample

def scheduledTask (epoch : Nat) : ScheduledTask where
  epoch := epoch
  family := ['f']
  taskId := ['t', Char.ofNat (48 + epoch)]
  taskCommitment := ['c', Char.ofNat (48 + epoch)]
  identified := ⟨by simp, by simp, by simp⟩

variable {K : Type} [Field K] [LinearOrder K] [IsStrictOrderedRing K]

theorem full_weight : 0 < (1 : ℝ) ∧ (1 : ℝ) ≤ 1 := ⟨one_pos, le_refl 1⟩

/-- One family of three tasks, and every gate open. -/
def policy (maximumWeight : K) (bounds : 0 < maximumWeight ∧ maximumWeight ≤ 1) :
    AggregationPolicy K where
  requiredFamilies := [['f']]
  taskSchedule := [scheduledTask 0, scheduledTask 1, scheduledTask 2]
  minimumTasks := 1
  minimumTasksPerFamily := 1
  minimumAvailability := 0
  minimumCompliance := 0
  minimumCorrectness := 0
  winsorFraction := 0
  confidenceZ := 0
  maximumWeight := maximumWeight
  minimumDistinctStrategies := 1
  familiesUnique := by decide
  scheduled := by simp
  scheduleUnique := by decide
  scheduleFamilies := by decide
  tasksPerFamilyPositive := by decide
  quotas := by decide
  familyQuota := by decide
  gateBounds := by simp
  winsorBounds := by norm_num
  zNonnegative := le_refl 0
  weightBounds := bounds
  strategiesPositive := by decide

/-- Without clipping and penalty a family scores its mean reward. -/
theorem familyScoreValue_policy [FloorSemiring K] [RealFunctions K] (maximumWeight : K)
    (bounds : 0 < maximumWeight ∧ maximumWeight ≤ 1) (xs : List (EpochObservation K))
    (family : Text) : familyScoreValue (policy maximumWeight bounds) xs family =
      max 0 (fmean (familyRewards (policy maximumWeight bounds) xs family)) := by
  have width : ∀ count, winsorWidth count (policy maximumWeight bounds).winsorFraction 0 = 0 := by
    intro count
    simp [winsorWidth, policy]
  have z : (policy maximumWeight bounds).confidenceZ = 0 := rfl
  simp only [familyScoreValue, width, clippedMean, if_true, z, zero_mul, sub_zero,
    fmean_eq_of_perm (sorted_perm (familyRewards (policy maximumWeight bounds) xs family))]

/-- The accepted observation of a miner at a task. -/
def observation (minerId : Char) (epoch : Nat) (strategyDigest : Text) : EpochObservation K where
  minerId := [minerId]
  epoch := epoch
  family := ['f']
  taskId := ['t', Char.ofNat (48 + epoch)]
  taskCommitment := ['c', Char.ofNat (48 + epoch)]
  evidenceDigest := ['e', Char.ofNat (48 + epoch)]
  reward := 10
  available := true
  correct := true
  compliant := true
  strategyDigest := 's' :: strategyDigest
  behaviorDigest := 'b' :: strategyDigest
  identified := ⟨by simp, by simp, by simp, by simp, by simp, by simp, by simp⟩
  rewardBounds := by norm_num
  groupSizePositive := le_refl 1

/-- An eligible aggregate. -/
def aggregate (minerId behaviorDigest strategyDigest : Text) (reward : K) : MinerAggregate K where
  minerId := minerId
  eligible := true
  reward := reward
  center := reward
  uncertainty := 0
  availability := 1
  compliance := 1
  correctness := 1
  taskCount := 3
  familyScores := [(['f'], reward)]
  strategyDigest := strategyDigest
  behaviorDigest := behaviorDigest
  failureCode := none

end Sample

end NetworkAggregation
