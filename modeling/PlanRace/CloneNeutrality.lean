import PlanRace.Homogeneity
import PlanRace.PortfolioDiversity
import PlanRace.RewardSplit

/-!
# Exact clones

A miner replaced by identities that submit copies of all its observations. The
task accounting divides every accepted reward by the number of copies, the
aggregation scales with it, and the allocation adds the parts up again.
-/

namespace CloneNeutrality

open JsonText CanonicalJson Grouping Statistics ScoringV2 NetworkAggregation WaterFilling Allocation
  AllocationInvariants GroupMasses RewardSplit Homogeneity

section Copies

variable {K : Type} [Field K] [LinearOrder K]

/-- The same observation submitted by another identity. -/
def relabel (minerId : Text) (o : EpochObservation K) : EpochObservation K :=
  if h : minerId ≠ [] then { o with minerId := minerId, identified := ⟨h, o.identified.2⟩ } else o

theorem relabel_minerId {c : Text} (h : c ≠ []) (o : EpochObservation K) :
    (relabel c o).minerId = c := by
  rw [relabel, dif_pos h]

/-- A copy differs in its identity only. -/
theorem relabel_frame (c : Text) (o : EpochObservation K) :
    (relabel c o).metadata = o.metadata ∧ (relabel c o).taskId = o.taskId ∧
      (relabel c o).available = o.available ∧ (relabel c o).correct = o.correct ∧
      (relabel c o).compliant = o.compliant ∧ (relabel c o).strategyDigest = o.strategyDigest ∧
      (relabel c o).behaviorDigest = o.behaviorDigest ∧ (relabel c o).reward = o.reward ∧
      (relabel c o).evidenceDigest = o.evidenceDigest := by
  unfold relabel
  split_ifs <;> exact ⟨rfl, rfl, rfl, rfl, rfl, rfl, rfl, rfl, rfl⟩

theorem relabel_accepted (c : Text) (o : EpochObservation K) :
    (relabel c o).accepted = o.accepted := by
  obtain ⟨-, -, havailable, hcorrect, hcompliant, -⟩ := relabel_frame c o
  rw [EpochObservation.accepted, EpochObservation.accepted, havailable, hcorrect, hcompliant]

theorem relabel_cacheKey (c : Text) (o : EpochObservation K) :
    (relabel c o).cacheKey = o.cacheKey := by
  obtain ⟨hmeta, -, -, -, -, hstrategy, -⟩ := relabel_frame c o
  have hcommitment : (relabel c o).taskCommitment = o.taskCommitment :=
    congrArg (fun fields => fields.2.2) hmeta
  rw [EpochObservation.cacheKey, EpochObservation.cacheKey, hcommitment, hstrategy]

/-- `m` is replaced by clones that submit copies of all its observations. What
the other miners submit stays as it is, in its order. -/
structure Cloned (observations observations' : List (EpochObservation K))
    (minerIds minerIds' : List Text) (m : Text) (clones : List Text) : Prop where
  member : m ∈ minerIds
  some : clones ≠ []
  distinct : clones.Nodup
  named : ∀ c ∈ clones, c ≠ []
  fresh : ∀ c ∈ clones, c ∈ minerIds → c = m
  roster : minerIds'.Perm (clones ++ minerIds.erase m)
  others : (observations'.filter fun o => o.minerId ∉ clones) =
    observations.filter fun o => o.minerId ≠ m
  copies : ∀ c ∈ clones, (under EpochObservation.minerId observations' c).Perm
    ((under EpochObservation.minerId observations m).map (relabel c))

/-- No other miner has an accepted observation with a cached score of `m`. -/
def OwnScores (observations : List (EpochObservation K)) (m : Text) : Prop :=
  ∀ o ∈ observations, ∀ p ∈ observations, o.minerId = m → p.minerId ≠ m →
    o.accepted = true → p.accepted = true → o.cacheKey ≠ p.cacheKey

/-- The accepted observations with one cached score. -/
def scored (observations : List (EpochObservation K)) (k : Text × Text) :
    List (EpochObservation K) :=
  under EpochObservation.cacheKey (observations.filter EpochObservation.accepted) k

theorem mem_scored {observations : List (EpochObservation K)} {k : Text × Text}
    {o : EpochObservation K} :
    o ∈ scored observations k ↔ (o ∈ observations ∧ o.accepted = true) ∧ o.cacheKey = k := by
  simp [scored]

theorem scored_eq_filter (observations : List (EpochObservation K)) (k : Text × Text) :
    scored observations k = observations.filter fun o => decide (o.cacheKey = k) && o.accepted := by
  rw [scored, under, List.filter_filter]

variable {observations observations' : List (EpochObservation K)} {minerIds minerIds' : List Text}
  {m : Text} {clones : List Text} (cloned : Cloned observations observations' minerIds minerIds' m clones)
include cloned

/-- The other miners' observations. -/
theorem under_other {n : Text} (hn : n ∉ clones) (hm : n ≠ m) :
    under EpochObservation.minerId observations' n = under EpochObservation.minerId observations n := by
  have restrict : ∀ (xs : List (EpochObservation K)) (keep : EpochObservation K → Bool),
      (∀ o, o.minerId = n → keep o = true) →
      under EpochObservation.minerId (xs.filter keep) n = under EpochObservation.minerId xs n := by
    intro xs keep h
    rw [under, under, List.filter_filter]
    refine List.filter_congr fun o _ => ?_
    by_cases ho : o.minerId = n
    · simp [ho, h o ho]
    · simp [ho]
  rw [← restrict observations' (fun o => decide (o.minerId ∉ clones)) fun o ho => by
      simpa [ho] using hn, cloned.others, restrict _ _ fun o ho => by simpa [ho] using hm]

theorem mem_of_other {o : EpochObservation K} (ho : o.minerId ∉ clones) :
    o ∈ observations' ↔ o ∈ observations ∧ o.minerId ≠ m := by
  have h : o ∈ observations'.filter (fun o => decide (o.minerId ∉ clones)) ↔
      o ∈ observations.filter fun o => decide (o.minerId ≠ m) := by rw [cloned.others]
  simpa [ho] using h

theorem exists_of_clone {o : EpochObservation K} (ho : o ∈ observations') (hc : o.minerId ∈ clones) :
    ∃ p ∈ observations, p.minerId = m ∧ o = relabel o.minerId p := by
  have hmem := (cloned.copies o.minerId hc).mem_iff.mp (mem_under.mpr ⟨ho, rfl⟩)
  obtain ⟨p, hp, he⟩ := List.mem_map.mp hmem
  obtain ⟨hin, hm⟩ := mem_under.mp hp
  exact ⟨p, hin, hm, he.symm⟩

end Copies

section Scores

variable {K : Type} [Field K] [LinearOrder K] [IsStrictOrderedRing K]
  {observations observations' : List (EpochObservation K)} {minerIds minerIds' : List Text}
  {m : Text} {clones : List Text}

omit [IsStrictOrderedRing K] in
/-- A cached score that `m` has no part in is shared by the same observations. -/
theorem scored_other (cloned : Cloned observations observations' minerIds minerIds' m clones)
    {k : Text × Text} (absent : ∀ o ∈ scored observations k, o.minerId ≠ m) :
    scored observations' k = scored observations k := by
  have outside : ∀ o ∈ scored observations' k, o.minerId ∉ clones := by
    intro o ho hc
    obtain ⟨⟨hin, hacc⟩, hk⟩ := mem_scored.mp ho
    obtain ⟨p, hp, hm, he⟩ := exists_of_clone cloned hin hc
    rw [he, relabel_accepted] at hacc
    rw [he, relabel_cacheKey] at hk
    exact absent p (mem_scored.mpr ⟨⟨hp, hacc⟩, hk⟩) hm
  have keep : ∀ {xs : List (EpochObservation K)} {r : EpochObservation K → Bool},
      (∀ o ∈ scored xs k, r o = true) → scored xs k = scored (xs.filter r) k := by
    intro xs r h
    rw [scored_eq_filter, scored_eq_filter, List.filter_filter]
    refine List.filter_congr fun o ho => ?_
    cases hq : decide (o.cacheKey = k) && o.accepted with
    | false => rfl
    | true =>
      rw [Bool.and_eq_true, decide_eq_true_eq] at hq
      rw [h o (mem_scored.mpr ⟨⟨ho, hq.2⟩, hq.1⟩)]
      rfl
  rw [keep fun o ho => decide_eq_true (outside o ho), cloned.others,
    ← keep fun o ho => decide_eq_true (absent o ho)]

omit [IsStrictOrderedRing K] in
/-- A cached score of `m` alone is shared by one copy of each clone. -/
theorem scored_clones (cloned : Cloned observations observations' minerIds minerIds' m clones)
    (own : OwnScores observations m) {o : EpochObservation K} (ho : o ∈ observations)
    (hm : o.minerId = m) (accepted : o.accepted = true)
    (once : ((scored observations o.cacheKey).map EpochObservation.minerId).Nodup) :
    (scored observations' o.cacheKey).Perm (clones.map fun c => relabel c o) := by
  have mem : o ∈ scored observations o.cacheKey := mem_scored.mpr ⟨⟨ho, accepted⟩, rfl⟩
  have alone : under EpochObservation.minerId (scored observations o.cacheKey) m = [o] := by
    rw [← hm]
    exact under_of_nodup once mem
  have swap : ∀ (xs : List (EpochObservation K)) (n : Text),
      under EpochObservation.minerId (scored xs o.cacheKey) n =
        (under EpochObservation.minerId xs n).filter fun x =>
          decide (x.cacheKey = o.cacheKey) && x.accepted := by
    intro xs n
    rw [scored_eq_filter, under, under, List.filter_filter, List.filter_filter]
    exact List.filter_congr fun x _ => Bool.and_comm _ _
  have one : ∀ c ∈ clones,
      (under EpochObservation.minerId (scored observations' o.cacheKey) c).Perm [relabel c o] := by
    intro c hc
    have h := (cloned.copies c hc).filter fun x => decide (x.cacheKey = o.cacheKey) && x.accepted
    rw [← swap, List.filter_map] at h
    have same : (fun x : EpochObservation K => decide (x.cacheKey = o.cacheKey) && x.accepted) ∘
        relabel c = fun x => decide (x.cacheKey = o.cacheKey) && x.accepted :=
      funext fun x => by simp only [Function.comp_apply, relabel_cacheKey, relabel_accepted]
    rw [same, ← swap, alone] at h
    exact h
  have inside : ∀ x ∈ scored observations' o.cacheKey, x.minerId ∈ clones := by
    intro x hx
    obtain ⟨⟨hin, hacc⟩, hk⟩ := mem_scored.mp hx
    by_contra hout
    obtain ⟨hx', hne⟩ := (mem_of_other cloned hout).mp hin
    exact own o ho x hx' hm hne accepted hacc hk.symm
  have split := (flatMap_under_perm EpochObservation.minerId (scored observations' o.cacheKey)
    cloned.distinct).trans (List.Perm.of_eq (List.filter_eq_self.mpr fun x hx => by
      simpa using inside x hx))
  refine split.symm.trans ?_
  rw [List.map_eq_flatMap]
  exact List.Perm.flatMap_left clones one

/-- Equal rewards are shared evenly. -/
theorem shared_reward {o : EpochObservation K} (accepted : o.accepted = true) {r : K}
    (some : scored observations o.cacheKey ≠ [])
    (equal : ∀ x ∈ scored observations o.cacheKey, x.reward = r) :
    (shared observations o).reward = r / (scored observations o.cacheKey).length := by
  rw [shared, if_pos accepted, cacheGroup]
  change (shareWith (scored observations o.cacheKey) o).reward = _
  cases hs : scored observations o.cacheKey with
  | nil => exact absurd hs some
  | cons first rest =>
    rw [hs] at equal
    rw [← equal first List.mem_cons_self]
    rfl

/-- A group whose members all carry one evidence and one reward passes the checks. -/
theorem groupOk_of_equal {members : List (EpochObservation K)} (evidence : Text) (r : K)
    (miners : (members.map EpochObservation.minerId).Nodup)
    (sameEvidence : ∀ x ∈ members, x.evidenceDigest = evidence)
    (sameReward : ∀ x ∈ members, x.reward = r) : GroupOk members := by
  refine ⟨miners, fun x hx first hfirst => ?_, fun first hfirst => ?_⟩
  · rw [sameEvidence x hx, sameEvidence first (List.mem_of_mem_head? hfirst)]
  · have constant : ∀ {f : K → K → K} {xs : List K}, f r r = r → (∀ x ∈ xs, x = r) →
        xs.foldl f r = r := by
      intro f xs hf hxs
      induction xs with
      | nil => rfl
      | cons x xs ih =>
        rw [List.foldl_cons, hxs x List.mem_cons_self, hf]
        exact ih fun y hy => hxs y (List.mem_cons_of_mem _ hy)
    have rewards : ∀ x ∈ members.map EpochObservation.reward, x = r := by
      simpa using sameReward
    rw [sameReward first (List.mem_of_mem_head? hfirst), constant (max_self r) rewards,
      constant (min_self r) rewards, sub_self]
    positivity

end Scores

section Network

variable {observations observations' : List (EpochObservation ℝ)} {minerIds minerIds' : List Text}
  {m : Text} {clones : List Text} {policy : AggregationPolicy ℝ}
  (cloned : Cloned observations observations' minerIds minerIds' m clones)
  (own : OwnScores observations m) (ok : NetworkOk observations minerIds policy)

include ok in
/-- The accepted observations with one cached score are a group of the accounting. -/
theorem groupOk_scored {o : EpochObservation ℝ} (ho : o ∈ observations)
    (accepted : o.accepted = true) : GroupOk (scored observations o.cacheKey) := by
  have hin : o ∈ observations.filter EpochObservation.accepted := List.mem_filter.mpr ⟨ho, accepted⟩
  exact ok.groups (o.cacheKey, scored observations o.cacheKey)
    (mem_groupBy.mpr ⟨List.mem_map_of_mem hin, rfl⟩)

include cloned in
theorem map_minerId_copies (o : EpochObservation ℝ) :
    (clones.map fun c => relabel c o).map EpochObservation.minerId = clones := by
  rw [List.map_map]
  exact (List.map_congr_left fun c hc => relabel_minerId (cloned.named c hc) o).trans (List.map_id _)

include own ok in
/-- Alone under its score, the replaced miner kept its whole reward. -/
theorem reward_original {o : EpochObservation ℝ} (ho : o ∈ observations) (hm : o.minerId = m)
    (accepted : o.accepted = true) : (shared observations o).reward = o.reward := by
  have mem : o ∈ scored observations o.cacheKey := mem_scored.mpr ⟨⟨ho, accepted⟩, rfl⟩
  have alone : ∀ x ∈ scored observations o.cacheKey, x = o := by
    intro x hx
    obtain ⟨⟨hin, hacc⟩, hk⟩ := mem_scored.mp hx
    have same : x.minerId = m := by
      by_contra hne
      exact own o ho x hin hm hne accepted hacc hk.symm
    exact List.inj_on_of_nodup_map (groupOk_scored ok ho accepted).miners hx mem (same.trans hm.symm)
  have one : (scored observations o.cacheKey).length = 1 := by
    have hnodup := (groupOk_scored ok ho accepted).miners.of_map
    have hperm := (List.perm_ext_iff_of_nodup hnodup (List.nodup_singleton o)).mpr fun x =>
      ⟨fun hx => List.mem_singleton.mpr (alone x hx), fun hx => List.mem_singleton.mp hx ▸ mem⟩
    exact hperm.length_eq
  rw [shared_reward accepted (List.ne_nil_of_mem mem) fun x hx => by rw [alone x hx], one]
  simp

include cloned own in
/-- The other miners' aggregates do not change. -/
theorem memberAggregate_other {n : Text} (hn : n ∉ clones) (hm : n ≠ m) :
    memberAggregate observations' policy n = memberAggregate observations policy n := by
  have same : (under EpochObservation.minerId observations n).map (shared observations') =
      (under EpochObservation.minerId observations n).map (shared observations) := by
    refine List.map_congr_left fun o ho => ?_
    obtain ⟨hin, hid⟩ := mem_under.mp ho
    unfold shared
    split_ifs with hacc
    · have group : cacheGroup observations' o = cacheGroup observations o := by
        refine scored_other cloned fun p hp hpm => ?_
        obtain ⟨⟨hpin, hpacc⟩, hpk⟩ := mem_scored.mp hp
        exact own p hpin o hin hpm (by rw [hid]; exact hm) hpacc hacc hpk
      rw [group]
    · rfl
  rw [memberAggregate, memberAggregate, under_other cloned hn hm, same]

include cloned own ok

/-- A clone's accepted copy is worth its part of the observation. -/
theorem reward_copy {o : EpochObservation ℝ} (ho : o ∈ observations) (hm : o.minerId = m)
    (accepted : o.accepted = true) (c : Text) :
    (shared observations' (relabel c o)).reward = o.reward / clones.length := by
  have group := scored_clones cloned own ho hm accepted (groupOk_scored ok ho accepted).miners
  have equal : ∀ x ∈ scored observations' o.cacheKey, x.reward = o.reward := by
    intro x hx
    obtain ⟨d, -, rfl⟩ := List.mem_map.mp (group.mem_iff.mp hx)
    exact (relabel_frame d o).2.2.2.2.2.2.2.1
  have some : scored observations' o.cacheKey ≠ [] := by
    intro h
    rw [h] at group
    exact cloned.some (List.map_eq_nil_iff.mp group.symm.eq_nil)
  rw [← relabel_cacheKey c o] at equal some
  rw [shared_reward ((relabel_accepted c o).trans accepted) some equal, relabel_cacheKey,
    group.length_eq, List.length_map]

/-- A clone's deduplicated observations are the miner's with divided rewards. -/
theorem scaledBy_copy (c : Text) : ScaledBy (1 / clones.length)
    (under EpochObservation.minerId observations m) (shared observations)
    fun o => shared observations' (relabel c o) := by
  have frames : ∀ o, (shared observations' (relabel c o)).taskId = (shared observations o).taskId ∧
      (shared observations' (relabel c o)).metadata = (shared observations o).metadata ∧
      ((shared observations' (relabel c o)).available = (shared observations o).available ∧
        (shared observations' (relabel c o)).correct = (shared observations o).correct ∧
        (shared observations' (relabel c o)).compliant = (shared observations o).compliant) ∧
      (shared observations' (relabel c o)).strategyDigest = (shared observations o).strategyDigest ∧
      (shared observations' (relabel c o)).behaviorDigest = (shared observations o).behaviorDigest := by
    intro o
    obtain ⟨-, hmeta, htask, hav, hcor, hcom, hstr, hbeh⟩ := shared_frame observations o
    obtain ⟨-, hmeta', htask', hav', hcor', hcom', hstr', hbeh'⟩ :=
      shared_frame observations' (relabel c o)
    obtain ⟨rmeta, rtask, rav, rcor, rcom, rstr, rbeh, -⟩ := relabel_frame c o
    exact ⟨htask'.trans (rtask.trans htask.symm), hmeta'.trans (rmeta.trans hmeta.symm),
      ⟨hav'.trans (rav.trans hav.symm), hcor'.trans (rcor.trans hcor.symm),
        hcom'.trans (rcom.trans hcom.symm)⟩,
      hstr'.trans (rstr.trans hstr.symm), hbeh'.trans (rbeh.trans hbeh.symm)⟩
  refine ⟨fun o _ => (frames o).1, fun o _ => (frames o).2.2.1, fun o _ => ?_,
    fun o _ => (frames o).2.2.2, fun o ho hacc => ?_⟩
  · exact congrArg (fun fields => fields.2.1) (frames o).2.1
  · obtain ⟨hin, hm⟩ := mem_under.mp ho
    obtain ⟨-, -, -, hav, hcor, hcom, -⟩ := shared_frame observations o
    have accepted : o.accepted = true := by
      rwa [EpochObservation.accepted, hav, hcor, hcom] at hacc
    rw [reward_copy cloned own ok hin hm accepted, reward_original own ok hin hm accepted]
    ring

/-- A clone's aggregate is the miner's with a divided reward. -/
theorem memberAggregate_clone {c : Text} (hc : c ∈ clones) :
    (memberAggregate observations' policy c).eligible =
        (memberAggregate observations policy m).eligible ∧
      (memberAggregate observations' policy c).reward =
        1 / clones.length * (memberAggregate observations policy m).reward ∧
      (memberAggregate observations' policy c).strategyDigest =
        (memberAggregate observations policy m).strategyDigest ∧
      (memberAggregate observations' policy c).behaviorDigest =
        (memberAggregate observations policy m).behaviorDigest := by
  have hpos : (0 : ℝ) < 1 / clones.length := by
    have hlength : (0 : ℝ) < clones.length := by exact_mod_cast List.length_pos_iff.mpr cloned.some
    positivity
  have hperm := (cloned.copies c hc).map (shared observations')
  rw [List.map_map] at hperm
  have hmember : memberAggregate observations' policy c = aggregateOf c
      ((under EpochObservation.minerId observations m).map fun o => shared observations' (relabel c o))
      policy := by
    refine aggregateOf_eq_of_perm c hperm ?_ policy
    rw [(hperm.map EpochObservation.taskId).nodup_iff, List.map_map]
    have ids : (under EpochObservation.minerId observations m).map
        (EpochObservation.taskId ∘ (shared observations' ∘ relabel c)) =
        (under EpochObservation.minerId observations m).map EpochObservation.taskId :=
      List.map_congr_left fun o _ => by
        simp only [Function.comp_apply, (shared_frame observations' (relabel c o)).2.2.1,
          (relabel_frame c o).2.1]
    rw [ids]
    exact ok.oncePerTask m cloned.member
  rw [hmember]
  exact aggregateOf_scaled hpos (scaledBy_copy cloned own ok c) m c policy

omit own in
/-- A clone reports the replaced miner's tasks, and anyone else their own. -/
theorem tasks_once_clones {n : Text} (listed : n ∈ minerIds') :
    ((under EpochObservation.minerId observations' n).map EpochObservation.taskId).Nodup := by
  by_cases hc : n ∈ clones
  · have ids : (under EpochObservation.minerId observations m).map
        (EpochObservation.taskId ∘ relabel n) =
        (under EpochObservation.minerId observations m).map EpochObservation.taskId :=
      List.map_congr_left fun o _ => (relabel_frame n o).2.1
    rw [((cloned.copies n hc).map EpochObservation.taskId).nodup_iff, List.map_map, ids]
    exact ok.oncePerTask m cloned.member
  · obtain ⟨hne, hin⟩ := ok.rosterUnique.mem_erase_iff.mp
      ((List.mem_append.mp (cloned.roster.mem_iff.mp listed)).resolve_left hc)
    rw [under_other cloned hc hne]
    exact ok.oncePerTask n hin

/-- The copies of one observation are a group of the accounting. -/
theorem groupOk_copies {o : EpochObservation ℝ} (ho : o ∈ observations) (hm : o.minerId = m)
    (accepted : o.accepted = true) : GroupOk (scored observations' o.cacheKey) := by
  have group := scored_clones cloned own ho hm accepted (groupOk_scored ok ho accepted).miners
  have copies : ∀ x ∈ scored observations' o.cacheKey, ∃ c, x = relabel c o := fun x hx => by
    obtain ⟨c, -, he⟩ := List.mem_map.mp (group.mem_iff.mp hx)
    exact ⟨c, he.symm⟩
  refine groupOk_of_equal o.evidenceDigest o.reward ?_ ?_ ?_
  · rw [(group.map EpochObservation.minerId).nodup_iff, map_minerId_copies cloned]
    exact cloned.distinct
  · intro x hx
    obtain ⟨c, rfl⟩ := copies x hx
    exact (relabel_frame c o).2.2.2.2.2.2.2.2
  · intro x hx
    obtain ⟨c, rfl⟩ := copies x hx
    exact (relabel_frame c o).2.2.2.2.2.2.2.1

theorem groupOk_clones (key : Text × Text) : GroupOk (scored observations' key) := by
  by_cases mine : ∃ o ∈ scored observations key, o.minerId = m
  · obtain ⟨o, ho, hm⟩ := mine
    obtain ⟨⟨hin, accepted⟩, rfl⟩ := mem_scored.mp ho
    exact groupOk_copies cloned own ok hin hm accepted
  · push Not at mine
    rw [scored_other cloned mine]
    cases hs : scored observations key with
    | nil => exact ⟨List.nodup_nil, by simp, by simp⟩
    | cons o rest =>
      have ho : o ∈ scored observations key := hs ▸ List.mem_cons_self
      obtain ⟨⟨hin, accepted⟩, rfl⟩ := mem_scored.mp ho
      exact hs ▸ groupOk_scored ok hin accepted

theorem networkOk_clones : NetworkOk observations' minerIds' policy where
  rosterNonempty := by
    intro h
    have hroster := cloned.roster
    rw [h] at hroster
    exact cloned.some (List.append_eq_nil_iff.mp hroster.symm.eq_nil).1
  rosterUnique := by
    refine cloned.roster.nodup_iff.mpr (List.nodup_append'.mpr
      ⟨cloned.distinct, ok.rosterUnique.erase m, fun c hc he => ?_⟩)
    obtain ⟨hne, hin⟩ := ok.rosterUnique.mem_erase_iff.mp he
    exact hne (cloned.fresh c hc hin)
  inRoster := by
    intro o ho
    refine cloned.roster.mem_iff.mpr (List.mem_append.mpr ?_)
    by_cases hc : o.minerId ∈ clones
    · exact Or.inl hc
    · obtain ⟨hin, hne⟩ := (mem_of_other cloned hc).mp ho
      exact Or.inr (ok.rosterUnique.mem_erase_iff.mpr ⟨hne, ok.inRoster o hin⟩)
  onSchedule := by
    intro o ho
    by_cases hc : o.minerId ∈ clones
    · obtain ⟨p, hp, -, he⟩ := exists_of_clone cloned ho hc
      obtain ⟨hmeta, htask, -⟩ := relabel_frame o.minerId p
      rw [he, OnSchedule, hmeta, htask]
      exact ok.onSchedule p hp
    · exact ok.onSchedule o ((mem_of_other cloned hc).mp ho).1
  oncePerTask _ listed := tasks_once_clones cloned ok listed
  groups := by
    intro g hg
    obtain ⟨-, hmembers⟩ := mem_groupBy.mp hg
    change g.2 = scored observations' g.1 at hmembers
    exact hmembers ▸ groupOk_clones cloned own ok g.1

/-- Replacing a miner by clones of itself leaves the plan, the groups and all
other miners as they were, and the clones share what the miner had. -/
theorem clones_neutral_of_ok {result : AllocationResult ℝ}
    (h : allocateWeights (minerIds.map (memberAggregate observations policy)) policy = .ok result) :
    ∃ result', allocateWeights (minerIds'.map (memberAggregate observations' policy)) policy =
        .ok result' ∧ result'.planned = result.planned ∧
      result'.strategyWeights = result.strategyWeights ∧
      (∀ n ∈ minerIds, n ≠ m → weightOf result' n = weightOf result n) ∧
      (clones.map (weightOf result')).sum = weightOf result m := by
  have before : (minerIds.map (memberAggregate observations policy)).Perm
      (memberAggregate observations policy m ::
        (minerIds.erase m).map (memberAggregate observations policy)) :=
    (List.perm_cons_erase cloned.member).map _
  have others : (minerIds.erase m).map (memberAggregate observations' policy) =
      (minerIds.erase m).map (memberAggregate observations policy) := by
    refine List.map_congr_left fun n hn => ?_
    obtain ⟨hne, hin⟩ := ok.rosterUnique.mem_erase_iff.mp hn
    exact memberAggregate_other cloned own (fun hc => hne (cloned.fresh n hc hin)) hne
  have after : (minerIds'.map (memberAggregate observations' policy)).Perm
      (clones.map (memberAggregate observations' policy) ++
        (minerIds.erase m).map (memberAggregate observations policy)) := by
    have hmap := cloned.roster.map (memberAggregate observations' policy)
    rwa [List.map_append, others] at hmap
  have member : ∀ c ∈ clones.map (memberAggregate observations' policy), ∃ id ∈ clones,
      c = memberAggregate observations' policy id := fun c hc => by
    obtain ⟨id, hid, he⟩ := List.mem_map.mp hc
    exact ⟨id, hid, he.symm⟩
  have split : EvenSplit (memberAggregate observations policy m)
      (clones.map (memberAggregate observations' policy)) := by
    refine ⟨by simpa using cloned.some, fun c hc => ?_, fun c hc => ?_, fun c hc => ?_,
      fun c hc => ?_⟩
    all_goals
      obtain ⟨id, hid, rfl⟩ := member c hc
      obtain ⟨heligible, hreward, hstrategy, hbehavior⟩ := memberAggregate_clone cloned own ok hid
    · exact heligible
    · exact hstrategy
    · exact hbehavior
    · rw [hreward, List.length_map]
      ring
  have ids : ∀ (obs : List (EpochObservation ℝ)) (roster : List Text),
      (roster.map (memberAggregate obs policy)).map MinerAggregate.minerId = roster := by
    intro obs roster
    rw [List.map_map]
    exact List.map_id roster
  have unique : ((minerIds.map (memberAggregate observations policy)).map
      MinerAggregate.minerId).Nodup := by
    rw [ids]
    exact ok.rosterUnique
  have unique' : ((minerIds'.map (memberAggregate observations' policy)).map
      MinerAggregate.minerId).Nodup := by
    rw [ids]
    exact (networkOk_clones cloned own ok).rosterUnique
  obtain ⟨result', hresult, hplanned, hstrategy, hothers, hsum⟩ :=
    allocateWeights_split before after split unique unique' h
  refine ⟨result', hresult, hplanned, hstrategy, fun n hn hne => ?_, ?_⟩
  · exact hothers (memberAggregate observations policy n)
      (List.mem_map_of_mem (ok.rosterUnique.mem_erase_iff.mpr ⟨hne, hn⟩))
  · rw [List.map_map] at hsum
    exact hsum

omit cloned own ok

/-- Exact clones are neutral: after aggregation and allocation the plan, every
group's weight and every other miner's weight are unchanged, each clone is
eligible as the miner was, and the clones' rewards and weights sum to its own. -/
theorem clones_neutral {aggregates : List (MinerAggregate ℝ)} {result : AllocationResult ℝ}
    (accepted : aggregateNetwork observations minerIds policy = .ok aggregates)
    (allocated : allocateWeights aggregates policy = .ok result)
    (own : OwnScores observations m)
    (cloned : Cloned observations observations' minerIds minerIds' m clones) :
    ∃ aggregates' result', aggregateNetwork observations' minerIds' policy = .ok aggregates' ∧
      allocateWeights aggregates' policy = .ok result' ∧ result'.planned = result.planned ∧
      result'.strategyWeights = result.strategyWeights ∧
      (∀ n ∈ minerIds, n ≠ m → weightOf result' n = weightOf result n) ∧
      (∀ a ∈ aggregates, a.minerId = m →
        (∀ c ∈ aggregates', c.minerId ∈ clones → c.eligible = a.eligible) ∧
        ((aggregates'.filter fun c => c.minerId ∈ clones).map MinerAggregate.reward).sum =
          a.reward) ∧
      (clones.map (weightOf result')).sum = weightOf result m := by
  obtain ⟨ok, rfl⟩ := aggregateNetwork_ok_iff.mp accepted
  have ok' := networkOk_clones cloned own ok
  obtain ⟨result', hresult, hplanned, hstrategy, hothers, hsum⟩ :=
    clones_neutral_of_ok cloned own ok allocated
  refine ⟨_, result', aggregateNetwork_ok_iff.mpr ⟨ok', rfl⟩, hresult, hplanned, hstrategy, hothers,
    fun a ha hm => ?_, hsum⟩
  obtain ⟨n, hn, rfl⟩ := List.mem_map.mp ha
  change n = m at hm
  subst hm
  constructor
  · intro c hc hid
    obtain ⟨id, -, rfl⟩ := List.mem_map.mp hc
    exact (memberAggregate_clone cloned own ok hid).1
  · have inRoster : (minerIds'.filter fun id => id ∈ clones).Perm clones := by
      have hfilter := cloned.roster.filter fun id => decide (id ∈ clones)
      have outside : (minerIds.erase n).filter (fun id => decide (id ∈ clones)) = [] := by
        rw [List.filter_eq_nil_iff]
        intro id hid hc
        obtain ⟨hne, hin⟩ := ok.rosterUnique.mem_erase_iff.mp hid
        exact hne (cloned.fresh id (of_decide_eq_true hc) hin)
      rw [List.filter_append, outside, List.append_nil, List.filter_eq_self.mpr fun id hid =>
        decide_eq_true hid] at hfilter
      exact hfilter
    have rewards : ∀ c ∈ clones, (memberAggregate observations' policy c).reward =
        1 / clones.length * (memberAggregate observations policy n).reward :=
      fun c hc => (memberAggregate_clone cloned own ok hc).2.1
    have hlength : (clones.length : ℝ) ≠ 0 := by simpa using cloned.some
    rw [List.filter_map, List.map_map]
    refine ((inRoster.map _).sum_eq).trans ?_
    rw [Function.comp_def, List.map_congr_left rewards, List.map_const', List.sum_replicate,
      nsmul_eq_mul]
    field_simp

end Network

/-! ## One miner of two in two copies -/

noncomputable section Sample

def sampleObservations : List (EpochObservation ℝ) :=
  [Sample.observation 'a' 0 ['x'], Sample.observation 'b' 0 ['y']]

def sampleCopies : List (EpochObservation ℝ) :=
  [Sample.observation 'c' 0 ['x'], Sample.observation 'b' 0 ['y'], Sample.observation 'd' 0 ['x']]

def samplePolicy : AggregationPolicy ℝ := Sample.policy 1 Sample.full_weight

theorem sample_networkOk : NetworkOk sampleObservations [['a'], ['b']] samplePolicy where
  rosterNonempty := by simp
  rosterUnique := by decide
  inRoster := by simp [sampleObservations, Sample.observation]
  onSchedule := by
    have scheduled : ∀ n x, OnSchedule samplePolicy (Sample.observation n 0 x) := fun n x =>
      ⟨Sample.scheduledTask 0, List.mem_cons_self, rfl, rfl⟩
    intro o ho
    rcases List.mem_pair.mp ho with rfl | rfl <;> exact scheduled _ _
  oncePerTask := by
    intro n hn
    rcases List.mem_pair.mp hn with rfl | rfl <;> decide
  groups := by
    have groups : cacheGroups sampleObservations =
        [((['c', '0'], ['s', 'x']), [Sample.observation 'a' 0 ['x']]),
          ((['c', '0'], ['s', 'y']), [Sample.observation 'b' 0 ['y']])] := rfl
    intro g hg
    rw [groups] at hg
    rcases List.mem_pair.mp hg with rfl | rfl <;>
      exact ⟨by decide, by simp, by norm_num [Sample.observation]⟩

theorem sample_cloned : Cloned sampleObservations sampleCopies [['a'], ['b']] [['c'], ['b'], ['d']]
    ['a'] [['c'], ['d']] where
  member := by decide
  some := by decide
  distinct := by decide
  named := by decide
  fresh := by decide
  roster := by decide
  others := rfl
  copies := by
    intro c hc
    rcases List.mem_pair.mp hc with rfl | rfl
    · exact List.Perm.refl [Sample.observation 'c' 0 ['x']]
    · exact List.Perm.refl [Sample.observation 'd' 0 ['x']]

theorem sample_good : ∀ o ∈ (under EpochObservation.minerId sampleObservations ['a']).map
    (shared sampleObservations), o.accepted = true ∧ o.family = ['f'] := by
  intro o ho
  obtain rfl := List.mem_singleton.mp ho
  exact ⟨rfl, rfl⟩

theorem sample_rewards : familyRewards samplePolicy
    ((under EpochObservation.minerId sampleObservations ['a']).map (shared sampleObservations)) ['f'] =
      [(10 : ℝ) / (1 : ℕ), 0, 0] := by
  rfl

/-- Of the sample, at least the first miner is paid. -/
theorem sample_plannable : Plannable ([['a'], ['b']].map
    (memberAggregate sampleObservations samplePolicy)) samplePolicy := by
  have eligible : (memberAggregate sampleObservations samplePolicy ['a']).eligible = true := by
    refine PortfolioDiversity.eligible_of_positive (List.cons_ne_nil _ _) sample_good ?_
    change 0 < fmean (familyRewards samplePolicy _ ['f'])
    rw [sample_rewards]
    norm_num [fmean]
  exact plannable_of_recipient (mem_recipients.mpr ⟨List.mem_map_of_mem List.mem_cons_self, eligible,
    aggregateOf_reward_pos eligible⟩) rfl rfl

theorem sample_clones_neutral : ∃ aggregates result,
    aggregateNetwork sampleObservations [['a'], ['b']] samplePolicy = .ok aggregates ∧
    allocateWeights aggregates samplePolicy = .ok result ∧ result.planned = true ∧
    ∃ aggregates' result',
      aggregateNetwork sampleCopies [['c'], ['b'], ['d']] samplePolicy = .ok aggregates' ∧
      allocateWeights aggregates' samplePolicy = .ok result' ∧ result'.planned = result.planned ∧
      result'.strategyWeights = result.strategyWeights ∧
      (∀ n ∈ [['a'], ['b']], n ≠ ['a'] → weightOf result' n = weightOf result n) ∧
      (∀ a ∈ aggregates, a.minerId = ['a'] →
        (∀ c ∈ aggregates', c.minerId ∈ [['c'], ['d']] → c.eligible = a.eligible) ∧
        ((aggregates'.filter fun c => c.minerId ∈ [['c'], ['d']]).map MinerAggregate.reward).sum =
          a.reward) ∧
      ([['c'], ['d']].map (weightOf result')).sum = weightOf result ['a'] := by
  have accepted := aggregateNetwork_ok_iff.mpr ⟨sample_networkOk, rfl⟩
  obtain ⟨groups, metrics, -, -, allocated⟩ := allocateWeights_of_plannable sample_plannable
  have own : OwnScores sampleObservations ['a'] := by
    intro o ho p hp hom hpm _ _
    rcases List.mem_pair.mp ho with rfl | rfl
    · rcases List.mem_pair.mp hp with rfl | rfl
      · exact absurd rfl hpm
      · exact (by decide : ((['c', '0'], ['s', 'x']) : Text × Text) ≠ (['c', '0'], ['s', 'y']))
    · exact absurd hom (by decide : ['b'] ≠ ['a'])
  exact ⟨_, _, accepted, allocated, rfl, clones_neutral accepted allocated own sample_cloned⟩

end Sample

end CloneNeutrality
