import PlanRace.NetworkAggregation

/-!
# Deduplication conserves the mass of a group

`deduplicate_task_rewards` refuses exactly the inconsistent observations. On
all others it replaces each observation by one with the same identity, and the
rewards of a group add up to a reward that one of its members reported.
-/

namespace RewardConservation

open JsonText LexOrder Grouping Statistics ScoringV2 NetworkAggregation Fallible

section Order

/-- Code-point order of texts is the order of their keys. -/
theorem lexLe_textKey_iff (s t : Text) (m n : Nat) :
    lexLe id (textKey s ++ [0, m]) (textKey t ++ [0, n]) = true ↔ s < t ∨ s = t ∧ m ≤ n := by
  induction s generalizing t with
  | nil =>
    cases t with
    | nil =>
      have epochs : lexLe id [0, m] [0, n] = true ↔ m < n ∨ m = n := by
        rw [lexLe_cons, lexLe_cons]
        simp only [id, lt_self_iff_false, false_or, true_and, lexLe, and_true]
      simp only [textKey, List.map_nil, List.nil_append, epochs, List.not_lt_nil, false_or,
        true_and]
      omega
    | cons d t =>
      simp [textKey, lexLe_cons]
  | cons c s ih =>
    cases t with
    | nil =>
      simp [textKey, lexLe_cons]
    | cons d t =>
      have step := ih t
      simp only [textKey, List.map_cons, List.cons_append] at step ⊢
      rw [lexLe_cons, step, List.cons_lt_cons_iff, List.cons.injEq]
      have hlt : id (c.toNat + 1) < id (d.toNat + 1) ↔ c < d := by
        rw [id, id, Nat.succ_lt_succ_iff]
        exact Iff.rfl
      have heq : id (c.toNat + 1) = id (d.toNat + 1) ↔ c = d := by
        rw [id, id, Nat.succ_inj]
        exact Char.toNat_inj
      rw [hlt, heq]
      tauto

end Order

variable {K : Type} [Field K] [LinearOrder K]

/-- The order of the returned observations: by miner, then by epoch. -/
def Before (o p : EpochObservation K) : Prop :=
  o.minerId < p.minerId ∨ o.minerId = p.minerId ∧ o.epoch ≤ p.epoch

/-- Some task carries two different schedule metadata. -/
def ConflictingTask (observations : List (EpochObservation K)) : Prop :=
  ∃ o ∈ observations, ∃ p ∈ observations, o.taskId = p.taskId ∧ o.metadata ≠ p.metadata

/-- Some group has one miner twice, two evidence digests, or rewards that are
more than 1e-9 apart. -/
def ConflictingGroup (observations : List (EpochObservation K)) : Prop :=
  ∃ o ∈ observations, o.accepted = true ∧
    (¬ ((cacheGroup observations o).map EpochObservation.minerId).Nodup ∨
      (∃ p ∈ cacheGroup observations o, ∃ q ∈ cacheGroup observations o,
        p.evidenceDigest ≠ q.evidenceDigest) ∨
      ∃ p ∈ cacheGroup observations o, ∃ q ∈ cacheGroup observations o,
        1 / 10 ^ 9 < p.reward - q.reward)

/-- Nothing but the reward and the group size differs. -/
structure SameIdentity (o p : EpochObservation K) : Prop where
  minerId : p.minerId = o.minerId
  epoch : p.epoch = o.epoch
  family : p.family = o.family
  taskId : p.taskId = o.taskId
  taskCommitment : p.taskCommitment = o.taskCommitment
  evidenceDigest : p.evidenceDigest = o.evidenceDigest
  available : p.available = o.available
  correct : p.correct = o.correct
  compliant : p.compliant = o.compliant
  strategyDigest : p.strategyDigest = o.strategyDigest
  behaviorDigest : p.behaviorDigest = o.behaviorDigest

/-- What the members of a group become: equal rewards that add up to a value
between two of the original rewards. -/
structure GroupConserved (group : List (EpochObservation K))
    (share : EpochObservation K → EpochObservation K) : Prop where
  equal : ∀ p ∈ group, ∀ q ∈ group, (share p).reward = (share q).reward
  size : ∀ p ∈ group, (share p).duplicateGroupSize = group.length
  least : ∃ p ∈ group, p.reward ≤ (group.map fun q => (share q).reward).sum
  greatest : ∃ p ∈ group, (group.map fun q => (share q).reward).sum ≤ p.reward

structure Conserved (observations out : List (EpochObservation K)) : Prop where
  ordered : out.Pairwise Before
  shares : ∃ share : EpochObservation K → EpochObservation K,
    out.Perm (observations.map share) ∧ (∀ o ∈ observations, SameIdentity o (share o)) ∧
      (∀ o ∈ observations, o.accepted = false → share o = o) ∧
      ∀ o ∈ observations, o.accepted = true → GroupConserved (cacheGroup observations o) share

theorem before_iff_keyLe (o p : EpochObservation K) : Before o p ↔ keyLe id observationKey o p :=
  (lexLe_textKey_iff o.minerId p.minerId o.epoch p.epoch).symm

theorem mem_cacheGroup {observations : List (EpochObservation K)} {o p : EpochObservation K} :
    p ∈ cacheGroup observations o ↔
      p ∈ observations ∧ p.accepted = true ∧ p.cacheKey = o.cacheKey := by
  rw [cacheGroup, mem_under, List.mem_filter, and_assoc]

theorem cacheGroup_congr {observations : List (EpochObservation K)} {o p : EpochObservation K}
    (h : p ∈ cacheGroup observations o) : cacheGroup observations p = cacheGroup observations o := by
  rw [cacheGroup, (mem_cacheGroup.mp h).2.2, cacheGroup]

/-- The groups are those of the accepted observations. -/
theorem mem_cacheGroups_iff {observations members : List (EpochObservation K)} :
    (∃ g ∈ cacheGroups observations, g.2 = members) ↔
      ∃ o ∈ observations, o.accepted = true ∧ members = cacheGroup observations o := by
  constructor
  · rintro ⟨g, hg, rfl⟩
    obtain ⟨hkey, hmembers⟩ := mem_groupBy.mp hg
    obtain ⟨o, ho, hk⟩ := List.mem_map.mp hkey
    obtain ⟨hin, haccepted⟩ := List.mem_filter.mp ho
    refine ⟨o, hin, haccepted, ?_⟩
    rw [hmembers, ← hk, cacheGroup]
  · rintro ⟨o, ho, haccepted, rfl⟩
    refine ⟨(o.cacheKey, cacheGroup observations o), mem_groupBy.mpr ⟨?_, rfl⟩, rfl⟩
    exact List.mem_map_of_mem (List.mem_filter.mpr ⟨ho, haccepted⟩)

variable [IsStrictOrderedRing K]

/-- The checks of one group, between any two of its members. -/
theorem groupOk_iff {members : List (EpochObservation K)} :
    GroupOk members ↔ (members.map EpochObservation.minerId).Nodup ∧
      (∀ p ∈ members, ∀ q ∈ members, p.evidenceDigest = q.evidenceDigest) ∧
      ∀ p ∈ members, ∀ q ∈ members, p.reward - q.reward ≤ 1 / 10 ^ 9 := by
  cases members with
  | nil =>
    constructor
    · exact fun h => ⟨h.miners, by simp, by simp⟩
    · exact fun h => ⟨h.1, by simp, by simp⟩
  | cons first rest =>
    have rewards : ∀ p ∈ first :: rest, p.reward ∈
        first.reward :: (first :: rest).map EpochObservation.reward := fun p hp =>
      List.mem_cons_of_mem _ (List.mem_map_of_mem hp)
    have inside : ∀ x ∈ first.reward :: (first :: rest).map EpochObservation.reward,
        ∃ p ∈ first :: rest, p.reward = x := by
      intro x hx
      rcases List.mem_cons.mp hx with rfl | hx
      · exact ⟨first, List.mem_cons_self, rfl⟩
      · exact List.mem_map.mp hx
    obtain ⟨hmax, upper⟩ := foldl_max_isGreatest first.reward
      ((first :: rest).map EpochObservation.reward)
    obtain ⟨hmin, lower⟩ := foldl_min_isLeast first.reward
      ((first :: rest).map EpochObservation.reward)
    constructor
    · intro h
      refine ⟨h.miners, ?_, ?_⟩
      · intro p hp q hq
        exact (h.evidence p hp first rfl).trans (h.evidence q hq first rfl).symm
      · intro p hp q hq
        have spread := h.spread first rfl
        exact (sub_le_sub (upper (rewards p hp)) (lower (rewards q hq))).trans spread
    · rintro ⟨miners, evidence, spread⟩
      refine ⟨miners, ?_, ?_⟩
      · intro m hm f hf
        exact evidence m hm f (List.mem_of_mem_head? hf)
      · intro f hf
        cases hf
        obtain ⟨p, hp, hpmax⟩ := inside _ hmax
        obtain ⟨q, hq, hqmin⟩ := inside _ hmin
        rw [← hpmax, ← hqmin]
        exact spread p hp q hq

/-- A group is refused exactly when two of its members conflict. -/
theorem not_groupOk_iff {observations : List (EpochObservation K)} :
    (∃ g ∈ cacheGroups observations, ¬ GroupOk g.2) ↔ ConflictingGroup observations := by
  have conflict : ∀ members : List (EpochObservation K), ¬ GroupOk members ↔
      ¬ (members.map EpochObservation.minerId).Nodup ∨
        (∃ p ∈ members, ∃ q ∈ members, p.evidenceDigest ≠ q.evidenceDigest) ∨
        ∃ p ∈ members, ∃ q ∈ members, 1 / 10 ^ 9 < p.reward - q.reward := by
    intro members
    simp only [groupOk_iff, not_and_or, not_forall, not_le, exists_prop, ne_eq]
  constructor
  · rintro ⟨g, hg, refused⟩
    obtain ⟨o, ho, haccepted, members⟩ := mem_cacheGroups_iff.mp ⟨g, hg, rfl⟩
    rw [members] at refused
    exact ⟨o, ho, haccepted, (conflict _).mp refused⟩
  · rintro ⟨o, ho, haccepted, refused⟩
    obtain ⟨g, hg, members⟩ := mem_cacheGroups_iff.mpr ⟨o, ho, haccepted, rfl⟩
    refine ⟨g, hg, ?_⟩
    rw [members]
    exact (conflict _).mpr refused

omit [IsStrictOrderedRing K] in
theorem not_metadataConsistent_iff {observations : List (EpochObservation K)} :
    ¬ MetadataConsistent observations ↔ ConflictingTask observations := by
  rw [MetadataConsistent, ConflictingTask]
  push Not
  exact Iff.rfl

theorem error_iff_conflict (observations : List (EpochObservation K)) :
    (∃ error, deduplicateTaskRewards observations = .error error) ↔
      ConflictingTask observations ∨ ConflictingGroup observations := by
  rw [← not_metadataConsistent_iff, ← not_groupOk_iff]
  constructor
  · rintro ⟨error, raised⟩
    by_contra fine
    push Not at fine
    rw [deduplicateTaskRewards_eq fine.1 fine.2] at raised
    cases raised
  · intro refused
    cases hout : deduplicateTaskRewards observations with
    | error error => exact ⟨error, rfl⟩
    | ok out =>
      obtain ⟨consistent, groups⟩ := of_deduplicateTaskRewards hout
      rcases refused with inconsistent | ⟨g, hg, bad⟩
      · exact absurd consistent inconsistent
      · exact absurd (groups g hg) bad

theorem sameIdentity_shared (observations : List (EpochObservation K)) (o : EpochObservation K) :
    SameIdentity o (shared observations o) := by
  unfold shared
  split_ifs
  · unfold shareWith
    cases cacheGroup observations o with
    | nil => exact ⟨rfl, rfl, rfl, rfl, rfl, rfl, rfl, rfl, rfl, rfl, rfl⟩
    | cons first rest => exact ⟨rfl, rfl, rfl, rfl, rfl, rfl, rfl, rfl, rfl, rfl, rfl⟩
  · exact ⟨rfl, rfl, rfl, rfl, rfl, rfl, rfl, rfl, rfl, rfl, rfl⟩

/-- Every member of a group gets an even part of the first reward. -/
theorem shared_of_mem_group {observations : List (EpochObservation K)} {o p first : EpochObservation K}
    {rest : List (EpochObservation K)} (members : cacheGroup observations o = first :: rest)
    (h : p ∈ cacheGroup observations o) :
    (shared observations p).reward = first.reward / ((first :: rest).length : K) ∧
      (shared observations p).duplicateGroupSize = (first :: rest).length := by
  rw [shared, if_pos (mem_cacheGroup.mp h).2.1, cacheGroup_congr h, members]
  exact ⟨rfl, rfl⟩

theorem groupConserved_shared {observations : List (EpochObservation K)} {o : EpochObservation K}
    (ho : o ∈ observations) (accepted : o.accepted = true) :
    GroupConserved (cacheGroup observations o) (shared observations) := by
  have own : o ∈ cacheGroup observations o := mem_cacheGroup.mpr ⟨ho, accepted, rfl⟩
  cases members : cacheGroup observations o with
  | nil =>
    rw [members] at own
    cases own
  | cons first rest =>
    have share : ∀ p ∈ first :: rest,
        (shared observations p).reward = first.reward / ((first :: rest).length : K) ∧
          (shared observations p).duplicateGroupSize = (first :: rest).length := fun p hp =>
      shared_of_mem_group members (members ▸ hp)
    have mass : ((first :: rest).map fun q => (shared observations q).reward).sum = first.reward := by
      have even : ((first :: rest).map fun q => (shared observations q).reward) =
          (first :: rest).map fun _ => first.reward / ((first :: rest).length : K) :=
        List.map_congr_left fun p hp => (share p hp).1
      have positive : ((first :: rest).length : K) ≠ 0 :=
        Nat.cast_ne_zero.mpr (Nat.succ_ne_zero rest.length)
      rw [even, List.map_const', List.sum_replicate, nsmul_eq_mul, mul_div_cancel₀ _ positive]
    refine ⟨?_, fun p hp => (share p hp).2, ⟨first, List.mem_cons_self, mass.ge⟩,
      ⟨first, List.mem_cons_self, mass.le⟩⟩
    intro p hp q hq
    rw [(share p hp).1, (share q hq).1]

theorem conserved_of_ok {observations out : List (EpochObservation K)}
    (h : deduplicateTaskRewards observations = .ok out) : Conserved observations out := by
  constructor
  · obtain ⟨consistent, groups⟩ := of_deduplicateTaskRewards h
    rw [deduplicateTaskRewards_eq consistent groups] at h
    cases h
    exact (sortBy_pairwise id observationKey _).imp fun hop => (before_iff_keyLe _ _).mpr hop
  · refine ⟨shared observations, deduplicateTaskRewards_perm h,
      fun o _ => sameIdentity_shared observations o, ?_,
      fun o ho accepted => groupConserved_shared ho accepted⟩
    intro o _ outside
    rw [shared, if_neg (by simp [outside])]

/-- Deduplication raises exactly on conflicting observations, and conserves the
mass of every group of the others. -/
theorem deduplicateTaskRewards_conserves (observations : List (EpochObservation K)) :
    ((∃ error, deduplicateTaskRewards observations = .error error) ↔
      ConflictingTask observations ∨ ConflictingGroup observations) ∧
    ∀ out, deduplicateTaskRewards observations = .ok out → Conserved observations out :=
  ⟨error_iff_conflict observations, fun _ h => conserved_of_ok h⟩

/-- Two copies of one strategy share its reward. -/
theorem deduplicateTaskRewards_conserves_copies :
    ((∃ error, deduplicateTaskRewards
        [Sample.observation (K := ℚ) 'b' 0 ['x'], Sample.observation 'a' 0 ['x']] = .error error) ↔
      ConflictingTask [Sample.observation (K := ℚ) 'b' 0 ['x'], Sample.observation 'a' 0 ['x']] ∨
        ConflictingGroup [Sample.observation (K := ℚ) 'b' 0 ['x'], Sample.observation 'a' 0 ['x']]) ∧
    ∀ out, deduplicateTaskRewards
        [Sample.observation (K := ℚ) 'b' 0 ['x'], Sample.observation 'a' 0 ['x']] = .ok out →
      Conserved [Sample.observation (K := ℚ) 'b' 0 ['x'], Sample.observation 'a' 0 ['x']] out :=
  deduplicateTaskRewards_conserves _

end RewardConservation
