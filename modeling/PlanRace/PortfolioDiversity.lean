import PlanRace.Allocation
import PlanRace.Library.Sha256

/-!
# Portfolio fingerprints and staggered absence

An aggregate's digests fingerprint the pairs of family and digest over the
tasks at which the miner was available. When two copies of one miner miss
different tasks, a pair seen at a missed task only tells them apart. The exact
condition under which this does not happen is proved below.
-/

namespace PortfolioDiversity

open JsonText ByteStrings Sha256 CanonicalJson Grouping Statistics ScoringV2 NetworkAggregation
  Allocation

section Fingerprint

variable {K : Type} [Field K] [LinearOrder K]

/-- The observations a miner's portfolio is taken from. -/
def availableOf (observations : List (EpochObservation K)) (minerId : Text) :
    List (EpochObservation K) :=
  (under EpochObservation.minerId observations minerId).filter EpochObservation.available

/-- Two miners submit the same where both are available. -/
def CopiesWhereBoth (observations : List (EpochObservation K)) (m n : Text) : Prop :=
  ∀ o ∈ availableOf observations m, ∀ p ∈ availableOf observations n, o.taskId = p.taskId →
    o.strategyDigest = p.strategyDigest ∧ o.behaviorDigest = p.behaviorDigest

/-- What `m` shows at a task that `n` misses, `n` shows at another task of that family. -/
def AbsenceCovered (observations : List (EpochObservation K)) (m n : Text) : Prop :=
  ∀ o ∈ availableOf observations m, (∀ p ∈ availableOf observations n, p.taskId ≠ o.taskId) →
    (∃ p ∈ availableOf observations n, p.family = o.family ∧ p.strategyDigest = o.strategyDigest) ∧
      ∃ p ∈ availableOf observations n, p.family = o.family ∧ p.behaviorDigest = o.behaviorDigest

/-- The input hashed for a miner's `strategy_digest`. -/
def strategyInput (observations : List (EpochObservation K)) (minerId : Text) : Bytes :=
  hashInput strategyPortfolioDomain (strategyPortfolioPayload (availableOf observations minerId))

/-- The input hashed for a miner's `behavior_digest`. -/
def behaviorInput (observations : List (EpochObservation K)) (minerId : Text) : Bytes :=
  hashInput behaviorPortfolioDomain (behaviorPortfolioPayload (availableOf observations minerId))

theorem portfolioPayload_same_iff (name : Text) (xs ys : List (Text × Text)) :
    (portfolioPayload name xs).Same (portfolioPayload name ys) ↔ xs = ys := by
  constructor
  · intro h
    have hvalues := values_of_same h rfl (of_decide_eq_true rfl)
    have hpairs : Function.Injective fun p : Text × Text => Json.arr [.str p.1, .str p.2] := by
      rintro ⟨a, b⟩ ⟨c, d⟩ he
      simpa using he
    simp only [List.map_cons, List.map_nil, normalize_arr, List.map_map, List.cons.injEq,
      Json.arr.injEq, and_true] at hvalues
    exact List.map_injective_iff.mpr hpairs hvalues
  · rintro rfl
    rfl

theorem mem_pairs {digest : EpochObservation K → Text} {xs : List (EpochObservation K)}
    {p : Text × Text} :
    p ∈ xs.map (fun o => (o.family, digest o)) ↔ ∃ o ∈ xs, o.family = p.1 ∧ digest o = p.2 := by
  obtain ⟨family, d⟩ := p
  simp

/-- Every pair of the one portfolio occurs in the other. -/
def PairsWithin (digest : EpochObservation K → Text) (xs ys : List (EpochObservation K)) : Prop :=
  ∀ o ∈ xs, ∃ p ∈ ys, p.family = o.family ∧ digest p = digest o

theorem portfolio_eq_iff_pairsWithin (digest : EpochObservation K → Text)
    (xs ys : List (EpochObservation K)) :
    portfolio digest xs = portfolio digest ys ↔
      PairsWithin digest xs ys ∧ PairsWithin digest ys xs := by
  rw [portfolio_eq_iff]
  constructor
  · intro h
    exact ⟨fun o ho => mem_pairs.mp ((h (o.family, digest o)).mp (List.mem_map_of_mem ho)),
      fun o ho => mem_pairs.mp ((h (o.family, digest o)).mpr (List.mem_map_of_mem ho))⟩
  · rintro ⟨hxy, hyx⟩ p
    have within : ∀ {us vs : List (EpochObservation K)}, PairsWithin digest us vs →
        p ∈ us.map (fun o => (o.family, digest o)) → p ∈ vs.map fun o => (o.family, digest o) := by
      intro us vs h hp
      obtain ⟨o, ho, hfamily, hdigest⟩ := mem_pairs.mp hp
      obtain ⟨q, hq, hqfamily, hqdigest⟩ := h o ho
      exact mem_pairs.mpr ⟨q, hq, hqfamily.trans hfamily, hqdigest.trans hdigest⟩
    exact ⟨within hxy, within hyx⟩

theorem digest_eq_iff_portfolio (domain : Domain) (name : Text)
    (digest : EpochObservation K → Text) (xs ys : List (EpochObservation K))
    (free : CollisionFreeOn [hashInput domain (portfolioPayload name (portfolio digest xs)),
      hashInput domain (portfolioPayload name (portfolio digest ys))]) :
    domainSeparatedDigest domain (portfolioPayload name (portfolio digest xs)) =
        domainSeparatedDigest domain (portfolioPayload name (portfolio digest ys)) ↔
      PairsWithin digest xs ys ∧ PairsWithin digest ys xs := by
  rw [← portfolio_eq_iff_pairsWithin, ← portfolioPayload_same_iff name]
  constructor
  · intro he
    exact (binding_of_collisionFreeOn free (by simp) (by simp) he).2
  · exact domainSeparatedDigest_congr domain

end Fingerprint

section Network

variable {K : Type} [Field K] [LinearOrder K] [IsStrictOrderedRing K]

/-- Deduplication does not touch what a portfolio reads. -/
theorem pairs_shared (observations members : List (EpochObservation K))
    (digest : EpochObservation K → Text)
    (kept : ∀ o, digest (shared observations o) = digest o) :
    portfolio digest ((members.map (shared observations)).filter EpochObservation.available) =
      portfolio digest (members.filter EpochObservation.available) := by
  refine (portfolio_eq_iff digest _ _).mpr fun p => ?_
  have available : EpochObservation.available ∘ shared observations =
      EpochObservation.available :=
    funext fun o => (shared_frame observations o).2.2.2.1
  have family : ∀ o, (shared observations o).family = o.family :=
    fun o => congrArg (fun fields => fields.2.1) (shared_frame observations o).2.1
  rw [List.filter_map, available, List.map_map]
  simp [Function.comp_def, kept, family]

omit [IsStrictOrderedRing K] in
/-- Copies differ only where one of them is absent. -/
theorem pairsWithin_iff_covered {observations : List (EpochObservation K)}
    {policy : AggregationPolicy K} (onSchedule : ∀ o ∈ observations, OnSchedule policy o)
    {m n : Text} (copies : CopiesWhereBoth observations m n) :
    (PairsWithin EpochObservation.strategyDigest (availableOf observations m)
        (availableOf observations n) ∧
      PairsWithin EpochObservation.behaviorDigest (availableOf observations m)
        (availableOf observations n)) ↔ AbsenceCovered observations m n := by
  constructor
  · rintro ⟨hstrategy, hbehavior⟩ o ho _
    exact ⟨hstrategy o ho, hbehavior o ho⟩
  · intro h
    have both : ∀ o ∈ availableOf observations m,
        (∃ p ∈ availableOf observations n, p.family = o.family ∧
          p.strategyDigest = o.strategyDigest) ∧
        ∃ p ∈ availableOf observations n, p.family = o.family ∧
          p.behaviorDigest = o.behaviorDigest := by
      intro o ho
      by_cases missing : ∀ p ∈ availableOf observations n, p.taskId ≠ o.taskId
      · exact h o ho missing
      · push Not at missing
        obtain ⟨p, hp, hid⟩ := missing
        have submitted : ∀ {q k}, q ∈ availableOf observations k → q ∈ observations :=
          fun hq => (mem_under.mp (List.mem_filter.mp hq).1).1
        have hmeta := metadataConsistent_of_onSchedule onSchedule p (submitted hp) o
          (submitted ho) hid
        have hfamily : p.family = o.family := congrArg (fun fields => fields.2.1) hmeta
        obtain ⟨hstrategy, hbehavior⟩ := copies o ho p hp hid.symm
        exact ⟨⟨p, hp, hfamily, hstrategy.symm⟩, ⟨p, hp, hfamily, hbehavior.symm⟩⟩
    exact ⟨fun o ho => (both o ho).1, fun o ho => (both o ho).2⟩

/-- Either portfolio digest reads the observations as they were submitted. -/
theorem portfolioDigest_shared (domain : Domain) (name : Text) {digest : EpochObservation K → Text}
    {observations : List (EpochObservation K)}
    (kept : ∀ o, digest (shared observations o) = digest o) (m : Text) :
    domainSeparatedDigest domain (portfolioPayload name (portfolio digest
        (((under EpochObservation.minerId observations m).map (shared observations)).filter
          EpochObservation.available))) =
      domainSeparatedDigest domain (portfolioPayload name (portfolio digest
        (availableOf observations m))) := by
  rw [pairs_shared observations _ _ kept]
  rfl

variable [FloorSemiring K] [RealFunctions K]

theorem memberAggregate_strategyDigest (observations : List (EpochObservation K))
    (policy : AggregationPolicy K) (m : Text) :
    (memberAggregate observations policy m).strategyDigest =
      domainSeparatedDigest strategyPortfolioDomain
        (strategyPortfolioPayload (availableOf observations m)) :=
  portfolioDigest_shared _ _ (fun o => (shared_frame observations o).2.2.2.2.2.2.1) m

theorem memberAggregate_behaviorDigest (observations : List (EpochObservation K))
    (policy : AggregationPolicy K) (m : Text) :
    (memberAggregate observations policy m).behaviorDigest =
      domainSeparatedDigest behaviorPortfolioDomain
        (behaviorPortfolioPayload (availableOf observations m)) :=
  portfolioDigest_shared _ _ (fun o => (shared_frame observations o).2.2.2.2.2.2.2) m

/-- One strategy digest, one behavior digest and one behavior group. -/
structure SamePortfolio (aggregates : List (MinerAggregate K)) (a b : MinerAggregate K) : Prop where
  strategy : a.strategyDigest = b.strategyDigest
  behavior : a.behaviorDigest = b.behaviorDigest
  grouped : ∀ g ∈ behaviorGroups aggregates, a ∈ g.2 ↔ b ∈ g.2

omit [IsStrictOrderedRing K] [FloorSemiring K] [RealFunctions K] in
theorem samePortfolio_iff {aggregates : List (MinerAggregate K)} {a b : MinerAggregate K}
    (ha : a ∈ recipients aggregates) (hb : b ∈ recipients aggregates) :
    SamePortfolio aggregates a b ↔
      a.strategyDigest = b.strategyDigest ∧ a.behaviorDigest = b.behaviorDigest := by
  constructor
  · exact fun h => ⟨h.strategy, h.behavior⟩
  · rintro ⟨hstrategy, hbehavior⟩
    refine ⟨hstrategy, hbehavior, fun g hg => ?_⟩
    rw [(mem_behaviorGroups hg).2, (mem_behaviorGroups hg).2, hbehavior]
    exact and_congr_left fun _ => iff_of_true ha hb

/-- Identical copies that come out eligible are one portfolio exactly when no
absence uncovers a pair of its own. -/
theorem copies_samePortfolio_iff {observations : List (EpochObservation K)}
    {minerIds : List Text} {policy : AggregationPolicy K} {aggregates : List (MinerAggregate K)}
    (accepted : aggregateNetwork observations minerIds policy = .ok aggregates)
    {a b : MinerAggregate K} (ha : a ∈ aggregates) (hb : b ∈ aggregates)
    (eligible : a.eligible = true ∧ b.eligible = true)
    (copies : CopiesWhereBoth observations a.minerId b.minerId)
    (freeStrategy : CollisionFreeOn
      [strategyInput observations a.minerId, strategyInput observations b.minerId])
    (freeBehavior : CollisionFreeOn
      [behaviorInput observations a.minerId, behaviorInput observations b.minerId]) :
    SamePortfolio aggregates a b ↔
      AbsenceCovered observations a.minerId b.minerId ∧
        AbsenceCovered observations b.minerId a.minerId := by
  obtain ⟨ok, rfl⟩ := aggregateNetwork_ok_iff.mp accepted
  obtain ⟨m, -, rfl⟩ := List.mem_map.mp ha
  obtain ⟨n, -, rfl⟩ := List.mem_map.mp hb
  rw [samePortfolio_iff
    (mem_recipients.mpr ⟨ha, eligible.1, aggregateOf_reward_pos eligible.1⟩)
    (mem_recipients.mpr ⟨hb, eligible.2, aggregateOf_reward_pos eligible.2⟩)]
  change CopiesWhereBoth observations m n at copies
  have mirrored : CopiesWhereBoth observations n m := fun o ho p hp he =>
    (copies p hp o ho he.symm).imp Eq.symm Eq.symm
  rw [memberAggregate_strategyDigest, memberAggregate_strategyDigest,
    memberAggregate_behaviorDigest, memberAggregate_behaviorDigest]
  have strategies := digest_eq_iff_portfolio strategyPortfolioDomain "family_strategies".toList
    EpochObservation.strategyDigest (availableOf observations m) (availableOf observations n)
    freeStrategy
  have behaviors := digest_eq_iff_portfolio behaviorPortfolioDomain "family_behaviors".toList
    EpochObservation.behaviorDigest (availableOf observations m) (availableOf observations n)
    freeBehavior
  have coveredBy := pairsWithin_iff_covered ok.onSchedule copies
  have covers := pairsWithin_iff_covered ok.onSchedule mirrored
  change _ ↔ AbsenceCovered observations m n ∧ AbsenceCovered observations n m
  rw [← coveredBy, ← covers]
  exact (and_congr strategies behaviors).trans and_and_and_comm

end Network

/-! ## Two copies that miss different tasks -/

noncomputable section Staggered

/-- Every family scores its mean reward, and one distinct strategy is enough. -/
def policy : AggregationPolicy ℝ := Sample.policy 1 ⟨one_pos, le_refl 1⟩

/-- All miners present at a task submit the strategy of that task. -/
def observation (minerId : Char) (epoch : Nat) : EpochObservation ℝ :=
  Sample.observation minerId epoch [Char.ofNat (48 + epoch)]

/-- `a` misses the last task and `b` the one before. -/
def observations : List (EpochObservation ℝ) :=
  [observation 'a' 0, observation 'a' 1, observation 'b' 0, observation 'b' 2]

theorem cacheGroups_observations : cacheGroups observations =
    [((['c', '0'], ['s', '0']), [observation 'a' 0, observation 'b' 0]),
      ((['c', '1'], ['s', '1']), [observation 'a' 1]),
      ((['c', '2'], ['s', '2']), [observation 'b' 2])] := by
  rfl

theorem networkOk : NetworkOk observations [['a'], ['b']] policy where
  rosterNonempty := by simp
  rosterUnique := by decide
  inRoster := by simp [observations, observation, Sample.observation]
  onSchedule := by
    have scheduled : ∀ m epoch, epoch ∈ [0, 1, 2] → OnSchedule policy (observation m epoch) :=
      fun m epoch h => ⟨Sample.scheduledTask epoch, List.mem_map_of_mem h, rfl, rfl⟩
    intro o ho
    simp only [observations, List.mem_cons, List.not_mem_nil, or_false] at ho
    rcases ho with rfl | rfl | rfl | rfl <;> exact scheduled _ _ (by decide)
  oncePerTask := by
    intro m hm
    rcases List.mem_pair.mp hm with rfl | rfl <;> decide
  groups := by
    intro g hg
    rw [cacheGroups_observations] at hg
    simp only [List.mem_cons, List.not_mem_nil, or_false] at hg
    rcases hg with rfl | rfl | rfl <;>
      exact ⟨by decide, by simp [observation, Sample.observation],
        by norm_num [observation, Sample.observation]⟩

theorem familyRewards_a : familyRewards policy ((under EpochObservation.minerId observations ['a']).map
    (shared observations)) ['f'] =
      [(10 : ℝ) / (2 : ℕ), (10 : ℝ) / (1 : ℕ), 0] := by
  rfl

theorem familyRewards_b : familyRewards policy ((under EpochObservation.minerId observations ['b']).map
    (shared observations)) ['f'] =
      [(10 : ℝ) / (2 : ℕ), 0, (10 : ℝ) / (1 : ℕ)] := by
  rfl

theorem copies : CopiesWhereBoth observations ['a'] ['b'] := by
  have availableA : availableOf observations ['a'] = [observation 'a' 0, observation 'a' 1] := rfl
  have availableB : availableOf observations ['b'] = [observation 'b' 0, observation 'b' 2] := rfl
  rw [CopiesWhereBoth, availableA, availableB]
  decide
theorem rate_eq_one {xs : List (EpochObservation ℝ)} {holds : EpochObservation ℝ → Bool}
    (some : xs ≠ []) (all : ∀ o ∈ xs, holds o = true) : rate xs holds = 1 := by
  have ones : (xs.map fun o => if holds o = true then (1 : ℝ) else 0) = xs.map fun _ => 1 :=
    List.map_congr_left fun o ho => by simp [all o ho]
  rw [rate, if_neg some, ones, fmean]
  have hlength : (xs.length : ℝ) ≠ 0 := by simpa using some
  simp [hlength]

/-- With these gates a positive mean reward is enough. -/
theorem eligible_of_positive {m : Text} {xs : List (EpochObservation ℝ)} (some : xs ≠ [])
    (good : ∀ o ∈ xs, o.accepted = true ∧ o.family = ['f'])
    (positive : 0 < fmean (familyRewards policy xs ['f'])) :
    (aggregateOf m xs policy).eligible = true := by
  have flags : ∀ o ∈ xs, o.available = true ∧ o.compliant = true ∧ o.correct = true := by
    intro o ho
    have h := (good o ho).1
    simp only [EpochObservation.accepted, Bool.and_eq_true] at h
    exact ⟨h.1.1, h.1.2, h.2⟩
  have available : xs.filter EpochObservation.available = xs :=
    List.filter_eq_self.mpr fun o ho => (flags o ho).1
  have hlength : (0 : ℝ) < xs.length := by
    exact_mod_cast List.length_pos_iff.mpr some
  have scores : policy.requiredFamilies.map (familyScoreValue policy xs) =
      [max 0 (fmean (familyRewards policy xs ['f']))] := by
    rw [policy, ← Sample.familyScoreValue_policy]
    rfl
  have availability : (aggregateOf m xs policy).availability = xs.length / (3 : ℕ) := by
    change ((xs.filter EpochObservation.available).length : ℝ) / _ = _
    rw [available]
    rfl
  have compliance : (aggregateOf m xs policy).compliance = 1 := by
    change rate (xs.filter EpochObservation.available) EpochObservation.compliant = 1
    rw [available, rate_eq_one some fun o ho => (flags o ho).2.1]
  have correctness : (aggregateOf m xs policy).correctness = 1 := by
    change rate (xs.filter EpochObservation.available) EpochObservation.correct = 1
    rw [available, rate_eq_one some fun o ho => (flags o ho).2.2]
  have center : 0 < (aggregateOf m xs policy).center := by
    change 0 < geometricCenter ((policy.requiredFamilies.map fun family =>
      (family, familyScoreValue policy xs family)).map Prod.snd)
    have hpos : ∀ s ∈ [max 0 (fmean (familyRewards policy xs ['f']))], 0 < s := by
      simpa using positive
    simp only [List.map_map, Function.comp_def, scores, geometricCenter, if_pos hpos]
    exact Real.exp_pos _
  have uncertainty : (aggregateOf m xs policy).uncertainty = 0 := zero_mul _
  rw [aggregateOf_eligible_iff, available, scores, availability, compliance, correctness, uncertainty,
    sub_zero, mul_one]
  have families : (xs.map EpochObservation.family).count ['f'] = xs.length := by
    rw [← List.length_map (f := EpochObservation.family)]
    exact List.count_eq_length.mpr fun family h => by
      obtain ⟨o, ho, rfl⟩ := List.mem_map.mp h
      exact ((good o ho).2).symm
  have reward : 0 < max 0 (aggregateOf m xs policy).center * (xs.length / (3 : ℕ)) :=
    mul_pos (lt_max_of_lt_right center) (by positivity)
  have one : (1 : ℤ) ≤ xs.length := by exact_mod_cast List.length_pos_iff.mpr some
  intro gate hgate
  simp only [failureGates, List.mem_cons, List.not_mem_nil, or_false] at hgate
  rcases hgate with rfl | rfl | rfl | rfl | rfl | rfl | rfl
  · exact decide_eq_false (not_lt.mpr one)
  · have all : policy.requiredFamilies = [['f']] := rfl
    rw [all, List.any_cons, List.any_nil, families, Bool.or_false]
    exact decide_eq_false (not_lt.mpr one)
  · exact decide_eq_false (not_lt.mpr (by positivity))
  · exact decide_eq_false (not_lt.mpr zero_le_one)
  · exact decide_eq_false (not_lt.mpr zero_le_one)
  · simpa using positive
  · simpa using reward

/-- Everything submitted in the run is accepted. -/
theorem good_shared (m : Text) : ∀ o ∈ (under EpochObservation.minerId observations m).map
    (shared observations), o.accepted = true ∧ o.family = ['f'] := by
  intro o ho
  obtain ⟨p, hp, rfl⟩ := List.mem_map.mp ho
  obtain ⟨-, hmeta, -, havailable, hcorrect, hcompliant, -⟩ := shared_frame observations p
  have hfamily : (shared observations p).family = p.family :=
    congrArg (fun fields => fields.2.1) hmeta
  rw [EpochObservation.accepted, havailable, hcorrect, hcompliant, hfamily]
  have hin := (mem_under.mp hp).1
  simp only [observations, List.mem_cons, List.not_mem_nil, or_false] at hin
  rcases hin with rfl | rfl | rfl | rfl <;> exact ⟨rfl, rfl⟩

theorem eligible_a : (memberAggregate observations policy ['a']).eligible = true := by
  refine eligible_of_positive (by decide) (good_shared ['a']) ?_
  rw [familyRewards_a]
  norm_num [fmean]

theorem eligible_b : (memberAggregate observations policy ['b']).eligible = true := by
  refine eligible_of_positive (by decide) (good_shared ['b']) ?_
  rw [familyRewards_b]
  norm_num [fmean]

/-- The payload of a portfolio of two strategies of the family. -/
def twoStrategies (name : Text) (kind first second : Char) : Json :=
  portfolioPayload name [(['f'], [kind, first]), (['f'], [kind, second])]

theorem strategyInputs : strategyInput observations ['a'] =
      hashInput strategyPortfolioDomain (twoStrategies "family_strategies".toList 's' '0' '1') ∧
    strategyInput observations ['b'] =
      hashInput strategyPortfolioDomain (twoStrategies "family_strategies".toList 's' '0' '2') :=
  ⟨rfl, rfl⟩

theorem behaviorInputs : behaviorInput observations ['a'] =
      hashInput behaviorPortfolioDomain (twoStrategies "family_behaviors".toList 'b' '0' '1') ∧
    behaviorInput observations ['b'] =
      hashInput behaviorPortfolioDomain (twoStrategies "family_behaviors".toList 'b' '0' '2') :=
  ⟨rfl, rfl⟩

theorem strategyHashes_ne :
    sha256 (strategyInput observations ['a']) ≠ sha256 (strategyInput observations ['b']) := by
  rw [strategyInputs.1, strategyInputs.2]
  decide +kernel

theorem behaviorHashes_ne :
    sha256 (behaviorInput observations ['a']) ≠ sha256 (behaviorInput observations ['b']) := by
  rw [behaviorInputs.1, behaviorInputs.2]
  decide +kernel

/-- The copies are eligible, and still they are two portfolios. -/
theorem staggered_copies_split :
    ∃ a b : MinerAggregate ℝ,
      aggregateNetwork observations [['a'], ['b']] policy = .ok [a, b] ∧
      CopiesWhereBoth observations a.minerId b.minerId ∧
      a.eligible = true ∧ b.eligible = true ∧
      a.strategyDigest ≠ b.strategyDigest ∧ a.behaviorDigest ≠ b.behaviorDigest := by
  refine ⟨memberAggregate observations policy ['a'], memberAggregate observations policy ['b'],
    aggregateNetwork_ok_iff.mpr ⟨networkOk, rfl⟩, copies, eligible_a, eligible_b, ?_, ?_⟩
  · rw [memberAggregate_strategyDigest, memberAggregate_strategyDigest]
    exact fun h => strategyHashes_ne ((digestText_eq_iff _ _).mp h)
  · rw [memberAggregate_behaviorDigest, memberAggregate_behaviorDigest]
    exact fun h => behaviorHashes_ne ((digestText_eq_iff _ _).mp h)

theorem staggered_samePortfolio_iff :
    SamePortfolio [memberAggregate observations policy ['a'], memberAggregate observations policy ['b']]
        (memberAggregate observations policy ['a']) (memberAggregate observations policy ['b']) ↔
      AbsenceCovered observations ['a'] ['b'] ∧ AbsenceCovered observations ['b'] ['a'] := by
  have freeStrategy : CollisionFreeOn [strategyInput observations ['a'], strategyInput observations ['b']] :=
    collisionFreeOn_of_nodup (by simpa using strategyHashes_ne)
  have freeBehavior : CollisionFreeOn [behaviorInput observations ['a'], behaviorInput observations ['b']] :=
    collisionFreeOn_of_nodup (by simpa using behaviorHashes_ne)
  exact copies_samePortfolio_iff (aggregateNetwork_ok_iff.mpr ⟨networkOk, rfl⟩)
    List.mem_cons_self (List.mem_cons_of_mem _ List.mem_cons_self) ⟨eligible_a, eligible_b⟩ copies
    freeStrategy freeBehavior

end Staggered

end PortfolioDiversity
