import PlanRace.NetworkAggregation

/-!
# Missing and unavailable are the same

An aggregate depends on the accepted observations of a miner and, of the other
available ones, on everything but their rewards. So an unavailable observation
can be left out, and the reward of a gated one can be any reward.
-/

namespace SilentObservations

open JsonText LexOrder CanonicalJson Grouping Statistics ScoringV2 NetworkAggregation Fallible

variable {K : Type} [Field K] [LinearOrder K]

/-- What the gates and the fingerprints read of an available observation. -/
def view (o : EpochObservation K) : Bool × Bool × Text × Text × Text :=
  (o.compliant, o.correct, o.family, o.strategyDigest, o.behaviorDigest)

/-- The observation with another reward. -/
def withReward (o : EpochObservation K) (reward : K) (bounds : 0 ≤ reward ∧ reward ≤ 100) :
    EpochObservation K :=
  { o with reward := reward, rewardBounds := bounds }

/-- Only the reward differs, and not that of an accepted observation. -/
def Replaced (o p : EpochObservation K) : Prop :=
  ∃ reward, ∃ bounds : 0 ≤ reward ∧ reward ≤ 100,
    p = withReward o reward bounds ∧ (o.accepted = true → reward = o.reward)

section Aggregate

theorem available_of_accepted {o : EpochObservation K} (h : o.accepted = true) :
    o.available = true := by
  simp only [EpochObservation.accepted, Bool.and_eq_true] at h
  exact h.1.1

/-- With one observation for a task, its gated reward is that of the accepted
observation, if there is one. -/
theorem gatedReward_eq {observations : List (EpochObservation K)}
    (distinct : (observations.map EpochObservation.taskId).Nodup) (t : ScheduledTask) :
    gatedReward observations t =
      (((observations.filter EpochObservation.accepted).find? fun o => o.taskId = t.taskId).map
        EpochObservation.reward).getD 0 := by
  induction observations with
  | nil => rfl
  | cons o rest ih =>
    obtain ⟨fresh, distinct⟩ := List.nodup_cons.mp distinct
    have tail := ih distinct
    by_cases own : o.taskId = t.taskId
    · have found : gatedReward (o :: rest) t = if o.accepted then o.reward else 0 := by
        simp [gatedReward, own]
      have others : (rest.filter EpochObservation.accepted).find?
          (fun p => p.taskId = t.taskId) = none := by
        rw [List.find?_eq_none]
        intro p hp hid
        apply fresh
        rw [own, ← of_decide_eq_true hid]
        exact List.mem_map_of_mem (List.mem_filter.mp hp).1
      rw [found]
      by_cases accepted : o.accepted = true
      · simp [accepted, own]
      · simp [accepted, others]
    · have skipped : gatedReward (o :: rest) t = gatedReward rest t := by
        simp [gatedReward, own]
      rw [skipped, tail]
      by_cases accepted : o.accepted = true
      · simp [accepted, own]
      · simp [accepted]

theorem familyRewards_congr {xs ys : List (EpochObservation K)} (policy : AggregationPolicy K)
    (hxs : (xs.map EpochObservation.taskId).Nodup) (hys : (ys.map EpochObservation.taskId).Nodup)
    (accepted : xs.filter EpochObservation.accepted = ys.filter EpochObservation.accepted)
    (family : Text) : familyRewards policy xs family = familyRewards policy ys family := by
  apply List.map_congr_left
  intro t _
  rw [gatedReward_eq hxs, gatedReward_eq hys, accepted]

theorem rate_congr {xs ys : List (EpochObservation K)} {holds : EpochObservation K → Bool}
    (h : xs.map holds = ys.map holds) : rate (K := K) xs holds = rate ys holds := by
  have hlength : xs.length = ys.length := by
    have hmap := congrArg List.length h
    rwa [List.length_map, List.length_map] at hmap
  have hnil : xs = [] ↔ ys = [] := by
    rw [← List.length_eq_zero_iff, ← List.length_eq_zero_iff, hlength]
  have values : ∀ zs : List (EpochObservation K),
      zs.map (fun o => if holds o then (1 : K) else 0) =
        (zs.map holds).map fun b => if b then 1 else 0 := by
    intro zs
    rw [List.map_map]
    rfl
  simp only [rate, hnil, values, h]

variable [FloorSemiring K] [RealFunctions K]

/-- An aggregate is a function of the accepted observations and of what the
gates read of the available ones. -/
theorem aggregateOf_congr (minerId : Text) {xs ys : List (EpochObservation K)}
    (policy : AggregationPolicy K) (hxs : (xs.map EpochObservation.taskId).Nodup)
    (hys : (ys.map EpochObservation.taskId).Nodup)
    (accepted : xs.filter EpochObservation.accepted = ys.filter EpochObservation.accepted)
    (views : (xs.filter EpochObservation.available).map view =
      (ys.filter EpochObservation.available).map view) :
    aggregateOf minerId xs policy = aggregateOf minerId ys policy := by
  have read : ∀ {β : Type} (f : Bool × Bool × Text × Text × Text → β),
      (xs.filter EpochObservation.available).map (fun o => f (view o)) =
        (ys.filter EpochObservation.available).map fun o => f (view o) := by
    intro β f
    have hmap := congrArg (List.map f) views
    rwa [List.map_map, List.map_map] at hmap
  have scores : familyScoreValue policy xs = familyScoreValue policy ys := by
    funext family
    rw [familyScoreValue, familyScoreValue, familyRewards_congr policy hxs hys accepted]
  have count : (xs.filter EpochObservation.available).length =
      (ys.filter EpochObservation.available).length := by
    have hlength := congrArg List.length views
    rwa [List.length_map, List.length_map] at hlength
  have compliance := rate_congr (K := K) (read fun v => v.1)
  have correctness := rate_congr (K := K) (read fun v => v.2.1)
  have families := read fun v => v.2.2.1
  have strategies := read fun v => (v.2.2.1, v.2.2.2.1)
  have behaviors := read fun v => (v.2.2.1, v.2.2.2.2)
  simp only [view] at compliance correctness families strategies behaviors
  have gates : failureGates policy (xs.filter EpochObservation.available) =
      failureGates policy (ys.filter EpochObservation.available) := by
    funext availability compliance correctness reward scores
    simp only [failureGates, count, families]
  simp only [aggregateOf, aggregateFrom, scores, gates, count, compliance, correctness,
    strategyPortfolioPayload, behaviorPortfolioPayload, portfolio, strategies, behaviors]

end Aggregate

section Observations

theorem filter_under (p : EpochObservation K → Bool) (observations : List (EpochObservation K))
    (m : Text) : (under EpochObservation.minerId observations m).filter p =
      under EpochObservation.minerId (observations.filter p) m :=
  List.filter_comm ..

theorem filter_accepted_of_available {xs ys : List (EpochObservation K)}
    (h : xs.filter EpochObservation.available = ys.filter EpochObservation.available) :
    xs.filter EpochObservation.accepted = ys.filter EpochObservation.accepted := by
  have within : ∀ zs : List (EpochObservation K), zs.filter EpochObservation.accepted =
      (zs.filter EpochObservation.available).filter EpochObservation.accepted := by
    intro zs
    rw [List.filter_filter]
    apply List.filter_congr
    intro o _
    cases ha : o.accepted with
    | false => rfl
    | true => rw [available_of_accepted ha, Bool.and_self]
  rw [within xs, within ys, h]

theorem accepted_of_replaced {o p : EpochObservation K} (h : Replaced o p) :
    o.accepted = p.accepted ∧ (o.accepted = true → o = p) := by
  obtain ⟨reward, bounds, rfl, same⟩ := h
  refine ⟨rfl, ?_⟩
  intro accepted
  have hreward := same accepted
  subst hreward
  rfl

theorem filter_accepted_of_replaced {xs ys : List (EpochObservation K)}
    (h : List.Forall₂ Replaced xs ys) :
    xs.filter EpochObservation.accepted = ys.filter EpochObservation.accepted := by
  induction h with
  | nil => rfl
  | @cons o p xs ys hop _ ih =>
    obtain ⟨same, equal⟩ := accepted_of_replaced hop
    by_cases accepted : o.accepted = true
    · rw [List.filter_cons_of_pos accepted, ← equal accepted, List.filter_cons_of_pos accepted, ih]
    · rw [List.filter_cons_of_neg accepted, List.filter_cons_of_neg (same ▸ accepted), ih]

theorem exists_replaced {xs ys : List (EpochObservation K)} (h : List.Forall₂ Replaced xs ys)
    {p : EpochObservation K} (hp : p ∈ ys) : ∃ o ∈ xs, Replaced o p := by
  induction h with
  | nil => cases hp
  | cons hop _ ih =>
    rcases List.mem_cons.mp hp with rfl | hp
    · exact ⟨_, List.mem_cons_self, hop⟩
    · obtain ⟨o, ho, hreplaced⟩ := ih hp
      exact ⟨o, List.mem_cons_of_mem _ ho, hreplaced⟩

/-- What is read of replaced observations without their rewards. -/
theorem map_under_of_replaced {β : Type} (p : EpochObservation K → Bool)
    (f : EpochObservation K → β)
    (blind : ∀ o reward bounds, p (withReward o reward bounds) = p o ∧
      f (withReward o reward bounds) = f o)
    {xs ys : List (EpochObservation K)} (h : List.Forall₂ Replaced xs ys) (m : Text) :
    (under EpochObservation.minerId (xs.filter p) m).map f =
      (under EpochObservation.minerId (ys.filter p) m).map f := by
  induction h with
  | nil => rfl
  | @cons o _ xs ys hop _ ih =>
    obtain ⟨reward, bounds, rfl, -⟩ := hop
    obtain ⟨hp, hf⟩ := blind o reward bounds
    have miner : (withReward o reward bounds).minerId = o.minerId := rfl
    by_cases picked : p o = true
    · rw [List.filter_cons_of_pos picked, List.filter_cons_of_pos (hp.trans picked)]
      by_cases own : o.minerId = m
      · simp only [under, List.filter_cons, miner, own, decide_true, if_true, List.map_cons, hf]
        exact congrArg _ ih
      · simp only [under, List.filter_cons, miner, own, decide_false]
        exact ih
    · rw [List.filter_cons_of_neg picked, List.filter_cons_of_neg (hp ▸ picked)]
      exact ih

end Observations

section Network

variable [IsStrictOrderedRing K]

theorem shared_congr {xs ys : List (EpochObservation K)}
    (accepted : xs.filter EpochObservation.accepted = ys.filter EpochObservation.accepted) :
    shared xs = shared ys := by
  funext o
  rw [shared, shared, cacheGroup, cacheGroup, accepted]

theorem accepted_shared (observations : List (EpochObservation K)) (o : EpochObservation K) :
    (shared observations o).accepted = o.accepted := by
  obtain ⟨-, -, -, available, correct, compliant, -, -⟩ := shared_frame observations o
  rw [EpochObservation.accepted, EpochObservation.accepted, available, correct, compliant]

theorem view_shared (observations : List (EpochObservation K)) (o : EpochObservation K) :
    view (shared observations o) = view o := by
  obtain ⟨-, hmeta, -, -, correct, compliant, strategy, behavior⟩ := shared_frame observations o
  have family : (shared observations o).family = o.family := congrArg (fun m => m.2.1) hmeta
  rw [view, view, correct, compliant, strategy, behavior, family]

theorem available_shared (observations : List (EpochObservation K)) (o : EpochObservation K) :
    (shared observations o).available = o.available :=
  (shared_frame observations o).2.2.2.1

variable [FloorSemiring K] [RealFunctions K]

/-- A network is aggregated alike from observations with the same accepted ones
and the same views of the available ones. -/
theorem aggregateNetwork_congr {xs ys : List (EpochObservation K)} {minerIds : List Text}
    {policy : AggregationPolicy K} {aggregates : List (MinerAggregate K)}
    (accepted : xs.filter EpochObservation.accepted = ys.filter EpochObservation.accepted)
    (views : ∀ m, (under EpochObservation.minerId (xs.filter EpochObservation.available) m).map view =
      (under EpochObservation.minerId (ys.filter EpochObservation.available) m).map view)
    (roster : ∀ o ∈ ys, o.minerId ∈ minerIds) (onSchedule : ∀ o ∈ ys, OnSchedule policy o)
    (once : ∀ m ∈ minerIds, ((under EpochObservation.minerId ys m).map EpochObservation.taskId).Nodup)
    (h : aggregateNetwork xs minerIds policy = .ok aggregates) :
    aggregateNetwork ys minerIds policy = .ok aggregates := by
  obtain ⟨ok, rfl⟩ := aggregateNetwork_ok_iff.mp h
  refine aggregateNetwork_ok_iff.mpr
    ⟨⟨ok.rosterNonempty, ok.rosterUnique, roster, onSchedule, once, ?_⟩, ?_⟩
  · rw [cacheGroups, ← accepted]
    exact ok.groups
  · apply List.map_congr_left
    intro m hm
    -- deduplication commutes with picking one miner's accepted or available observations
    have picked : ∀ (zs : List (EpochObservation K)) (p : EpochObservation K → Bool),
        (∀ o, p (shared zs o) = p o) →
        ((under EpochObservation.minerId zs m).map (shared zs)).filter p =
          (under EpochObservation.minerId (zs.filter p) m).map (shared zs) := by
      intro zs p hp
      rw [List.filter_map, ← filter_under]
      congr 1
      exact List.filter_congr fun o _ => hp o
    apply aggregateOf_congr
    · rw [map_taskId_shared]
      exact ok.oncePerTask m hm
    · rw [map_taskId_shared]
      exact once m hm
    · rw [picked xs _ (accepted_shared xs), picked ys _ (accepted_shared ys), accepted,
        shared_congr accepted]
    · rw [picked xs _ (available_shared xs), picked ys _ (available_shared ys), List.map_map,
        List.map_map]
      have viewed : ∀ zs : List (EpochObservation K), view ∘ shared zs = view := fun zs =>
        funext (view_shared zs)
      rw [viewed, viewed]
      exact views m

/-- Neither leaving out unavailable observations nor replacing the rewards of
gated ones changes any aggregate. -/
theorem aggregateNetwork_silent {observations : List (EpochObservation K)} {minerIds : List Text}
    {policy : AggregationPolicy K} {aggregates : List (MinerAggregate K)}
    (h : aggregateNetwork observations minerIds policy = .ok aggregates) :
    (∀ kept : List (EpochObservation K), kept.Sublist observations →
      kept.filter EpochObservation.available = observations.filter EpochObservation.available →
        aggregateNetwork kept minerIds policy = .ok aggregates) ∧
    ∀ replaced, List.Forall₂ Replaced observations replaced →
      aggregateNetwork replaced minerIds policy = .ok aggregates := by
  obtain ⟨ok, -⟩ := aggregateNetwork_ok_iff.mp h
  constructor
  · intro kept sublist available
    apply aggregateNetwork_congr (filter_accepted_of_available available.symm) _ _ _ _ h
    · intro m
      rw [available]
    · exact fun o ho => ok.inRoster o (sublist.subset ho)
    · exact fun o ho => ok.onSchedule o (sublist.subset ho)
    · exact fun m hm => ((sublist.filter _).map _).nodup (ok.oncePerTask m hm)
  · intro replaced hreplaced
    apply aggregateNetwork_congr (filter_accepted_of_replaced hreplaced) _ _ _ _ h
    · exact map_under_of_replaced _ view (fun _ _ _ => ⟨rfl, rfl⟩) hreplaced
    · intro p hp
      obtain ⟨o, ho, reward, bounds, rfl, -⟩ := exists_replaced hreplaced hp
      exact ok.inRoster o ho
    · intro p hp
      obtain ⟨o, ho, reward, bounds, rfl, -⟩ := exists_replaced hreplaced hp
      exact ok.onSchedule o ho
    · intro m hm
      have tasks := map_under_of_replaced (fun _ => true) EpochObservation.taskId
        (fun _ _ _ => ⟨rfl, rfl⟩) hreplaced m
      simp only [List.filter_true] at tasks
      rw [← tasks]
      exact ok.oncePerTask m hm

end Network

/-! ## An unavailable observation -/

namespace Sample

open NetworkAggregation.Sample

noncomputable section

def silent : EpochObservation ℝ := { observation 'b' 1 ['y'] with available := false }

def network : AggregationPolicy ℝ := policy 1 full_weight

theorem networkOk : NetworkOk [observation 'a' 0 ['x'], silent] [['a'], ['b']] network where
  rosterNonempty := by simp
  rosterUnique := by decide
  inRoster := by simp [silent, observation]
  onSchedule := by
    intro o ho
    rcases List.mem_pair.mp ho with rfl | rfl
    · exact ⟨scheduledTask 0, List.mem_cons_self, rfl, rfl⟩
    · exact ⟨scheduledTask 1, List.mem_cons_of_mem _ List.mem_cons_self, rfl, rfl⟩
  oncePerTask := by
    intro m hm
    rcases List.mem_pair.mp hm with rfl | rfl <;> decide
  groups := by
    have groups : cacheGroups [observation 'a' 0 ['x'], silent] =
        [((['c', '0'], ['s', 'x']), [observation 'a' 0 ['x']])] := rfl
    intro g hg
    rw [groups] at hg
    obtain rfl := List.mem_singleton.mp hg
    exact ⟨by decide, by simp, by norm_num [observation]⟩

end

end Sample

/-- A miner that is silent and a miner that is missing have one aggregate. -/
theorem aggregateNetwork_silent_miner :
    ∃ aggregates, aggregateNetwork [NetworkAggregation.Sample.observation 'a' 0 ['x'], Sample.silent]
        [['a'], ['b']] Sample.network = .ok aggregates ∧
      aggregateNetwork [NetworkAggregation.Sample.observation 'a' 0 ['x']] [['a'], ['b']]
        Sample.network = .ok aggregates := by
  have accepted := aggregateNetwork_ok_iff.mpr ⟨Sample.networkOk, rfl⟩
  obtain ⟨removal, -⟩ := aggregateNetwork_silent accepted
  exact ⟨_, accepted, removal _ (.cons_cons _ (.cons _ .slnil)) rfl⟩

end SilentObservations
