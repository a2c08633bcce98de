import PlanRace.SimulatedNetwork

/-!
# The rows of the simulation

Scoring a replication never raises. Its row weighs only what the validator saw
to be correct, an exact copy gains nothing, and a validator to whom nobody
answers makes no update.
-/

namespace SimulatedRows

open JsonText Grouping LexOrder ScoringV2 NetworkAggregation Allocation AllocationInvariants
  RankAgreement MechanismSimulation SimulatedEvaluations SimulatedEpochs SimulatedNetwork Fallible

section Allocations

variable {aggregates : List (MinerAggregate ℝ)} {policy : AggregationPolicy ℝ}
  {result : AllocationResult ℝ}

theorem exists_allocation (aggregates : List (MinerAggregate ℝ)) (policy : AggregationPolicy ℝ) :
    ∃ result, allocateWeights aggregates policy = .ok result := by
  by_cases plannable : Plannable aggregates policy
  · obtain ⟨groups, concentration, -, -, h⟩ := allocateWeights_of_plannable plannable
    exact ⟨_, h⟩
  · obtain ⟨reason, groups, h⟩ := allocateWeights_of_not_plannable plannable
    exact ⟨_, h⟩

theorem plannedOk_of_ok (distinct : (aggregates.map MinerAggregate.minerId).Nodup)
    (h : allocateWeights aggregates policy = .ok result) (planned : result.planned = true) :
    PlannedOk aggregates policy result := by
  have plannable := GroupMasses.plannable_of_planned h planned
  obtain ⟨groups, concentration, -, normalized, hresult⟩ := allocateWeights_of_plannable plannable
  obtain rfl := Except.ok.inj (h.symm.trans hresult)
  exact plannedOk_of_normalized distinct plannable normalized concentration

theorem unweighted_of_ok (h : allocateWeights aggregates policy = .ok result)
    (unplanned : result.planned = false) : result.weights = [] ∧ result.strategyWeights = [] := by
  by_cases plannable : Plannable aggregates policy
  · obtain ⟨groups, concentration, -, -, hresult⟩ := allocateWeights_of_plannable plannable
    obtain rfl := Except.ok.inj (h.symm.trans hresult)
    cases unplanned
  · obtain ⟨reason, groups, hresult⟩ := allocateWeights_of_not_plannable plannable
    obtain rfl := Except.ok.inj (h.symm.trans hresult)
    exact ⟨rfl, rfl⟩

/-- Without an eligible aggregate there is no plan. -/
theorem unplanned_of_ineligible (ineligible : ∀ a ∈ aggregates, a.eligible = false)
    (h : allocateWeights aggregates policy = .ok result) : result.planned = false := by
  have none : recipients aggregates = [] := by
    rw [recipients, List.filter_eq_nil_iff]
    intro a ha
    simp [ineligible a ha]
  have failed : allocateWeights aggregates policy = .ok (unplanned .allFailed []) := by
    unfold allocateWeights
    exact if_pos none
  rw [Except.ok.inj (h.symm.trans failed)]
  rfl

end Allocations

section Weights

theorem weightAt_of_new {weights : List (Text × ℝ)} {key : Text} (h : key ∉ Dict.keys weights) :
    weightAt weights key = 0 := by
  rw [weightAt, Dict.get?_eq_none_iff.mpr h]
  rfl

/-- Only the keys of a map count in a sum over its values. -/
theorem sum_weightAt {weights : List (Text × ℝ)} (distinct : (Dict.keys weights).Nodup)
    {ids : List Text} (unique : ids.Nodup) (within : ∀ key ∈ Dict.keys weights, key ∈ ids) :
    (ids.map (weightAt weights)).sum = (weights.map Prod.snd).sum := by
  have own := flatMap_under_perm id ids distinct
  have counted : ((ids.filter fun key => key ∈ Dict.keys weights).map (weightAt weights)).sum =
      (ids.map (weightAt weights)).sum := by
    clear own unique within
    induction ids with
    | nil => rfl
    | cons key rest ih =>
      by_cases member : key ∈ Dict.keys weights
      · rw [List.filter_cons_of_pos (by simpa using member), List.map_cons, List.sum_cons, ih,
          List.map_cons, List.sum_cons]
      · rw [List.filter_cons_of_neg (by simpa using member), ih, List.map_cons, List.sum_cons,
          weightAt_of_new member, zero_add]
  have keys : (ids.filter fun key => key ∈ Dict.keys weights).Perm (Dict.keys weights) := by
    refine (List.perm_ext_iff_of_nodup (unique.filter _) distinct).mpr fun key => ?_
    simpa using within key
  rw [← counted, (keys.map (weightAt weights)).sum_eq]
  exact congrArg List.sum (Dict.map_get?_keys distinct 0)

theorem sum_categories (f : MinerProfile ℝ → ℝ) (profiles : List (MinerProfile ℝ)) :
    ((profiles.filter fun profile => profile.category = .honest).map f).sum +
        ((profiles.filter fun profile => profile.category = .gaming).map f).sum +
        ((profiles.filter fun profile => profile.category = .sybil).map f).sum =
      (profiles.map f).sum := by
  induction profiles with
  | nil => simp
  | cons profile rest ih =>
    rw [List.map_cons, List.sum_cons, ← ih]
    cases h : profile.category <;> simp only [List.filter_cons, h, decide_true, decide_false,
      reduceCtorEq, if_true, if_false, Bool.false_eq_true, List.map_cons, List.sum_cons] <;> ring

/-- A search that keeps its best or takes the next ends in one of its items. -/
theorem mem_of_foldl_some {α : Type} {f : Option α → α → Option α}
    (choose : ∀ best x, f best x = some x ∨ f best x = best) {items : List α} {start : Option α}
    {found : α} (h : items.foldl f start = some found) : found ∈ items ∨ start = some found := by
  induction items generalizing start with
  | nil => exact .inr h
  | cons x rest ih =>
    rcases ih h with later | next
    · exact .inl (List.mem_cons_of_mem _ later)
    · rcases choose start x with taken | kept
      · rw [taken] at next
        exact .inl (Option.some.inj next ▸ List.mem_cons_self)
      · exact .inr (kept ▸ next)

/-- The winner is one of the weighted miners. -/
theorem winnerOf_mem {weights : List (Text × ℝ)} {winner : Text} (h : winnerOf weights = some winner) :
    winner ∈ Dict.keys weights := by
  obtain ⟨w, hw, rfl⟩ := Option.map_eq_some_iff.mp h
  refine List.mem_map_of_mem ((mem_of_foldl_some (fun best x => ?_) hw).resolve_right (by simp))
  cases best with
  | none => exact .inl rfl
  | some b =>
    dsimp only
    split_ifs
    · exact .inl rfl
    · exact .inr rfl

end Weights

section Gains

variable {kind : GroupKind} {requireDistinctStrategies : Bool} {group : Text × List Text}

/-- A duplicated group lists the profiles of its digest. -/
theorem mem_duplicatedGroups (h : group ∈ duplicatedGroups (K := ℝ) kind requireDistinctStrategies) :
    group.2 ≠ [] ∧ group.2.Nodup ∧ ∀ id, id ∈ group.2 ↔
      ∃ profile ∈ (minerProfiles : List (MinerProfile ℝ)),
        profile.profileId = id ∧ kind.digest profile = group.1 := by
  obtain ⟨g, hg, rfl⟩ := List.mem_map.mp h
  obtain ⟨hgroup, size⟩ := List.mem_filter.mp (mem_sortBy.mp hg)
  obtain ⟨-, members⟩ := mem_groupBy.mp hgroup
  have perm := sortedTexts_perm (g.2.map MinerProfile.profileId)
  have within : g.2.Sublist (minerProfiles : List (MinerProfile ℝ)) := by
    rw [members]
    exact List.filter_sublist
  refine ⟨?_, ?_, fun id => ?_⟩
  · have many : 1 < g.2.length := by
      rw [Bool.and_eq_true] at size
      exact of_decide_eq_true size.1
    intro he
    dsimp only at he
    rw [he] at perm
    have none := perm.symm.eq_nil
    rw [List.map_eq_nil_iff.mp none] at many
    exact absurd many (by decide)
  · exact perm.nodup_iff.mpr (profileIds_nodup.sublist (within.map _))
  · rw [perm.mem_iff, List.mem_map]
    constructor
    · rintro ⟨profile, hprofile, rfl⟩
      rw [members] at hprofile
      obtain ⟨hin, hdigest⟩ := mem_under.mp hprofile
      exact ⟨profile, hin, rfl, hdigest⟩
    · rintro ⟨profile, hin, rfl, hdigest⟩
      refine ⟨profile, ?_, rfl⟩
      rw [members]
      exact mem_under.mpr ⟨hin, hdigest⟩

/-- The one item with a key is what a search for the key finds. -/
theorem find?_of_unique {α : Type} (key : α → Text) {items : List α} {a : α} (h : a ∈ items)
    (unique : ∀ b ∈ items, key b = key a → b = a) :
    items.find? (fun b => key b = key a) = some a := by
  cases found : items.find? fun b => key b = key a with
  | none => exact absurd (decide_eq_true (rfl : key a = key a)) (List.find?_eq_none.mp found a h)
  | some b =>
    have same : key b = key a := by simpa using List.find?_some found
    rw [unique b (List.mem_of_find?_eq_some found) same]

theorem find?_memberAggregate (observations : List (EpochObservation ℝ))
    (policy : AggregationPolicy ℝ) {ids : List Text} {m : Text} (h : m ∈ ids) :
    (ids.map (memberAggregate observations policy)).find? (fun a => a.minerId = m) =
      some (memberAggregate observations policy m) := by
  have member : memberAggregate observations policy m ∈
      ids.map (memberAggregate observations policy) := List.mem_map_of_mem h
  refine find?_of_unique MinerAggregate.minerId member fun b hb same => ?_
  obtain ⟨n, -, rfl⟩ := List.mem_map.mp hb
  exact congrArg (memberAggregate observations policy) same

variable {floatText : ℝ → Text} {scenario : ValidatorScenario ℝ} {trialCount epochs : Nat}
  {journal : Journal} {progress : Progress ℝ} (distinct : DistinctTasks epochs)
  (replicated : Replicated floatText scenario trialCount (List.range epochs) journal progress)
  {policy : AggregationPolicy ℝ} (schedule : policy.taskSchedule = simulationTaskSchedule epochs)
include distinct replicated schedule

/-- The gain of a group compares two allocations that both exist. -/
theorem groupGain_eq (allocation : AllocationResult ℝ)
    (h : group ∈ duplicatedGroups (K := ℝ) kind requireDistinctStrategies) :
    ∃ m removed control, group.2 = m :: removed ∧
      allocateWeights (((minerIds (K := ℝ)).filter fun minerId => decide (minerId ∉ removed)).map
        (memberAggregate ((networkObservations progress).filter fun o =>
          decide (o.minerId ∉ removed)) policy)) policy = .ok control ∧
      groupGain (networkObservations progress) (minerIds (K := ℝ))
          ((minerIds (K := ℝ)).map (memberAggregate (networkObservations progress) policy))
          allocation policy group =
        .ok (if control.planned then
          let digest := (memberAggregate (networkObservations progress) policy m).behaviorDigest
          let gain := weightAt allocation.strategyWeights digest -
            weightAt control.strategyWeights digest
          some (if gain ≤ 1 / 10 ^ 12 then 0 else gain)
        else none) := by
  obtain ⟨nonempty, unique, members⟩ := mem_duplicatedGroups h
  obtain ⟨m, removed, split⟩ := List.exists_cons_of_ne_nil nonempty
  rw [split] at unique members
  have kept := (List.nodup_cons.mp unique).1
  obtain ⟨profile, hprofile, hid, -⟩ := (members m).mp List.mem_cons_self
  have listed : m ∈ minerIds (K := ℝ) := hid ▸ List.mem_map_of_mem hprofile
  have ok := networkOk_without distinct replicated schedule listed kept
  obtain ⟨control, hcontrol⟩ := exists_allocation (((minerIds (K := ℝ)).filter fun minerId =>
    decide (minerId ∉ removed)).map (memberAggregate ((networkObservations progress).filter
      fun o => decide (o.minerId ∉ removed)) policy)) policy
  refine ⟨m, removed, control, split, hcontrol, ?_⟩
  have aggregated := aggregateNetwork_ok_iff.mpr ⟨ok, rfl⟩
  have own := find?_memberAggregate (networkObservations progress) policy listed
  unfold groupGain
  rw [split]
  dsimp only
  rw [aggregated]
  change (allocateWeights _ _).mapError _ >>= _ = _
  rw [hcontrol, own]
  change (if control.planned = true then (Except.ok _ : Except SimulationError (Option ℝ))
    else .ok none) = _
  split_ifs <;> rfl

/-- Gains are computed for every duplicated group. -/
theorem exists_gains (kind : GroupKind) (requireDistinctStrategies : Bool)
    (allocation : AllocationResult ℝ) :
    ∃ gains, duplicateGroupGains (networkObservations progress) (minerIds (K := ℝ))
      ((minerIds (K := ℝ)).map (memberAggregate (networkObservations progress) policy)) allocation
      policy kind requireDistinctStrategies = .ok gains := by
  unfold duplicateGroupGains
  split_ifs
  · obtain ⟨gains, hgains, -⟩ : ∃ gains, (duplicatedGroups (K := ℝ) kind
        requireDistinctStrategies).mapM (groupGain (networkObservations progress) (minerIds (K := ℝ))
          ((minerIds (K := ℝ)).map (memberAggregate (networkObservations progress) policy))
          allocation policy) = .ok gains ∧ ∀ gain ∈ gains, True :=
      exists_mapM fun group h => by
        obtain ⟨_, _, _, -, -, gain⟩ := groupGain_eq distinct replicated schedule allocation h
        exact ⟨_, gain, trivial⟩
    rw [hgains]
    exact ⟨_, rfl⟩
  · exact ⟨[], rfl⟩

/-- Copies of one strategy gain nothing, to the last digit. -/
theorem strategyGains_eq {allocation : AllocationResult ℝ}
    (allocated : allocateWeights ((minerIds (K := ℝ)).map
      (memberAggregate (networkObservations progress) policy)) policy = .ok allocation)
    (planned : allocation.planned = true) :
    duplicateGroupGains (networkObservations progress) (minerIds (K := ℝ))
        ((minerIds (K := ℝ)).map (memberAggregate (networkObservations progress) policy)) allocation
        policy .strategy false =
      .ok ((duplicatedGroups (K := ℝ) .strategy false).map fun _ => 0) := by
  have none : ∀ group ∈ duplicatedGroups (K := ℝ) .strategy false,
      groupGain (networkObservations progress) (minerIds (K := ℝ))
        ((minerIds (K := ℝ)).map (memberAggregate (networkObservations progress) policy)) allocation
        policy group = .ok (some 0) := by
    intro group h
    obtain ⟨m, removed, control, split, hcontrol, gain⟩ :=
      groupGain_eq distinct replicated schedule allocation h
    obtain ⟨-, unique, members⟩ := mem_duplicatedGroups h
    rw [split] at unique members
    obtain ⟨other, hother, plan, weights⟩ := copies_neutral distinct replicated
      ⟨unique, members⟩ schedule hcontrol
    obtain rfl := Except.ok.inj (allocated.symm.trans hother)
    rw [gain, if_pos (plan.symm.trans planned), weights]
    dsimp only
    rw [sub_self, if_pos (by positivity)]
  unfold duplicateGroupGains
  rw [if_pos planned, mapM_eq_map none]
  change Except.ok (((duplicatedGroups (K := ℝ) .strategy false).map _).filterMap id) = _
  rw [List.filterMap_map]
  exact congrArg Except.ok (List.filterMap_eq_map (f := fun _ => (0 : ℝ)) ▸ rfl)

end Gains

section Rows

theorem gaming_hopeless : ∀ profile ∈ (minerProfiles : List (MinerProfile ℝ)),
    profile.category = .gaming → profile.correctness ≤ 0 ∨ profile.compliance ≤ 0 := by
  simp only [minerProfiles, List.forall_mem_cons]
  simp

/-- There is a strategy that two profiles share. -/
theorem duplicatedGroups_ne_nil : duplicatedGroups (K := ℝ) .strategy false ≠ [] := by
  have pair : [sharedCopy "sybil-copy-a".toList, sharedCopy "sybil-copy-b".toList].Sublist
      (minerProfiles : List (MinerProfile ℝ)) := by
    rw [minerProfiles_split]
    refine List.Sublist.trans ?_ (List.sublist_append_right _ _)
    exact ((List.nil_sublist _).cons_cons _).cons_cons _
  -- the digest is a hash that nothing here may compute
  obtain ⟨digest, digests⟩ : ∃ digest, ∀ id,
      GroupKind.strategy.digest (sharedCopy id : MinerProfile ℝ) = digest :=
    ⟨keyDigest "shared-copy-v2".toList, fun id => by
      simp only [GroupKind.digest, MinerProfile.strategyDigest, sharedCopy]⟩
  have two : 1 < (under GroupKind.strategy.digest
      (minerProfiles : List (MinerProfile ℝ)) digest).length := by
    have within := (pair.filter fun p => decide (GroupKind.strategy.digest p = digest)).length_le
    simp only [List.filter_cons, List.filter_nil, digests, decide_true, if_true,
      List.length_cons, List.length_nil] at within
    exact within
  have found : (digest, under GroupKind.strategy.digest minerProfiles digest) ∈
      groupBy GroupKind.strategy.digest (minerProfiles : List (MinerProfile ℝ)) :=
    mem_groupBy.mpr ⟨List.mem_map.mpr ⟨_, pair.subset List.mem_cons_self, digests _⟩, rfl⟩
  refine List.ne_nil_of_mem (List.mem_map_of_mem (mem_sortBy.mpr (List.mem_filter.mpr ⟨found, ?_⟩)))
  rw [Bool.not_false, Bool.true_or, Bool.and_true]
  exact decide_eq_true two

/-- What every row of a replication comes with. -/
structure RowOk (scenario : ValidatorScenario ℝ) (trialCount epochs : Nat) (progress : Progress ℝ)
    (row : ReplicationRow ℝ) : Prop where
  named : row.scenario = scenario.scenarioId
  counters : row.counters = progress.counters
  rewards : Dict.keys row.aggregateRewards = minerIds (K := ℝ)
  total : row.honestWeight + row.gamingWeight + row.sybilWeight = if row.planned then 1 else 0
  gaming : row.gamingWeight = 0
  winner : row.winnerCategory ≠ some .gaming
  copies : row.sybilStrategyAllocationGain = if row.planned then some 0 else none
  failing : scenario.allFail = true → row.planned = false ∧ row.weights = []
  safe : row.safeNoUpdate = scenario.allFail

variable {floatText : ℝ → Text} {scenario : ValidatorScenario ℝ} {trialCount epochs : Nat}
  {journal : Journal} {progress : Progress ℝ} (distinct : DistinctTasks epochs)
  (replicated : Replicated floatText scenario trialCount (List.range epochs) journal progress)
  {policy : AggregationPolicy ℝ} (schedule : policy.taskSchedule = simulationTaskSchedule epochs)
include distinct replicated schedule

omit distinct replicated schedule in
theorem aggregateIds_nodup (progress : Progress ℝ) (policy : AggregationPolicy ℝ) :
    (((minerIds (K := ℝ)).map (memberAggregate (networkObservations progress) policy)).map
      MinerAggregate.minerId).Nodup := by
  rw [List.map_map]
  exact (List.map_id (minerIds (K := ℝ))).symm ▸ profileIds_nodup

/-- Only profiles that can be correct are weighted. -/
theorem weighted_profile {allocation : AllocationResult ℝ}
    (allocated : allocateWeights ((minerIds (K := ℝ)).map
      (memberAggregate (networkObservations progress) policy)) policy = .ok allocation)
    {minerId : Text} (h : minerId ∈ Dict.keys allocation.weights) :
    ∃ profile ∈ (minerProfiles : List (MinerProfile ℝ)), profile.profileId = minerId ∧
      profile.category ≠ .gaming ∧ scenario.allFail = false := by
  have ok := networkOk_network distinct replicated schedule
  have kept := kept_network distinct replicated
  have sound : ∀ epoch < epochs, ∀ profile ∈ (minerProfiles : List (MinerProfile ℝ)),
      Evaluated profile scenario trialCount (journal epoch profile.strategyDigest) :=
    fun epoch inside => replicated.sound epoch (List.mem_range.mpr inside)
  obtain ⟨w, hw, rfl⟩ := List.mem_map.mp h
  obtain ⟨a, ha, hid, eligible⟩ := HardGates.eligible_of_weight (aggregateIds_nodup progress policy) allocated hw
  obtain ⟨id, listed, rfl⟩ := List.mem_map.mp ha
  obtain ⟨profile, hprofile, rfl⟩ := List.mem_map.mp listed
  refine ⟨profile, hprofile, hid, fun gaming => ?_, Bool.eq_false_iff.mpr fun fail => ?_⟩
  · rw [ineligible_of_hopeless sound kept ok hprofile (gaming_hopeless profile hprofile gaming)]
      at eligible
    cases eligible
  · rw [ineligible_of_allFail sound kept ok fail] at eligible
    cases eligible

omit distinct replicated schedule in
/-- A plan's weights add up to one over the categories, and no plan has none. -/
theorem categoryWeights_sum {aggregates : List (MinerAggregate ℝ)}
    (ids : (aggregates.map MinerAggregate.minerId).Nodup) {allocation : AllocationResult ℝ}
    (allocated : allocateWeights aggregates policy = .ok allocation)
    (within : ∀ key ∈ Dict.keys allocation.weights, key ∈ minerIds (K := ℝ)) :
    categoryWeight allocation.weights .honest + categoryWeight allocation.weights .gaming +
        categoryWeight allocation.weights .sybil = if allocation.planned then 1 else 0 := by
  have all : categoryWeight allocation.weights .honest + categoryWeight allocation.weights .gaming +
      categoryWeight allocation.weights .sybil =
        ((minerIds (K := ℝ)).map (weightAt allocation.weights)).sum := by
    rw [minerIds, List.map_map]
    exact sum_categories (fun profile => weightAt allocation.weights profile.profileId) minerProfiles
  rw [all]
  cases planned : allocation.planned with
  | true =>
    have ok := plannedOk_of_ok ids allocated planned
    have unique : (minerIds (K := ℝ)).Nodup := profileIds_nodup
    rw [sum_weightAt ok.listedOnce unique within, ok.weightsSum]
    rfl
  | false =>
    rw [(unweighted_of_ok allocated planned).1]
    exact (List.sum_eq_zero fun x hx => by
      obtain ⟨key, -, rfl⟩ := List.mem_map.mp hx
      exact weightAt_of_new List.not_mem_nil).trans (if_neg (by decide)).symm

omit distinct replicated schedule in
/-- Both branches of a conditional go on alike. -/
theorem ite_bind {ε α β : Type} {c : Prop} [Decidable c] (x y : Except ε α) (f : α → Except ε β) :
    (if c then x >>= f else y >>= f) = (if c then x else y) >>= f := by
  split_ifs <;> rfl

omit distinct replicated schedule in
theorem mean_zeros {α : Type} (items : List α) : mean (items.map fun _ => (0 : ℝ)) = 0 := by
  unfold mean
  split_ifs
  · rfl
  · simp

omit distinct replicated schedule in
theorem exists_tau {scores : List (Text × ℝ)} (keys : Dict.keys scores = minerIds (K := ℝ))
    {others : List (Text × ℝ)} (keys' : Dict.keys others = minerIds (K := ℝ)) :
    ∃ tau, kendallTauB scores others = .ok tau := by
  have shared : 2 ≤ (sharedKeys scores others).length := by
    have all : ((minerIds (K := ℝ)).filter fun key => key ∈ minerIds (K := ℝ)) = minerIds (K := ℝ) := by
      rw [List.filter_eq_self]
      exact fun key h => decide_eq_true h
    rw [sharedKeys, keys, keys', all, (sortedTexts_perm _).length_eq]
    decide
  exact ⟨_, kendallTauB_eq shared⟩

omit distinct replicated schedule in
theorem keys_rewards (progress : Progress ℝ) (policy : AggregationPolicy ℝ) :
    Dict.keys (((minerIds (K := ℝ)).map (memberAggregate (networkObservations progress) policy)).map
      fun aggregate => (aggregate.minerId, aggregate.reward)) = minerIds (K := ℝ) := by
  rw [Dict.keys, List.map_map, List.map_map]
  exact List.map_id _

omit distinct replicated schedule in
/-- The rank correlation is computed where it is asked for. -/
theorem exists_rank (progress : Progress ℝ) (policy : AggregationPolicy ℝ) (planned : Bool) :
    ∃ rank, (if planned then ((kendallTauB expectedScores (((minerIds (K := ℝ)).map
      (memberAggregate (networkObservations progress) policy)).map
        fun aggregate => (aggregate.minerId, aggregate.reward))).mapError
          SimulationError.rank).map some else .ok none) = .ok rank := by
  have expectedKeys : Dict.keys (expectedScores (K := ℝ)) = minerIds (K := ℝ) := by
    rw [Dict.keys, expectedScores, List.map_map]
    rfl
  obtain ⟨tau, htau⟩ := exists_tau expectedKeys (keys_rewards progress policy)
  rw [htau]
  split_ifs
  · exact ⟨_, rfl⟩
  · exact ⟨_, rfl⟩

section Allocated

variable {allocation : AllocationResult ℝ} (allocated : allocateWeights ((minerIds (K := ℝ)).map
  (memberAggregate (networkObservations progress) policy)) policy = .ok allocation)
include allocated

/-- The winner has a category, and it is never gaming. -/
theorem exists_category : ∃ category,
    winnerCategory (K := ℝ) (winnerOf allocation.weights) = .ok category ∧
      category ≠ some .gaming := by
  cases hwinner : winnerOf allocation.weights with
  | none => exact ⟨none, rfl, by simp⟩
  | some winner =>
    obtain ⟨profile, hprofile, hid, honest, -⟩ :=
      weighted_profile distinct replicated schedule allocated (winnerOf_mem hwinner)
    have found : (minerProfiles (K := ℝ)).find? (fun p => p.profileId = winner) = some profile := by
      rw [← hid]
      exact find?_of_unique MinerProfile.profileId hprofile
        fun q hq same => profile_unique hq hprofile same
    refine ⟨some profile.category, ?_, fun h => honest (Option.some.inj h)⟩
    unfold winnerCategory
    dsimp only
    rw [found]

theorem unplanned_of_allFail (fail : scenario.allFail = true) : allocation.planned = false := by
  refine unplanned_of_ineligible (fun a ha => ?_) allocated
  obtain ⟨id, -, rfl⟩ := List.mem_map.mp ha
  exact ineligible_of_allFail (fun epoch inside => replicated.sound epoch
    (List.mem_range.mpr inside)) (kept_network distinct replicated)
      (networkOk_network distinct replicated schedule) fail id

theorem gaming_weightless : categoryWeight allocation.weights .gaming = 0 := by
  refine List.sum_eq_zero fun x hx => ?_
  obtain ⟨profile, hprofile, rfl⟩ := List.mem_map.mp hx
  obtain ⟨hin, own⟩ := List.mem_filter.mp hprofile
  refine weightAt_of_new fun hkey => ?_
  obtain ⟨q, hq, hid, honest, -⟩ := weighted_profile distinct replicated schedule allocated hkey
  obtain rfl := profile_unique hq hin hid
  exact honest (of_decide_eq_true own)

theorem categories_total :
    categoryWeight allocation.weights .honest + categoryWeight allocation.weights .gaming +
      categoryWeight allocation.weights .sybil = if allocation.planned then 1 else 0 := by
  refine categoryWeights_sum (aggregateIds_nodup progress policy) allocated fun key hkey => ?_
  obtain ⟨profile, hprofile, hid, -⟩ :=
    weighted_profile distinct replicated schedule allocated hkey
  exact hid ▸ List.mem_map_of_mem hprofile

/-- Copies of a strategy gain nothing under a plan, and there is nothing to gain without one. -/
theorem meanGain_eq {gains : List ℝ} (hgains : duplicateGroupGains (networkObservations progress)
      (minerIds (K := ℝ)) ((minerIds (K := ℝ)).map
        (memberAggregate (networkObservations progress) policy)) allocation policy .strategy false =
      .ok gains) :
    meanOf gains = if allocation.planned then some 0 else none := by
  cases planned : allocation.planned with
  | true =>
    rw [strategyGains_eq distinct replicated schedule allocated planned] at hgains
    obtain rfl := Except.ok.inj hgains
    have some : (duplicatedGroups (K := ℝ) .strategy false).map (fun _ => (0 : ℝ)) ≠ [] :=
      fun he => duplicatedGroups_ne_nil (List.map_eq_nil_iff.mp he)
    exact (if_neg some).trans (congrArg Option.some (mean_zeros _))
  | false =>
    have none : gains = [] := by
      rw [duplicateGroupGains, if_neg (Bool.eq_false_iff.mp planned)] at hgains
      exact (Except.ok.inj hgains).symm
    rw [none]
    have empty : meanOf ([] : List ℝ) = Option.none := if_pos rfl
    exact empty.trans (if_neg Bool.false_ne_true).symm

end Allocated

/-- Every replication can be scored. -/
theorem exists_row (replication cohort : Nat) :
    ∃ row, scoreReplication policy replication cohort scenario progress = .ok row ∧
      row.replication = replication ∧ row.cohort = cohort ∧
      RowOk scenario trialCount epochs progress row := by
  have aggregated :=
    aggregateNetwork_ok_iff.mpr ⟨networkOk_network distinct replicated schedule, rfl⟩
  obtain ⟨allocation, allocated⟩ := exists_allocation
    ((minerIds (K := ℝ)).map (memberAggregate (networkObservations progress) policy)) policy
  obtain ⟨gains, hgains⟩ := exists_gains distinct replicated schedule .strategy false allocation
  obtain ⟨replicas, hreplicas⟩ := exists_gains distinct replicated schedule .behavior true allocation
  obtain ⟨category, hcategory, notGaming⟩ := exists_category distinct replicated schedule allocated
  obtain ⟨rank, hrank⟩ := exists_rank progress policy allocation.planned
  refine ⟨_, bind_ok_iff.mpr ⟨_, mapError_ok_iff.mpr aggregated, bind_ok_iff.mpr ⟨_,
    mapError_ok_iff.mpr allocated, bind_ok_iff.mpr ⟨_, hgains, bind_ok_iff.mpr ⟨_, hreplicas,
      (ite_bind _ _ _).trans (bind_ok_iff.mpr ⟨_, hrank, bind_ok_iff.mpr ⟨_, hcategory, rfl⟩⟩)⟩⟩⟩⟩,
        rfl, rfl, ?_⟩
  have failing := unplanned_of_allFail distinct replicated schedule allocated
  refine ⟨rfl, rfl, keys_rewards _ _, categories_total distinct replicated schedule allocated,
    gaming_weightless distinct replicated schedule allocated, notGaming,
    meanGain_eq distinct replicated schedule allocated hgains,
    fun fail => ⟨failing fail, (unweighted_of_ok allocated (failing fail)).1⟩, ?_⟩
  change (scenario.allFail && !allocation.planned) = scenario.allFail
  cases fail : scenario.allFail with
  | true => rw [failing fail]; rfl
  | false => rfl

end Rows

end SimulatedRows
