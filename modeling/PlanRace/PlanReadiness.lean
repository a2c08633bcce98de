import PlanRace.WeightPlanning
import Mathlib.Data.Rat.Floor

/-!
# When a ready plan can be used

The targets of a ready plan pass every check of a saved plan. Whether the rest
passes depends on the hyperparameters that readiness does not ask for.
-/

namespace PlanReadiness

open JsonText ByteStrings Sha256 CanonicalJson AsciiJson PythonObjects ChainReplies
  WeightConformity Fallible TestnetWeights WeightPlanning

section Targets

variable {K : Type} [Field K] [LinearOrder K] [IsStrictOrderedRing K] {scores : List (Text × K)}
  {hotkeys : List Text} {entries : List (ConformedWeight K)} {targets : List (WeightTarget K)}

theorem isClose_self (x : K) : isClose x x = true := by
  refine decide_eq_true ?_
  simp only [sub_self, rounded_exact, abs_zero]
  exact le_max_of_le_right (by positivity)

/-- The share that a target has of the 16-bit total. -/
def share (total : Int) (target : WeightTarget K) : K := target.u16Weight / total

theorem score_sum_pos {score : K} {position : Nat} {hotkey : Text}
    (h : (positiveScores scores)[position]? = some (hotkey, score)) :
    0 < score ∧ 0 < ((positiveScores scores).map Prod.snd).sum := by
  have found := List.mem_of_getElem? h
  refine ⟨(mem_positiveScores.mp found).2, List.sum_pos _ ?_ ?_⟩
  · intro x hx
    obtain ⟨entry, hentry, rfl⟩ := List.mem_map.mp hx
    exact (mem_positiveScores.mp hentry).2
  · exact fun none => List.ne_nil_of_mem found (List.map_eq_nil_iff.mp none)

omit [IsStrictOrderedRing K] in
theorem finitePositive_of_pos {x : K} (h : 0 < x) : finitePositive (.finite x) = .ok x := if_pos h

/-- Every target of a ready plan passes the checks on a target. -/
theorem checkTarget_of_targeted (accepted : PublicScores scores) {weights : List K} {limit : Int}
    (conformed : Conformed weights limit entries) {validator : Text}
    (unscored : validator ∉ Dict.keys scores)
    (targeted : Targeted scores hotkeys entries targets) :
    targets.mapM (checkTarget validator) =
      .ok (targets.map (share (targets.map WeightTarget.u16Weight).sum)) := by
  refine mapM_eq_map fun target htarget => ?_
  obtain ⟨entry, hentry, score, of⟩ := targeted.exists_entry htarget
  obtain ⟨scorePos, totalPos⟩ := score_sum_pos of.position
  have scored := (mem_positiveScores.mp (List.mem_of_getElem? of.position)).1
  have total := targeted.values_perm.sum_eq
  have value := conformed.values entry hentry
  obtain ⟨uid, -, huid⟩ := of.uid
  have known : isPublicSs58 target.hotkeySs58 = true := accepted.isPublic _ scored
  have other : target.hotkeySs58 ≠ validator ∧ 0 ≤ target.uid := by
    refine ⟨?_, by rw [huid]; exact Int.natCast_nonneg uid⟩
    rintro rfl
    exact unscored (List.mem_map_of_mem scored)
  have weight : 0 < entry.weight ∧ entry.weight =
      share (targets.map WeightTarget.u16Weight).sum target := by
    rw [conformed.normalized entry hentry, share, total, of.u16Weight]
    exact ⟨div_pos (Int.cast_pos.mpr value.1) (Int.cast_pos.mpr conformed.total), rfl⟩
  simp only [checkTarget, bind_ok_iff, require_ok_iff, of.score, of.plannedWeight, of.weight,
    of.u16Weight]
  exact ⟨⟨⟩, validatePublicSs58_ok_iff.mpr known, ⟨⟩, other, score, finitePositive_of_pos scorePos,
    _, finitePositive_of_pos (div_pos scorePos totalPos), entry.weight,
    finitePositive_of_pos weight.1, ⟨⟩, value, congrArg _ weight.2⟩

theorem sum_shares {total : Int} (positive : 0 < total)
    (h : (targets.map WeightTarget.u16Weight).sum = total) :
    (targets.map (share (K := K) total)).sum = 1 := by
  have cast : (targets.map fun target => (target.u16Weight : K)).sum = (total : K) := by
    rw [← h]
    exact ((map_list_sum (Int.castRingHom K) _).trans (by rw [List.map_map]; rfl)).symm
  have shares : targets.map (share (K := K) total) =
      (targets.map fun target => (target.u16Weight : K)).map (· / (total : K)) := by
    rw [List.map_map]
    rfl
  rw [shares, sum_map_div, cast, div_self (Int.cast_pos.mpr positive).ne']

/-- The vector of a ready plan passes the checks on a vector, within its limit. -/
theorem checkVector_of_targeted (accepted : PublicScores scores) {weights : List K} {limit : Int}
    (conformed : Conformed weights limit entries)
    (targeted : Targeted scores hotkeys entries targets)
    (limited : maximumWeightLimitMet targets (some limit) = true) :
    checkVector targets (targets.map (share (targets.map WeightTarget.u16Weight).sum)) limit =
      .ok ⟨⟩ := by
  have distinct := targeted.hotkeys_nodup accepted conformed.distinct
  have total := targeted.values_perm.sum_eq
  have positive : 0 < (targets.map WeightTarget.u16Weight).sum := by
    rw [total]
    exact conformed.total
  have values : ∀ value ∈ targets.map WeightTarget.u16Weight, 0 < value := by
    intro value hvalue
    obtain ⟨entry, hentry, rfl⟩ := List.mem_map.mp (targeted.values_perm.mem_iff.mp hvalue)
    exact (conformed.values entry hentry).1
  have shares : ∀ pair ∈ (targets.map (share (targets.map WeightTarget.u16Weight).sum)).zip
      (targets.map WeightTarget.u16Weight),
      isClose pair.1 ((pair.2 : K) / (targets.map WeightTarget.u16Weight).sum) = true := by
    intro pair hpair
    rw [List.zip_map'] at hpair
    obtain ⟨target, -, rfl⟩ := List.mem_map.mp hpair
    exact isClose_self _
  rw [maximumWeightLimitMet, Option.any_some, Bool.and_eq_true, decide_eq_true_eq] at limited
  simp only [checkVector, bind_ok_iff, require_ok_iff]
  exact ⟨⟨⟩, targeted.uids_nodup distinct, ⟨⟩, distinct, ⟨⟩, by
    rw [fsum_exact, sum_shares positive rfl]
    exact isClose_self 1, ⟨⟩, ⟨positive, values⟩, ⟨⟩, shares, limited.2⟩

end Targets

section Digest

variable {K : Type}

/-- What the digest of a payload is taken of. -/
def digestInput (floats : FloatText K) (payload : DigestPayload K) : Bytes :=
  utf8 (asciiText (payloadText floats payload))

theorem digestPayload_eq_iff (floats : FloatText K) (x y : DigestPayload K) :
    digestPayload floats x = digestPayload floats y ↔
      digestInput floats x = digestInput floats y ∨
        Collision [digestInput floats x, digestInput floats y] :=
  digestText_eq_iff_or_collision _ _

/-- The text of a payload names its runtime version. -/
theorem runtimeVersion_of_digestInput {floats : FloatText K} {payload : DigestPayload K}
    {version : Int} (h : digestInput floats { payload with runtimeSpecVersion := version } =
      digestInput floats payload) : version = payload.runtimeSpecVersion := by
  obtain ⟨head, tail, context⟩ := objectText_context
    [("schema_version".toList, quote schemaVersion),
      ("network".toList, quote "test".toList),
      ("endpoint".toList, quote payload.endpoint),
      ("sdk_version".toList, quote payload.sdkVersion),
      ("block".toList, intJson payload.block),
      ("block_hash".toList, quote payload.blockHash)]
    [("netuid".toList, intJson payload.netuid),
      ("min_allowed_weights".toList, intJson payload.minAllowedWeights),
      ("max_weights_limit".toList, intJson payload.maxWeightsLimit),
      ("weights_rate_limit".toList, intJson payload.weightsRateLimit),
      ("commit_reveal_weights_enabled".toList, boolJson payload.commitRevealWeightsEnabled),
      ("commit_reveal_period".toList, intJson payload.commitRevealPeriod),
      ("weights_were_clipped".toList, boolJson payload.weightsWereClipped),
      ("targets".toList, arrayText (payload.targets.map (targetText floats))),
      ("current_readback".toList, readbackText floats payload.currentReadback),
      ("validator_hotkey_ss58".toList, quote payload.validatorHotkey)]
    "runtime_spec_version".toList
  have text : ∀ n, payloadText floats { payload with runtimeSpecVersion := n } =
      head ++ intText n ++ tail := fun n => context (intText n)
  have same := utf8_injective h
  rw [text version, show payloadText floats payload =
    head ++ intText payload.runtimeSpecVersion ++ tail from text payload.runtimeSpecVersion] at same
  simp only [asciiText_append, asciiText_intText] at same
  exact intText_injective (List.append_cancel_left (List.append_cancel_right same))

end Digest

section Readiness

variable {K : Type} [Field K] [LinearOrder K] [FloorRing K] [Rounding K] {V : Type}
  [PythonObject V] [PythonFloat V K] {floats : FloatText K} {sdkVersion : Text} {netuid : Int}
  {validatorHotkey : Text} {scoreSpecs : List Text} {minimum : Int} {client : Client V}

/-- The digest is there and authorizes the report, and the saved report loads. -/
def Usable (floats : FloatText K) (report : TestnetWeightPlanReport K) : Prop :=
  ∃ digest, report.planDigest = some digest ∧ validatedPlanDigest floats report = .ok digest ∧
    ∀ validateJson saved, validateJson saved = .ok report →
      loadTestnetWeightPlan floats validateJson saved = .ok report

/-- Hyperparameters that a digest can be taken of and a saved plan may show. -/
structure Complete (parameters : Hyperparameters) : Prop where
  minAllowed : ∀ n ∈ parameters.minAllowed, 0 ≤ n
  rateLimit : ∀ n ∈ parameters.rateLimit, 0 ≤ n
  commitReveal : parameters.commitReveal.isSome = true
  revealPeriod : ∃ n ∈ parameters.revealPeriod, 0 ≤ n

/-- Complete hyperparameters, and one runtime version in two readings. -/
structure CompleteReplies (client : Client V) (netuid : Int) : Prop where
  parameters : ∃ parameters, chainHyperparameters client netuid = .ok parameters ∧
    Complete parameters
  version : runtimeVersion client 0 = runtimeVersion client 1

omit [FloorRing K] in
theorem usable_iff {report : TestnetWeightPlanReport K} : Usable floats report ↔
    ∃ digest, report.planDigest = some digest ∧
      ∃ payload weights, ValidPlan floats report payload digest weights := by
  constructor
  · rintro ⟨digest, planned, valid, -⟩
    exact ⟨digest, planned, validatedPlanDigest_ok_iff.mp valid⟩
  · rintro ⟨digest, planned, valid⟩
    have accepted := validatedPlanDigest_ok_iff.mpr valid
    refine ⟨digest, planned, accepted, fun validateJson saved validates => ?_⟩
    rw [loadTestnetWeightPlan, validates]
    exact bind_ok_iff.mpr ⟨report, rfl, bind_ok_iff.mpr ⟨digest, accepted, rfl⟩⟩

omit [Field K] [LinearOrder K] [FloorRing K] [Rounding K] in
theorem planDigest_of_complete {report : TestnetWeightPlanReport K} {payload : DigestPayload K}
    {digest : Text} (h : completeOperation report = some (payload, digest)) :
    report.planDigest = some digest := by
  simp only [completeOperation, Option.bind_eq_bind, Option.bind_eq_some_iff] at h
  obtain ⟨_, -, _, -, _, -, _, -, _, -, _, -, _, -, _, -, planDigest, planned, h⟩ := h
  split_ifs at h
  rw [planned, (Prod.mk.inj (Option.some.inj h)).2]

/-- The payload of a planning, at parameters and a runtime version. -/
def operation (p : Planning floats sdkVersion netuid validatorHotkey scoreSpecs minimum client)
    (minAllowed maxWeightsLimit rateLimit : Int) (commitReveal : Bool) (revealPeriod : Int)
    (version : Int) : DigestPayload K where
  endpoint := p.header.endpoint
  sdkVersion := sdkVersion
  netuid := netuid
  block := p.header.block
  blockHash := p.header.blockHash
  runtimeSpecVersion := version
  validatorHotkey := validatorHotkey
  minAllowedWeights := minAllowed
  maxWeightsLimit := maxWeightsLimit
  weightsRateLimit := rateLimit
  commitRevealWeightsEnabled := commitReveal
  commitRevealPeriod := revealPeriod
  weightsWereClipped := p.reading.weightsWereClipped
  targets := p.reading.targets
  currentReadback := p.reading.readback

theorem operation_version
    (p : Planning floats sdkVersion netuid validatorHotkey scoreSpecs minimum client)
    {minAllowed limit rateLimit revealPeriod planned reported : Int} {commitReveal : Bool}
    (h : digestInput floats
        (operation p minAllowed limit rateLimit commitReveal revealPeriod planned) =
      digestInput floats
        (operation p minAllowed limit rateLimit commitReveal revealPeriod reported)) :
    planned = reported :=
  @runtimeVersion_of_digestInput K floats
    (operation p minAllowed limit rateLimit commitReveal revealPeriod reported) planned h

variable {p : Planning floats sdkVersion netuid validatorHotkey scoreSpecs minimum client}

/-- Readiness asks for the minimum, the rate limit and the weight limit. -/
theorem parameters_of_ready (ready : p.report.readyForAuthorizedSubmission = true) :
    ∃ minAllowed limit rateLimit, p.reading.hyperparameters.minAllowed = some minAllowed ∧
      p.reading.hyperparameters.maxWeightsLimit = some limit ∧
      p.reading.hyperparameters.rateLimit = some rateLimit := by
  have gates := (Planning.passed ready).gates
  simp only [WeightPlanGates.all, planGates, Bool.and_eq_true] at gates
  obtain ⟨⟨⟨-, rate⟩, recipients⟩, limited⟩ := gates
  obtain ⟨rateLimit, hrate, -⟩ := (Option.any_eq_true _ _).mp rate
  obtain ⟨minAllowed, hmin, -⟩ := (Option.any_eq_true _ _).mp (Bool.and_eq_true_iff.mp recipients).2
  obtain ⟨limit, hlimit, -⟩ := (Option.any_eq_true _ _).mp (Bool.and_eq_true_iff.mp limited).2
  exact ⟨minAllowed, limit, rateLimit, hmin, hlimit, hrate⟩

/-- Without a reveal mode or a reveal period no digest is taken. -/
theorem digest_none (h : p.reading.hyperparameters.commitReveal = none ∨
    p.reading.hyperparameters.revealPeriod = none) : p.report.planDigest = none := by
  have proposal : proposedPayload sdkVersion netuid validatorHotkey p.header p.reading = none := by
    rcases h with h | h <;> simp [proposedPayload, h]
  have digested := p.digested
  rw [proposal] at digested
  exact (Except.ok.inj digested).symm

/-- What a ready plan proposes, and what its digest was taken of: the runtime
version is read once for each. -/
theorem operation_of_ready (ready : p.report.readyForAuthorizedSubmission = true)
    {parameters : Hyperparameters} (shown : p.reading.hyperparameters = parameters)
    {minAllowed limit rateLimit revealPeriod : Int} {commitReveal : Bool}
    (h : parameters =
      ⟨some minAllowed, some limit, some rateLimit, some commitReveal, some revealPeriod⟩) :
    ∃ planned reported, runtimeVersion client 0 = .ok planned ∧
      runtimeVersion client 1 = .ok reported ∧
      p.report.planDigest = some (digestPayload floats
        (operation p minAllowed limit rateLimit commitReveal revealPeriod planned)) ∧
      completeOperation p.report = some
        (operation p minAllowed limit rateLimit commitReveal revealPeriod reported,
          digestPayload floats
            (operation p minAllowed limit rateLimit commitReveal revealPeriod planned)) := by
  have passed := Planning.passed ready
  rw [h] at shown
  have proposal : proposedPayload sdkVersion netuid validatorHotkey p.header p.reading =
      some (operation p minAllowed limit rateLimit commitReveal revealPeriod) := by
    simp [proposedPayload, shown, passed.nonempty, passed.errors]
    rfl
  have digested := p.digested
  rw [proposal] at digested
  obtain ⟨planned, first, digested⟩ := bind_ok digested
  have digest := (Except.ok.inj digested).symm
  have reported := p.versionRead
  rw [digest] at reported
  refine ⟨planned, p.runtimeSpecVersion, first, reported, digest, ?_⟩
  have hash : p.header.blockHash ≠ [] := by
    intro none
    have valid := passed.blockHash
    rw [none] at valid
    cases valid
  have present : p.report.blockHash = some p.header.blockHash := if_neg hash
  have planDigest : p.report.planDigest = p.digest := rfl
  have parameters : p.report.minAllowedWeights = some minAllowed ∧
      p.report.maxWeightsLimit = some limit ∧ p.report.weightsRateLimit = some rateLimit ∧
      p.report.commitRevealWeightsEnabled = some commitReveal ∧
      p.report.commitRevealPeriod = some revealPeriod := by
    simp [Planning.report, reportOf, shown]
  obtain ⟨hmin, hlimit, hrate, hreveal, hperiod⟩ := parameters
  have nonempty : p.report.targets ≠ [] := passed.nonempty
  simp only [completeOperation, present, planDigest, digest, hmin, hlimit, hrate, hreveal, hperiod,
    if_neg nonempty]
  rfl

/-- A verifier accepts a ready plan whose parameters, digest and vector pass. -/
theorem validPlan_of_vector (ready : p.report.readyForAuthorizedSubmission = true)
    (block : 0 ≤ p.header.block)
    {minAllowed limit rateLimit revealPeriod version : Int} {commitReveal : Bool} {digest : Text}
    (shown : p.reading.hyperparameters =
      ⟨some minAllowed, some limit, some rateLimit, some commitReveal, some revealPeriod⟩)
    (accepted : Complete
      ⟨some minAllowed, some limit, some rateLimit, some commitReveal, some revealPeriod⟩)
    (complete : completeOperation p.report = some
      (operation p minAllowed limit rateLimit commitReveal revealPeriod version, digest))
    (same : digest = digestPayload floats
      (operation p minAllowed limit rateLimit commitReveal revealPeriod version))
    {weights : List K}
    (checked : p.reading.targets.mapM (checkTarget validatorHotkey) = .ok weights)
    (vector : checkVector p.reading.targets weights limit = .ok ⟨⟩) :
    ValidPlan floats p.report
      (operation p minAllowed limit rateLimit commitReveal revealPeriod version) digest weights := by
  have passed := Planning.passed ready
  obtain ⟨metagraph, hotkeys, chain⟩ := p.exists_shown
  obtain ⟨limit', entries, hlimit, conforms, -⟩ := p.targeted ready chain
  obtain rfl : limit' = limit := by
    rw [shown] at hlimit
    exact (Option.some.inj hlimit).symm
  have gates := passed.gates
  simp only [WeightPlanGates.all, planGates, Bool.and_eq_true] at gates
  obtain ⟨n, hn, hperiod⟩ := accepted.revealPeriod
  cases hn
  refine ⟨complete, p.validator, ⟨p.netuidRange.1, block⟩, passed.blockHash,
    ⟨accepted.minAllowed _ rfl, conformWeightVector_limit conforms, accepted.rateLimit _ rfl,
      hperiod⟩, checked, same, ?_, vector⟩
  have endpoint : p.header.endpoint = testnetEndpoint := of_decide_eq_true gates.1.1.1.1.1.1.1.1
  have errors : p.report.errors = [] := passed.errors
  have all : p.report.gates.all = true := passed.gates
  have shownEndpoint : p.report.endpoint = testnetEndpoint := endpoint
  rw [passedEveryGate, errors, ready, all, shownEndpoint]
  rfl

/-- A ready plan with complete parameters and one runtime version is accepted when
its vector passes. -/
theorem accepted_of_vector (ready : p.report.readyForAuthorizedSubmission = true)
    (block : 0 ≤ p.header.block) (complete : Complete p.reading.hyperparameters)
    (version : runtimeVersion client 0 = runtimeVersion client 1) {limit : Int}
    (limited : p.reading.hyperparameters.maxWeightsLimit = some limit) {weights : List K}
    (checked : p.reading.targets.mapM (checkTarget validatorHotkey) = .ok weights)
    (vector : checkVector p.reading.targets weights limit = .ok ⟨⟩) :
    ∃ digest, validatedPlanDigest floats p.report = .ok digest := by
  obtain ⟨minAllowed, _, rateLimit, hmin, -, hrate⟩ := parameters_of_ready ready
  obtain ⟨commitReveal, mode⟩ := Option.isSome_iff_exists.mp complete.commitReveal
  obtain ⟨revealPeriod, period, -⟩ := complete.revealPeriod
  have parameters : p.reading.hyperparameters =
      ⟨some minAllowed, some limit, some rateLimit, some commitReveal, some revealPeriod⟩ := by
    rw [← hmin, ← limited, ← hrate, ← mode]
    rw [← show p.reading.hyperparameters.revealPeriod = some revealPeriod from period]
  obtain ⟨planned, reported, first, second, -, operation⟩ :=
    operation_of_ready ready rfl parameters
  obtain rfl : planned = reported := by
    rw [first, second] at version
    exact Except.ok.inj version
  rw [parameters] at complete
  exact ⟨_, validatedPlanDigest_ok_iff.mpr ⟨_, _, validPlan_of_vector ready block parameters complete
    operation rfl checked vector⟩⟩

end Readiness

/-! Exact arithmetic from here on. -/
section Exact

variable {K : Type} [Field K] [LinearOrder K] [IsStrictOrderedRing K] [FloorRing K] {V : Type}
  [PythonObject V] [PythonFloat V K] {floats : FloatText K} {sdkVersion : Text} {netuid : Int}
  {validatorHotkey : Text} {scoreSpecs : List Text} {minimum : Int} {client : Client V}
  {p : Planning floats sdkVersion netuid validatorHotkey scoreSpecs minimum client}

/-- Of a ready plan, a verifier may still refuse the parameters and the digest. -/
theorem validPlan_iff (ready : p.report.readyForAuthorizedSubmission = true)
    (block : 0 ≤ p.header.block) {parameters : Hyperparameters}
    (shown : p.reading.hyperparameters = parameters)
    {minAllowed limit rateLimit revealPeriod version : Int} {commitReveal : Bool} {digest : Text}
    (h : parameters =
      ⟨some minAllowed, some limit, some rateLimit, some commitReveal, some revealPeriod⟩)
    (complete : completeOperation p.report = some
      (operation p minAllowed limit rateLimit commitReveal revealPeriod version, digest)) :
    (∃ payload weights, ValidPlan floats p.report payload digest weights) ↔
      Complete parameters ∧ digest = digestPayload floats
        (operation p minAllowed limit rateLimit commitReveal revealPeriod version) := by
  constructor
  · rintro ⟨payload, weights, valid⟩
    have same := Option.some.inj (valid.complete.symm.trans complete)
    obtain ⟨rfl, -⟩ := Prod.mk.inj same
    obtain ⟨hmin, -, hrate, hperiod⟩ := valid.parameters
    subst h
    refine ⟨⟨?_, ?_, rfl, revealPeriod, rfl, hperiod⟩, valid.digest⟩
    · rintro n ⟨⟩
      exact hmin
    · rintro n ⟨⟩
      exact hrate
  · rintro ⟨accepted, same⟩
    subst h
    have passed := Planning.passed ready
    obtain ⟨metagraph, hotkeys, chain⟩ := p.exists_shown
    obtain ⟨limit', entries, hlimit, conforms, targeted⟩ := p.targeted ready chain
    have conformed := conformWeightVector_conformed conforms
    have accepts := parsePublicScores_public p.parsed
    have limits : limit' = limit := by
      rw [shown] at hlimit
      exact (Option.some.inj hlimit).symm
    subst limits
    have gates := passed.gates
    simp only [WeightPlanGates.all, planGates, Bool.and_eq_true] at gates
    have limited : maximumWeightLimitMet p.reading.targets (some limit') = true := by
      rw [← hlimit]
      exact gates.2
    exact ⟨_, _, validPlan_of_vector ready block shown accepted complete same
      (checkTarget_of_targeted accepts conformed p.unscored targeted)
      (checkVector_of_targeted accepts conformed targeted limited)⟩

/-- A collision between a plan's payloads at the two runtime versions it read. -/
def VersionCollision (floats : FloatText K) (factory : Except Raised (Client V))
    (report : TestnetWeightPlanReport K) : Prop :=
  ∃ client payload digest version, factory = .ok client ∧
    completeOperation report = some (payload, digest) ∧ runtimeVersion client 0 = .ok version ∧
    Collision [digestInput floats { payload with runtimeSpecVersion := version },
      digestInput floats payload]

/-- A ready plan with a reveal mode and a reveal period has a digest, and it is
usable when its parameters are complete and the digest names its runtime version. -/
theorem usable_of_modes (ready : p.report.readyForAuthorizedSubmission = true)
    (block : 0 ≤ p.header.block) {commitReveal : Bool} {revealPeriod : Int}
    (mode : p.reading.hyperparameters.commitReveal = some commitReveal)
    (period : p.reading.hyperparameters.revealPeriod = some revealPeriod) :
    (Usable floats p.report ↔ Complete p.reading.hyperparameters ∧
      runtimeVersion client 0 = runtimeVersion client 1) ∨
        VersionCollision floats (.ok client) p.report := by
  obtain ⟨minAllowed, limit, rateLimit, hmin, hlimit, hrate⟩ := parameters_of_ready ready
  have parameters : p.reading.hyperparameters =
      ⟨some minAllowed, some limit, some rateLimit, some commitReveal, some revealPeriod⟩ := by
    rw [← hmin, ← hlimit, ← hrate, ← mode, ← period]
  obtain ⟨planned, reported, first, second, digest, complete⟩ :=
    operation_of_ready ready rfl parameters
  have valid := validPlan_iff ready block rfl parameters complete
  have usable : Usable floats p.report ↔ Complete p.reading.hyperparameters ∧
      digestPayload floats
        (operation p minAllowed limit rateLimit commitReveal revealPeriod planned) =
      digestPayload floats
        (operation p minAllowed limit rateLimit commitReveal revealPeriod reported) := by
    rw [← valid, usable_iff]
    constructor
    · rintro ⟨shown, planned', accepted⟩
      rw [digest] at planned'
      cases planned'
      exact accepted
    · intro accepted
      exact ⟨_, digest, accepted⟩
  rw [usable, first, second]
  rcases eq_or_ne planned reported with same | differ
  · subst same
    exact .inl (and_congr_right fun _ => iff_of_true rfl rfl)
  · rw [digestPayload_eq_iff]
    by_cases collide : Collision [digestInput floats
        (operation p minAllowed limit rateLimit commitReveal revealPeriod planned),
      digestInput floats
        (operation p minAllowed limit rateLimit commitReveal revealPeriod reported)]
    · exact .inr ⟨client, _, _, planned, rfl, complete, first, collide⟩
    · refine .inl (and_congr_right fun _ => iff_of_false ?_ ?_)
      · rintro (equal | collision)
        · exact differ (operation_version p equal)
        · exact collide collision
      · exact fun same => differ (Except.ok.inj same)

/-- A ready plan is usable exactly when the chain replied with complete
hyperparameters and with one runtime version, collisions apart. -/
theorem readyPlan_usable_iff {factory : Except Raised (Client V)}
    {report : TestnetWeightPlanReport K}
    (collected : collectTestnetWeightPlan floats sdkVersion netuid validatorHotkey scoreSpecs
      minimum factory = .ok report)
    (ready : report.readyForAuthorizedSubmission = true)
    (nonnegative : ∀ client reply block, factory = .ok client → client.block = .ok reply →
      PythonObject.int reply = .ok block → 0 ≤ block) :
    (Usable floats report ↔ ∃ client, factory = .ok client ∧ CompleteReplies client netuid) ∨
      VersionCollision floats factory report := by
  obtain ⟨client, rfl, p, rfl⟩ := exists_planning collected ready
  have block : 0 ≤ p.header.block := by
    obtain ⟨reply, hreply, hblock⟩ := (readHeader_ok p.headerRead).block
    exact nonnegative client reply _ rfl hreply hblock
  obtain ⟨metagraph, hotkeys, chain⟩ := p.exists_shown
  have replies : (∃ client', (.ok client : Except Raised (Client V)) = .ok client' ∧
      CompleteReplies client' netuid) ↔ Complete p.reading.hyperparameters ∧
        runtimeVersion client 0 = runtimeVersion client 1 := by
    constructor
    · rintro ⟨_, ⟨⟩, ⟨parameters, read, complete⟩, version⟩
      rw [chain.parameters] at read
      cases read
      exact ⟨complete, version⟩
    · rintro ⟨complete, version⟩
      exact ⟨client, rfl, ⟨_, chain.parameters, complete⟩, version⟩
  have unusable : p.report.planDigest = none → ¬ Usable floats p.report := by
    rintro none ⟨digest, planned, -⟩
    rw [none] at planned
    cases planned
  rw [replies]
  cases mode : p.reading.hyperparameters.commitReveal with
  | none =>
    refine .inl (iff_of_false (unusable (digest_none (.inl mode))) fun complete => ?_)
    have known := complete.1.commitReveal
    rw [mode] at known
    cases known
  | some commitReveal =>
    cases period : p.reading.hyperparameters.revealPeriod with
    | none =>
      refine .inl (iff_of_false (unusable (digest_none (.inr period))) fun complete => ?_)
      obtain ⟨n, known, -⟩ := complete.1.revealPeriod
      rw [period] at known
      cases known
    | some revealPeriod => exact usable_of_modes ready block mode period

end Exact

namespace Sample

/-- The texts of the floats that the samples show. -/
def numerals : List (Text × ℚ) :=
  [("0.5".toList, 1 / 2), ("0.9999923706054688".toList, 131071 / 131072), ("1.0".toList, 1),
    ("131071.0".toList, 131071), ("1e+20".toList, 10 ^ 20)]

def numeralText : Number ℚ → Text
  | .finite x => ((numerals.find? fun e => e.2 = x).map Prod.fst).getD []
  | _ => []

def floats : FloatText ℚ where
  parse text :=
    match Dict.get? numerals text with
    | some x => .ok (.finite x)
    | none => .error (.valueError "could not convert string to float".toList)
  repr := numeralText
  json := numeralText

def hotkey (c : Char) : Text := '5' :: List.replicate 47 c

def validator : Text := hotkey 'A'

def named (name : String) (value : Literal ℚ) : Literal ℚ × Literal ℚ := (.str name.toList, value)

/-- A subnet with a permitted validator and two miners. -/
def metagraph : Literal ℚ :=
  .dict [named "hotkeys" (.list [.str validator, .str (hotkey 'B'), .str (hotkey 'C')]),
    named "validator_permit" (.list [.bool true, .bool false, .bool false]),
    named "owner_hotkey" (.str validator),
    named "last_update" (.list [.int 50, .int 0, .int 0])]

def hyperparameters (revealPeriod : List (Literal ℚ × Literal ℚ)) : Literal ℚ :=
  .dict ([named "min_allowed_weights" (.int 1), named "max_weights_limit" (.int 65535),
    named "weights_rate_limit" (.int 20),
    named "commit_reveal_weights_enabled" (.bool false)] ++ revealPeriod)

def snapshot (revealPeriod : List (Literal ℚ × Literal ℚ)) (block : Int) :
    Snapshot (Literal ℚ) where
  block := .ok (.int block)
  blockInfo := .ok (.dict [named "hash" (.str ("0x".toList ++ List.replicate 64 '0')),
    named "number" (.int block)])
  networksAdded _ := .ok (.bool true)
  read name _ :=
    if name = "subnet_hyperparameters".toList then .ok (hyperparameters revealPeriod)
    else if name = "metagraph".toList then .ok metagraph
    else .ok (.dict [])

def client (revealPeriod : List (Literal ℚ × Literal ℚ)) (block : Int) : Client (Literal ℚ) where
  endpoint := .ok (.str testnetEndpoint)
  block := .ok (.int block)
  specVersion _ := .ok (.int 300)
  atBlock block := .ok (snapshot revealPeriod block)
  close := .ok ()

def scoreSpecs (first : String) : List Text :=
  [hotkey 'B' ++ ("=" ++ first).toList, hotkey 'C' ++ "=1.0".toList]

def reported : List (Literal ℚ × Literal ℚ) := [named "commit_reveal_period" (.int 1)]

def collect [Rounding ℚ] (first : String) (revealPeriod : List (Literal ℚ × Literal ℚ)) :
    Except Raised (TestnetWeightPlanReport ℚ) :=
  collectTestnetWeightPlan floats "11.1.0".toList 7 validator (scoreSpecs first) 2
    (.ok (client revealPeriod 100))

end Sample

theorem Sample.collect_satisfies [Rounding ℚ] (first : String) (revealPeriod : List (Literal ℚ × Literal ℚ))
    (check : TestnetWeightPlanReport ℚ → Bool)
    (shown : (Sample.collect first revealPeriod).toOption.map check = some true) :
    ∃ report, Sample.collect first revealPeriod = .ok report ∧ check report = true := by
  cases collected : Sample.collect first revealPeriod with
  | error e =>
    rw [collected] at shown
    cases shown
  | ok report =>
    rw [collected] at shown
    exact ⟨report, rfl, Option.some.inj shown⟩

theorem readyPlan_usable_reported : ∃ report, Sample.collect "1.0" Sample.reported = .ok report ∧
    report.readyForAuthorizedSubmission = true ∧
    ((Usable Sample.floats report ↔
        ∃ client, (.ok (Sample.client Sample.reported 100) : Except Raised (Client (Literal ℚ))) =
          .ok client ∧ CompleteReplies client 7) ∨
      VersionCollision Sample.floats (.ok (Sample.client Sample.reported 100)) report) := by
  obtain ⟨report, collected, ready⟩ := Sample.collect_satisfies "1.0" Sample.reported
    TestnetWeightPlanReport.readyForAuthorizedSubmission (by decide +kernel)
  refine ⟨report, collected, ready, readyPlan_usable_iff collected ready ?_⟩
  rintro client reply block ⟨⟩ ⟨⟩ ⟨⟩
  decide

/-- A client that does not report the reveal period gets a ready plan without a digest. -/
theorem ready_without_digest : ∃ report, Sample.collect "1.0" [] = .ok report ∧
    report.readyForAuthorizedSubmission = true ∧ report.planDigest = none ∧
      ¬ Usable Sample.floats report := by
  obtain ⟨report, collected, shown⟩ := Sample.collect_satisfies "1.0" []
    (fun report => report.readyForAuthorizedSubmission && report.planDigest.isNone)
    (by decide +kernel)
  obtain ⟨ready, missing⟩ := Bool.and_eq_true_iff.mp shown
  have digest := Option.isNone_iff_eq_none.mp missing
  refine ⟨report, collected, ready, digest, ?_⟩
  rintro ⟨_, planned, -⟩
  rw [digest] at planned
  cases planned

end PlanReadiness
