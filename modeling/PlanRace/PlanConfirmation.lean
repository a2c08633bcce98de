import PlanRace.PlanReadiness
import PlanRace.TestnetSubmission

/-!
# When planning again confirms a plan

A fresh plan is made from the targets of the first one. However the floats are
rounded, it confirms the first plan when every positive score has a target; a
dropped score is missing from the total that the planned weights are shares of.
-/

namespace PlanConfirmation

open JsonText LexOrder PythonObjects ChainReplies WeightConformity Fallible TestnetWeights
  WeightPlanning TestnetSubmission

section Specs

variable {K : Type} [Field K] [LinearOrder K] {floats : FloatText K}

/-- The hotkey and the score of a target. -/
def scored (target : WeightTarget K) : Text × K :=
  (target.hotkeySs58, target.score.finite?.getD 0)

theorem ne_equals_of_public {hotkey : Text} (h : isPublicSs58 hotkey = true) :
    ∀ c ∈ hotkey, c ≠ '=' := by
  intro c hc equals
  subst equals
  unfold isPublicSs58 at h
  split at h
  next rest =>
    rcases List.mem_cons.mp hc with five | inside
    · exact absurd five (by decide)
    · have base58 := List.all_eq_true.mp (Bool.and_eq_true_iff.mp h).2 _ inside
      exact absurd base58 (by decide)
  next => cases h

/-- The score of a target is read back from its text. -/
def ReadsBack (floats : FloatText K) (target : WeightTarget K) : Prop :=
  floats.parse (floats.repr target.score) = .ok target.score

theorem parseScore_scoreSpec {target : WeightTarget K} {value : K}
    (isPublic : isPublicSs58 target.hotkeySs58 = true) (score : target.score = .finite value)
    (nonnegative : 0 ≤ value) (readsBack : ReadsBack floats target) :
    parseScore floats (scoreSpec floats target) = .ok (scored target) := by
  have clean : ∀ c ∈ target.hotkeySs58, decide (c ≠ '=') = true := fun c hc =>
    decide_eq_true (ne_equals_of_public isPublic c hc)
  have hotkey : (scoreSpec floats target).takeWhile (· ≠ '=') = target.hotkeySs58 := by
    rw [scoreSpec, List.takeWhile_append_of_pos clean, List.takeWhile_cons_of_neg (by simp),
      List.append_nil]
  have raw : ((scoreSpec floats target).dropWhile (· ≠ '=')).tail = floats.repr target.score := by
    rw [scoreSpec, List.dropWhile_append_of_pos clean, List.dropWhile_cons_of_neg (by simp),
      List.tail_cons]
  have converted : finiteFloat false (floats.parse (floats.repr target.score)) =
      .ok (some value) := by
    rw [readsBack, score]
    rfl
  have found : scored target = (target.hotkeySs58, value) := by
    rw [scored, score]
    rfl
  simp only [parseScore, hotkey, raw, bind_ok_iff, require_ok_iff, found]
  refine ⟨⟨⟩, List.mem_append_right _ List.mem_cons_self, ⟨⟩,
    validatePublicSs58_ok_iff.mpr isPublic, some value, converted, ?_⟩
  exact bind_ok_iff.mpr ⟨⟨⟩, require_ok_iff.mpr nonnegative, rfl⟩

theorem parseScores_scoreSpecs {targets : List (WeightTarget K)} {scores : List (Text × K)}
    (parses : ∀ target ∈ targets, parseScore floats (scoreSpec floats target) = .ok (scored target))
    (distinct : (Dict.keys (scores ++ targets.map scored)).Nodup) :
    parseScores floats scores (targets.map (scoreSpec floats)) =
      .ok (scores ++ targets.map scored) := by
  induction targets generalizing scores with
  | nil => rw [List.map_nil, List.map_nil, List.append_nil, parseScores]
  | cons target rest ih =>
    rw [List.map_cons] at distinct
    have fresh : (scored target).1 ∉ Dict.keys scores := by
      rw [Dict.keys_append] at distinct
      exact fun h => (List.disjoint_of_nodup_append distinct) h List.mem_cons_self
    rw [List.append_cons] at distinct
    have tail := ih (fun t ht => parses t (List.mem_cons_of_mem _ ht)) distinct
    rw [List.map_cons, List.map_cons, List.append_cons, parseScores]
    exact bind_ok_iff.mpr ⟨_, parses target List.mem_cons_self,
      bind_ok_iff.mpr ⟨⟨⟩, require_ok_iff.mpr fresh, tail⟩⟩

/-- The texts of targets parse to their hotkeys and scores. -/
theorem parsePublicScores_scoreSpecs {targets : List (WeightTarget K)}
    (nonempty : targets ≠ [])
    (parses : ∀ target ∈ targets, parseScore floats (scoreSpec floats target) = .ok (scored target))
    (distinct : (targets.map WeightTarget.hotkeySs58).Nodup) :
    parsePublicScores floats (targets.map (scoreSpec floats)) = .ok (targets.map scored) := by
  have keys : Dict.keys ([] ++ targets.map scored) = targets.map WeightTarget.hotkeySs58 := by
    rw [List.nil_append, Dict.keys, List.map_map]
    rfl
  have parsed := parseScores_scoreSpecs parses (keys ▸ distinct)
  exact bind_ok_iff.mpr ⟨_, parsed, bind_ok_iff.mpr ⟨⟨⟩,
    require_ok_iff.mpr fun none => nonempty (List.map_eq_nil_iff.mp none), rfl⟩⟩

end Specs

section Kept

variable {K : Type} [Field K] [LinearOrder K] [Rounding K] {scores : List (Text × K)} {hotkeys : List Text}
  {entries : List (ConformedWeight K)} {targets : List (WeightTarget K)}

theorem scored_eq {entry : ConformedWeight K} {target : WeightTarget K} {value : K}
    (of : TargetOf scores hotkeys entry target value) :
    scored target = (target.hotkeySs58, value) := by
  rw [scored, of.score]
  rfl

theorem map_getElem?_range {α : Type} (xs : List α) :
    (List.range xs.length).map (fun i => xs[i]?) = xs.map some := by
  refine List.ext_getElem (by simp) fun i _ hi => ?_
  rw [List.length_map] at hi
  simp [hi]

/-- The targets are the positive scores at the kept positions. -/
theorem exists_kept (targeted : Targeted scores hotkeys entries targets)
    (positions : (entries.map ConformedWeight.index).Sublist
      (List.range (positiveScores scores).length)) :
    ∃ kept, (targets.map scored).Perm kept ∧ kept.Sublist (positiveScores scores) := by
  obtain ⟨rows, perm, related⟩ := targeted.perm_rows
  have places : (entries.map fun entry => (positiveScores scores)[entry.index]?) =
      (rows.map scored).map some := by
    rw [List.map_map]
    refine map_eq_map_of_forall₂ related fun entry target ⟨value, of⟩ => ?_
    rw [of.position, Function.comp_apply, scored_eq of]
  have sublist := positions.map fun i => (positiveScores scores)[i]?
  rw [List.map_map, map_getElem?_range] at sublist
  have kept := sublist.filterMap id
  rw [show (entries.map ((fun i => (positiveScores scores)[i]?) ∘ ConformedWeight.index)) =
    (rows.map scored).map some from places] at kept
  exact ⟨rows.map scored, perm.map scored, by simpa using kept⟩

theorem scored_positive (targeted : Targeted scores hotkeys entries targets) :
    ∀ entry ∈ targets.map scored, 0 < entry.2 := by
  intro entry hentry
  obtain ⟨target, htarget, rfl⟩ := List.mem_map.mp hentry
  obtain ⟨_, -, value, of⟩ := targeted.exists_entry htarget
  rw [scored_eq of]
  exact (mem_positiveScores.mp (List.mem_of_getElem? of.position)).2

/-- The positive scores that the targets are planned from again. -/
theorem positiveScores_scored_perm (targeted : Targeted scores hotkeys entries targets) :
    (positiveScores (targets.map scored)).Perm (targets.map scored) := by
  have all : (targets.map scored).filter (fun entry => 0 < entry.2) = targets.map scored :=
    List.filter_eq_self.mpr fun entry h => decide_eq_true (scored_positive targeted entry h)
  rw [positiveScores, all]
  exact sortBy_perm _ _ _

/-- Every hotkey with a positive score has a target. -/
def EveryScoreTargeted (scores : List (Text × K)) (targets : List (WeightTarget K)) : Prop :=
  ∀ entry ∈ scores, 0 < entry.2 → entry.1 ∈ targets.map WeightTarget.hotkeySs58

omit [Rounding K] in
/-- Then no positive score is missing among those of the targets. -/
theorem kept_eq_of_targeted (accepted : PublicScores scores) {kept : List (Text × K)}
    (perm : (targets.map scored).Perm kept) (sublist : kept.Sublist (positiveScores scores))
    (every : EveryScoreTargeted scores targets) : kept = positiveScores scores := by
  have within : Dict.keys (positiveScores scores) ⊆ Dict.keys kept := by
    intro hotkey hhotkey
    obtain ⟨entry, hentry, rfl⟩ := List.mem_map.mp hhotkey
    obtain ⟨found, positive⟩ := mem_positiveScores.mp hentry
    obtain ⟨target, htarget, same⟩ := List.mem_map.mp (every entry found positive)
    exact List.mem_map.mpr ⟨scored target, perm.mem_iff.mp (List.mem_map_of_mem htarget), same⟩
  have enough := (List.subperm_of_subset accepted.positive_distinct within).length_le
  rw [Dict.keys, Dict.keys, List.length_map, List.length_map] at enough
  exact sublist.eq_of_length_le enough

/-- When every score is kept, planning again starts from the same positive scores. -/
theorem positiveScores_scored_eq (accepted : PublicScores scores)
    (perm : (targets.map scored).Perm (positiveScores scores))
    (targeted : Targeted scores hotkeys entries targets) :
    positiveScores (targets.map scored) = positiveScores scores := by
  have distinct := accepted.positive_distinct
  have again := (positiveScores_scored_perm targeted).trans perm
  refine again.eq_of_pairwise ?_ (sortBy_pairwise Char.toNat Prod.fst _)
    (sortBy_pairwise Char.toNat Prod.fst _)
  intro x y hx hy hxy hyx
  have keys := lexLe_antisymm (fun _ _ he => Char.toNat_inj.mp he) hxy hyx
  exact List.inj_on_of_nodup_map distinct (again.mem_iff.mp hx) hy keys

end Kept

section Again

variable {K : Type} [Field K] [LinearOrder K] [FloorRing K] [Rounding K] {V : Type}
  [PythonObject V] [PythonFloat V K]

/-- A snapshot that says it is at a block with a hash. -/
structure Pinned (snapshot : Snapshot V) (block : Int) (blockHash : Text) : Prop where
  number : ∃ reply, snapshot.block = .ok reply ∧ PythonObject.int reply = .ok block
  info : ∃ info number, snapshot.blockInfo = .ok info ∧
    fieldText info "hash".toList = .ok blockHash ∧ field info "number".toList = .ok number ∧
      optionalInt number = .ok (some block)
  hash : isBlockHash blockHash = true

/-- A client of the same chain state, at a later block within an age. -/
structure SeenAgain (client client' : Client V) (maxPlanAgeBlocks : Int) : Prop where
  endpoint : client'.endpoint = client.endpoint
  specVersion : client'.specVersion = client.specVersion
  close : client'.close = .ok ()
  later : ∃ reply block snapshot reply' block' snapshot' blockHash,
    client.block = .ok reply ∧ PythonObject.int reply = .ok block ∧
    client.atBlock block = .ok snapshot ∧
    client'.block = .ok reply' ∧ PythonObject.int reply' = .ok block' ∧
    client'.atBlock block' = .ok snapshot' ∧ block ≤ block' ∧ block' - block ≤ maxPlanAgeBlocks ∧
    snapshot'.networksAdded = snapshot.networksAdded ∧ snapshot'.read = snapshot.read ∧
    Pinned snapshot' block' blockHash

omit [Field K] [LinearOrder K] [FloorRing K] [Rounding K] in
theorem targetRow_congr {scores scores' : List (Text × K)} {plan : HotkeyWeightPlan K}
    (same : ∀ hotkey ∈ plan.hotkeys, Dict.get? scores' hotkey = Dict.get? scores hotkey)
    (hotkeys : List Text) (entry : ConformedWeight K) :
    targetRow scores' plan hotkeys entry = targetRow scores plan hotkeys entry := by
  unfold targetRow
  split
  next hotkey share hkey hshare => rw [same hotkey (List.mem_of_getElem? hkey)]
  next => rfl

/-- What is read of the subnet depends on the scores of the planned hotkeys only. -/
theorem readSubnet_again {snapshot snapshot' : Snapshot V} (reads : snapshot'.read = snapshot.read)
    {scores scores' : List (Text × K)} {plan : HotkeyWeightPlan K}
    (same : ∀ hotkey ∈ plan.hotkeys, Dict.get? scores' hotkey = Dict.get? scores hotkey)
    (netuid : Int) (validatorHotkey : Text) :
    readSubnet snapshot' netuid validatorHotkey scores' plan =
      readSubnet snapshot netuid validatorHotkey scores plan := by
  have readback : ∀ metagraph uid, weightReadback (K := K) snapshot' netuid metagraph uid =
      weightReadback snapshot netuid metagraph uid := by
    intro metagraph uid
    simp only [weightReadback, reads]
  have rows : ∀ hotkeys limit, proposedTargets scores' plan hotkeys limit =
      proposedTargets scores plan hotkeys limit := by
    intro hotkeys limit
    have row : targetRow scores' plan hotkeys = targetRow scores plan hotkeys :=
      funext (targetRow_congr same hotkeys)
    simp only [proposedTargets, row]
  simp only [readSubnet, reads, readback, rows]

theorem rateLimitElapsed_later {block block' : Int} (later : block ≤ block')
    {rateLimit lastUpdate : Option Int} (h : rateLimitElapsed block rateLimit lastUpdate = true) :
    rateLimitElapsed block' rateLimit lastUpdate = true := by
  obtain ⟨limit, hlimit, elapsed⟩ := (Option.any_eq_true _ _).mp h
  refine (Option.any_eq_true _ _).mpr ⟨limit, hlimit, ?_⟩
  simp only [Bool.or_eq_true, decide_eq_true_eq, Option.any_eq_true] at elapsed ⊢
  rcases elapsed with zero | ⟨last, hlast, bounds⟩
  · exact .inl zero
  · exact .inr ⟨last, hlast, by omega⟩

variable {floats : FloatText K} {sdkVersion : Text} {netuid : Int} {validatorHotkey : Text}
  {scoreSpecs : List Text} {minimum : Int} {client : Client V}

variable {p : Planning floats sdkVersion netuid validatorHotkey scoreSpecs minimum client}

omit [FloorRing K] in
theorem planHotkeyWeights_of_positive {scores : List (Text × K)} (accepted : PublicScores scores)
    (nonempty : positiveScores scores ≠ []) :
    planHotkeyWeights scores 1 = .ok (sharesOf (positiveScores scores)) := by
  have named : ∀ entry ∈ scores, entry.1 ≠ [] := by
    intro entry hentry none
    have isPublic := accepted.isPublic entry hentry
    rw [none] at isPublic
    cases isPublic
  have enough : ¬ ((positiveScores scores).length : Int) < 1 := by
    have positive := List.length_pos_iff.mpr nonempty
    omega
  refine bind_ok_iff.mpr ⟨⟨⟩, require_ok_iff.mpr le_rfl, bind_ok_iff.mpr ⟨⟨⟩,
    require_ok_iff.mpr named, bind_ok_iff.mpr ⟨⟨⟩, require_ok_iff.mpr accepted.nonnegative, ?_⟩⟩⟩
  dsimp only
  rw [if_neg enough]
  rfl

/-- The header that a client reads of the same state at a later block. -/
theorem readHeader_again {client' : Client V} {maxPlanAgeBlocks : Int}
    (again : SeenAgain client client' maxPlanAgeBlocks) :
    ∃ header' snapshot', readHeader client' = .ok (header', snapshot') ∧
      header'.endpoint = p.header.endpoint ∧ header'.pinned = true ∧
      isBlockHash header'.blockHash = true ∧ p.header.block ≤ header'.block ∧
      header'.block - p.header.block ≤ maxPlanAgeBlocks ∧
      snapshot'.networksAdded = p.snapshot.networksAdded ∧ snapshot'.read = p.snapshot.read := by
  obtain ⟨⟨address, haddress, hendpoint⟩, ⟨reply₀, hreply₀, hblock₀⟩, hsnapshot₀⟩ :=
    readHeader_ok p.headerRead
  obtain ⟨reply, block, snapshot, reply', block', snapshot', blockHash, hreply, hblock, hsnapshot,
    hreply', hblock', hsnapshot', later, age, added, reads, pinned⟩ := again.later
  obtain rfl : reply₀ = reply := Except.ok.inj (hreply₀.symm.trans hreply)
  obtain rfl : p.header.block = block := Except.ok.inj (hblock₀.symm.trans hblock)
  obtain rfl : p.snapshot = snapshot := Except.ok.inj (hsnapshot₀.symm.trans hsnapshot)
  obtain ⟨number, hnumber, hint⟩ := pinned.number
  obtain ⟨info, shown, hinfo, hhash, hshown, hpinned⟩ := pinned.info
  rw [← again.endpoint] at haddress
  refine ⟨⟨p.header.endpoint, block', blockHash, true⟩, snapshot', ?_, rfl, rfl, pinned.hash,
    later, age, added, reads⟩
  simp only [readHeader, bind_ok_iff]
  exact ⟨address, haddress, _, hendpoint, reply', hreply', block', hblock', snapshot', hsnapshot',
    info, hinfo, blockHash, hhash, shown, hshown, some block', hpinned, number, hnumber, block',
    hint, by rw [decide_eq_true ⟨rfl, rfl⟩]; rfl⟩

/-- A digest is taken again where one was taken, at the same runtime version. -/
theorem digest_again (ready : p.report.readyForAuthorizedSubmission = true) {digest : Text}
    (planned : p.report.planDigest = some digest) {header' : SnapshotHeader}
    (errors : headerErrors header' = []) {client' : Client V}
    (versions : client'.specVersion = client.specVersion) :
    ∃ digest', plannedDigest floats client'
        (proposedPayload sdkVersion netuid validatorHotkey header' p.reading) = .ok (some digest') ∧
      runtimeVersion client' 1 = .ok p.runtimeSpecVersion := by
  obtain ⟨minAllowed, limit, rateLimit, hmin, hlimit, hrate⟩ :=
    PlanReadiness.parameters_of_ready ready
  have missing : ¬ (p.reading.hyperparameters.commitReveal = none ∨
      p.reading.hyperparameters.revealPeriod = none) := by
    intro none
    rw [PlanReadiness.digest_none none] at planned
    cases planned
  push Not at missing
  obtain ⟨commitReveal, mode⟩ := Option.ne_none_iff_exists'.mp missing.1
  obtain ⟨revealPeriod, period⟩ := Option.ne_none_iff_exists'.mp missing.2
  have parameters : p.reading.hyperparameters =
      ⟨some minAllowed, some limit, some rateLimit, some commitReveal, some revealPeriod⟩ := by
    rw [← hmin, ← hlimit, ← hrate, ← mode, ← period]
  obtain ⟨version, reported, first, second, -, -⟩ :=
    PlanReadiness.operation_of_ready ready rfl parameters
  have same : ∀ n, runtimeVersion client' n = runtimeVersion client n := by
    intro n
    rw [runtimeVersion, runtimeVersion, versions]
  have proposal : ∃ payload, proposedPayload sdkVersion netuid validatorHotkey header' p.reading =
      some payload := by
    simp [proposedPayload, parameters, (Planning.passed ready).nonempty, errors]
  obtain ⟨payload, hpayload⟩ := proposal
  refine ⟨digestPayload floats (payload version), ?_, ?_⟩
  · rw [hpayload]
    exact bind_ok_iff.mpr ⟨version, (same 0).trans first, rfl⟩
  · have reading := p.versionRead
    have digested : p.digest = some digest := planned
    rw [digested] at reading
    exact (same 1).trans reading

/-- A planning of the same reading at a later block is ready and confirms the first. -/
theorem confirms_again (ready : p.report.readyForAuthorizedSubmission = true)
    {scoreSpecs' : List Text} {minimum' : Int} {client' : Client V}
    (q : Planning floats sdkVersion netuid validatorHotkey scoreSpecs' minimum' client')
    (planned : q.proposed.planned = true) (reading : q.reading = p.reading)
    (endpoint : q.header.endpoint = p.header.endpoint) (pinned : q.header.pinned = true)
    (blockHash : isBlockHash q.header.blockHash = true)
    (version : q.runtimeSpecVersion = p.runtimeSpecVersion)
    (later : p.header.block ≤ q.header.block) {maxPlanAgeBlocks : Int}
    (age : q.header.block - p.header.block ≤ maxPlanAgeBlocks) :
    Confirms p.report q.report maxPlanAgeBlocks := by
  have passed := Planning.passed ready
  have gates := passed.gates
  simp only [WeightPlanGates.all, planGates, Bool.and_eq_true] at gates
  obtain ⟨⟨⟨⟨⟨⟨⟨⟨canonical, -⟩, -⟩, registered⟩, authorized⟩, known⟩, rate⟩, recipients⟩, limited⟩ :=
    gates
  have elapsed := rateLimitElapsed_later later rate
  have errors : headerErrors q.header = [] := by
    rw [headerErrors, endpoint, if_pos (of_decide_eq_true canonical), if_pos blockHash]
    rfl
  have all : (planGates q.header true q.reading).all = true := by
    rw [WeightPlanGates.all, planGates, reading, endpoint, canonical, pinned, registered,
      authorized, known, elapsed, recipients, limited]
    rfl
  refine ⟨?_, errors, ⟨p.header.block, q.header.block, rfl, rfl, later, age⟩, ?_, ?_⟩
  · rw [Planning.report, reportOf, planned, all, errors, blockHash]
    rfl
  · simp only [invariantFields, Planning.report, reportOf, reading, endpoint, version]
  · rw [Planning.report, Planning.report, reportOf, reportOf, reading]

/-- The planning that a submission of a source makes, and the comparison with it. -/
def reconfirm (floats : FloatText K) (sdkVersion : Text) (source : TestnetWeightPlanReport K)
    (factory : Except Raised (Client V)) (maxPlanAgeBlocks : Int) : Except Raised PUnit := do
  let fresh ← collectTestnetWeightPlan floats sdkVersion source.netuid source.validatorHotkeySs58
    (source.targets.map (scoreSpec floats)) 1 factory
  requireFreshEquivalentPlan source fresh maxPlanAgeBlocks

/-- When every score is kept, the scores of the targets give the same plan. -/
theorem planned_again (ready : p.report.readyForAuthorizedSubmission = true)
    {hotkeys : List Text} {entries : List (ConformedWeight K)}
    (targeted : Targeted p.scores hotkeys entries p.reading.targets)
    (perm : (p.reading.targets.map scored).Perm (positiveScores p.scores))
    (accepted : PublicScores (p.reading.targets.map scored)) :
    planHotkeyWeights (p.reading.targets.map scored) 1 = .ok p.proposed ∧
      ∀ hotkey ∈ p.proposed.hotkeys,
        Dict.get? (p.reading.targets.map scored) hotkey = Dict.get? p.scores hotkey := by
  have parsed := parsePublicScores_public p.parsed
  have planned : p.proposed.planned = true := by
    simp only [Planning.report, reportOf, Bool.and_eq_true] at ready
    exact ready.1.1.1
  have shares := planHotkeyWeights_planned p.planned planned
  have positive := positiveScores_scored_eq parsed perm targeted
  constructor
  · rw [shares, ← positive]
    refine planHotkeyWeights_of_positive accepted fun none => ?_
    rw [positive] at none
    rw [none] at perm
    exact (Planning.passed ready).nonempty (List.map_eq_nil_iff.mp (List.perm_nil.mp perm))
  · intro hotkey hhotkey
    rw [shares] at hhotkey
    obtain ⟨⟨key, value⟩, hentry, rfl⟩ := List.mem_map.mp hhotkey
    rw [(Dict.get?_eq_some_iff parsed.distinct).mpr (mem_positiveScores.mp hentry).1]
    exact (Dict.get?_eq_some_iff accepted.distinct).mpr (perm.mem_iff.mpr hentry)

theorem parses_again {hotkeys : List Text} {entries : List (ConformedWeight K)}
    (targeted : Targeted p.scores hotkeys entries p.reading.targets)
    (readsBack : ∀ target ∈ p.reading.targets, ReadsBack floats target) :
    ∀ target ∈ p.reading.targets,
      parseScore floats (scoreSpec floats target) = .ok (scored target) := by
  intro target htarget
  have parsed := parsePublicScores_public p.parsed
  obtain ⟨_, -, value, of⟩ := targeted.exists_entry htarget
  have hentry := (mem_positiveScores.mp (List.mem_of_getElem? of.position)).1
  exact parseScore_scoreSpec (parsed.isPublic _ hentry) of.score (parsed.nonnegative _ hentry)
    (readsBack target htarget)

/-- The totals of all scores and of the targets' own give each target one planned weight. -/
def SameShares (scores : List (Text × K)) (targets : List (WeightTarget K)) : Prop :=
  ∀ target ∈ targets, ∃ value, target.score = .finite value ∧
    rounded (value / fsum ((positiveScores scores).map Prod.snd)) =
      rounded (value / fsum ((positiveScores (targets.map scored)).map Prod.snd))

variable {source : TestnetWeightPlanReport K} {digest : Text} {client' : Client V}
  {maxPlanAgeBlocks : Int}

/-- A fresh plan that confirms a planning shows the planned weights of the smaller total. -/
theorem sameShares_of_confirms {hotkeys : List Text} {entries : List (ConformedWeight K)}
    (targeted : Targeted p.scores hotkeys entries p.reading.targets)
    {scoreSpecs' : List Text} {minimum' : Int}
    {q : Planning floats sdkVersion netuid validatorHotkey scoreSpecs' minimum' client'}
    (again : q.scores = p.reading.targets.map scored)
    (confirms : Confirms p.report q.report maxPlanAgeBlocks) :
    SameShares p.scores p.reading.targets := by
  obtain ⟨metagraph', hotkeys', shown'⟩ := q.exists_shown
  obtain ⟨limit', entries', -, -, targeted'⟩ := q.targeted confirms.ready shown'
  have same : p.reading.targets = q.reading.targets := confirms.targets
  rw [← same] at targeted'
  intro target htarget
  obtain ⟨_, -, value, of⟩ := targeted.exists_entry htarget
  obtain ⟨_, -, value', of'⟩ := targeted'.exists_entry htarget
  obtain rfl : value = value' := Number.finite.inj (of.score.symm.trans of'.score)
  rw [← again]
  exact ⟨value, of.score, Number.finite.inj (of.plannedWeight.symm.trans of'.plannedWeight)⟩

/-- The scores of the targets are parsed from their texts. -/
theorem parsed_again (ready : p.report.readyForAuthorizedSubmission = true)
    (readsBack : ∀ target ∈ p.reading.targets, ReadsBack floats target) :
    parsePublicScores floats (p.reading.targets.map (scoreSpec floats)) =
      .ok (p.reading.targets.map scored) := by
  obtain ⟨metagraph, hotkeys, shown⟩ := p.exists_shown
  obtain ⟨limit, entries, -, conforms, targeted⟩ := p.targeted ready shown
  have distinct := targeted.hotkeys_nodup (parsePublicScores_public p.parsed)
    ((conformWeightVector_positions conforms).nodup List.nodup_range)
  exact parsePublicScores_scoreSpecs (Planning.passed ready).nonempty
    (parses_again targeted readsBack) distinct

/-- However the floats are rounded, planning an unchanged chain again confirms a
plan that has a target for every positive score. -/
theorem reconfirm_of_targeted
    (ready : p.report.readyForAuthorizedSubmission = true)
    (valid : validatedPlanDigest floats p.report = .ok digest)
    (readsBack : ∀ target ∈ p.reading.targets, ReadsBack floats target)
    (again : SeenAgain client client' maxPlanAgeBlocks)
    (every : EveryScoreTargeted p.scores p.reading.targets) :
    reconfirm floats sdkVersion p.report (.ok client') maxPlanAgeBlocks = .ok ⟨⟩ := by
  obtain ⟨metagraph, hotkeys, shown⟩ := p.exists_shown
  obtain ⟨limit, entries, limited, conforms, targeted⟩ := p.targeted ready shown
  have positions := conformWeightVector_positions conforms
  rw [sharesOf, List.length_map] at positions
  have parses := parsed_again ready readsBack
  obtain ⟨kept, perm, sublist⟩ := exists_kept targeted positions
  obtain rfl := kept_eq_of_targeted (parsePublicScores_public p.parsed) perm sublist every
  obtain ⟨plans, same⟩ := planned_again ready targeted perm (parsePublicScores_public parses)
  obtain ⟨header', snapshot', headerRead, endpoint, pinned, blockHash, later, age, added, reads⟩ :=
    readHeader_again (p := p) again
  have canonical : p.header.endpoint = testnetEndpoint := by
    have gates := (Planning.passed ready).gates
    simp only [WeightPlanGates.all, planGates, Bool.and_eq_true] at gates
    exact of_decide_eq_true gates.1.1.1.1.1.1.1.1
  have errors : headerErrors header' = [] := by
    rw [headerErrors, endpoint, if_pos canonical, if_pos blockHash]
    rfl
  obtain ⟨payload, weights, accepts⟩ := validatedPlanDigest_ok_iff.mp valid
  obtain ⟨digest', digested, versionRead⟩ := digest_again ready
    (PlanReadiness.planDigest_of_complete accepts.complete) errors again.specVersion
  have unscored : validatorHotkey ∉ Dict.keys (p.reading.targets.map scored) := by
    intro h
    obtain ⟨entry, hentry, rfl⟩ := List.mem_map.mp h
    exact p.unscored (List.mem_map_of_mem
      (mem_positiveScores.mp (perm.mem_iff.mp hentry)).1)
  have exists' : testnetSubnetExists snapshot' netuid = .ok true := by
    rw [testnetSubnetExists, added]
    exact p.added
  let q : Planning floats sdkVersion netuid validatorHotkey
      (p.reading.targets.map (scoreSpec floats)) 1 client' :=
    ⟨_, p.proposed, header', snapshot', p.reading, some digest', p.runtimeSpecVersion,
      p.netuidRange, p.validator, parses, unscored, plans, headerRead, exists',
      (readSubnet_again reads same netuid validatorHotkey).trans p.subnetRead, digested,
      versionRead⟩
  have planned : p.proposed.planned = true := by
    simp only [Planning.report, reportOf, Bool.and_eq_true] at ready
    exact ready.1.1.1
  exact bind_ok_iff.mpr ⟨q.report, q.collected le_rfl again.close,
    requireFreshEquivalentPlan_ok_iff.mpr
      (confirms_again ready q planned rfl endpoint pinned blockHash rfl later age)⟩

theorem sameShares_of_reconfirm (ready : p.report.readyForAuthorizedSubmission = true)
    (readsBack : ∀ target ∈ p.reading.targets, ReadsBack floats target)
    (confirmed : reconfirm floats sdkVersion p.report (.ok client') maxPlanAgeBlocks = .ok ⟨⟩) :
    SameShares p.scores p.reading.targets := by
  obtain ⟨fresh, collected, compared⟩ := bind_ok confirmed
  have confirms := requireFreshEquivalentPlan_ok_iff.mp compared
  obtain ⟨_, ⟨⟩, q, rfl⟩ := exists_planning collected confirms.ready
  have scores : q.scores = p.reading.targets.map scored :=
    Except.ok.inj (q.parsed.symm.trans (parsed_again ready readsBack))
  obtain ⟨metagraph, hotkeys, shown⟩ := p.exists_shown
  obtain ⟨limit, entries, -, -, targeted⟩ := p.targeted ready shown
  exact sameShares_of_confirms targeted scores confirms

/-- However the floats are rounded, planning an unchanged chain again confirms a
plan that has a target for every positive score; and a plan is confirmed only
when the scores without a target are lost in the rounding of every share. -/
theorem replan_confirms
    (collected : collectTestnetWeightPlan floats sdkVersion netuid validatorHotkey scoreSpecs
      minimum (.ok client) = .ok source)
    (ready : source.readyForAuthorizedSubmission = true)
    (valid : validatedPlanDigest floats source = .ok digest)
    (readsBack : ∀ target ∈ source.targets, ReadsBack floats target)
    (again : SeenAgain client client' maxPlanAgeBlocks) :
    ∃ scores, parsePublicScores floats scoreSpecs = .ok scores ∧
      (EveryScoreTargeted scores source.targets →
        reconfirm floats sdkVersion source (.ok client') maxPlanAgeBlocks = .ok ⟨⟩) ∧
      (reconfirm floats sdkVersion source (.ok client') maxPlanAgeBlocks = .ok ⟨⟩ →
        SameShares scores source.targets) := by
  obtain ⟨_, ⟨⟩, p, rfl⟩ := exists_planning collected ready
  exact ⟨p.scores, p.parsed, reconfirm_of_targeted ready valid readsBack again,
    sameShares_of_reconfirm ready readsBack⟩

end Again

/-! In exact arithmetic nothing is lost: shares of two totals differ. -/
section Exact

variable {K : Type} [Field K] [LinearOrder K] [IsStrictOrderedRing K] [FloorRing K] {V : Type}
  [PythonObject V] [PythonFloat V K] {floats : FloatText K} {sdkVersion : Text} {netuid : Int}
  {validatorHotkey : Text} {scoreSpecs : List Text} {minimum : Int} {client : Client V}
  {p : Planning floats sdkVersion netuid validatorHotkey scoreSpecs minimum client}

omit [FloorRing K] in
theorem eq_of_sublist_of_sum {kept all : List (Text × K)}
    (sublist : kept.Sublist all) (positive : ∀ entry ∈ all, 0 < entry.2)
    (sum : (kept.map Prod.snd).sum = (all.map Prod.snd).sum) : kept = all := by
  have bound : ∀ {kept all : List (Text × K)}, kept.Sublist all → (∀ entry ∈ all, 0 < entry.2) →
      (kept.map Prod.snd).sum ≤ (all.map Prod.snd).sum := fun sublist positive =>
    (sublist.map Prod.snd).sum_le_sum fun x hx => by
      obtain ⟨entry, hentry, rfl⟩ := List.mem_map.mp hx
      exact (positive entry hentry).le
  induction sublist with
  | slnil => rfl
  | cons a rest ih =>
    have more := bound rest fun entry h => positive entry (List.mem_cons_of_mem _ h)
    have first := positive a List.mem_cons_self
    rw [List.map_cons, List.sum_cons] at sum
    linarith
  | cons_cons a rest ih =>
    rw [List.map_cons, List.map_cons, List.sum_cons, List.sum_cons] at sum
    rw [ih (fun entry h => positive entry (List.mem_cons_of_mem _ h)) (add_left_cancel sum)]

theorem everyScoreTargeted_of_sameShares (ready : p.report.readyForAuthorizedSubmission = true)
    (same : SameShares p.scores p.reading.targets) :
    EveryScoreTargeted p.scores p.reading.targets := by
  obtain ⟨metagraph, hotkeys, shown⟩ := p.exists_shown
  obtain ⟨limit, entries, -, conforms, targeted⟩ := p.targeted ready shown
  have positions := conformWeightVector_positions conforms
  rw [sharesOf, List.length_map] at positions
  obtain ⟨kept, perm, sublist⟩ := exists_kept targeted positions
  have planned := (positiveScores_scored_perm targeted).trans perm
  obtain ⟨target, htarget⟩ := List.exists_mem_of_ne_nil _ (Planning.passed ready).nonempty
  obtain ⟨_, -, value, of⟩ := targeted.exists_entry htarget
  obtain ⟨value', score, share⟩ := same target htarget
  obtain rfl : value = value' := Number.finite.inj (of.score.symm.trans score)
  obtain ⟨positive, total⟩ := PlanReadiness.score_sum_pos of.position
  rw [rounded_exact, rounded_exact, fsum_exact, fsum_exact, (planned.map Prod.snd).sum_eq] at share
  have totals : (kept.map Prod.snd).sum = ((positiveScores p.scores).map Prod.snd).sum := by
    have zero : (kept.map Prod.snd).sum ≠ 0 := by
      intro none
      rw [none, div_zero] at share
      exact (div_pos positive total).ne' share
    rw [div_eq_div_iff total.ne' zero] at share
    exact mul_left_cancel₀ positive.ne' share
  obtain rfl := eq_of_sublist_of_sum sublist (fun entry h => (mem_positiveScores.mp h).2) totals
  intro entry hentry some
  have found := perm.mem_iff.mpr (mem_positiveScores.mpr ⟨hentry, some⟩)
  obtain ⟨target, htarget, rfl⟩ := List.mem_map.mp found
  exact List.mem_map_of_mem htarget

/-- In exact arithmetic, planning again confirms a plan exactly when every positive
score has a target. -/
theorem reconfirm_iff_targeted {digest : Text} {client' : Client V} {maxPlanAgeBlocks : Int}
    (ready : p.report.readyForAuthorizedSubmission = true)
    (valid : validatedPlanDigest floats p.report = .ok digest)
    (readsBack : ∀ target ∈ p.reading.targets, ReadsBack floats target)
    (again : SeenAgain client client' maxPlanAgeBlocks) :
    reconfirm floats sdkVersion p.report (.ok client') maxPlanAgeBlocks = .ok ⟨⟩ ↔
      EveryScoreTargeted p.scores p.reading.targets :=
  ⟨fun confirmed => everyScoreTargeted_of_sameShares ready
      (sameShares_of_reconfirm ready readsBack confirmed),
    reconfirm_of_targeted ready valid readsBack again⟩

end Exact

/-- The place of the leading binary digit. -/
def magnitude (x : ℚ) : Int :=
  let estimate := (Nat.log2 x.num.natAbs : Int) - Nat.log2 x.den
  if (2 : ℚ) ^ estimate ≤ |x| then estimate else estimate - 1

/-- The rounding of binary64 below its overflow: to the nearest multiple of the
last of 53 digits, or of the least subnormal, ties to even. -/
@[reducible] def binary64 : Rounding ℚ where
  round x :=
    let unit := (2 : ℚ) ^ max (magnitude x - 52) (-1074)
    roundHalfEven (x / unit) * unit

namespace Sample

open PlanReadiness.Sample

theorem parameters_reported : chainHyperparameters (client reported 100) 7 =
    .ok ⟨some 1, some 65535, some 20, some false, some 1⟩ := by
  rfl

theorem seenAgain : SeenAgain (client reported 100) (client reported 104) 12 where
  endpoint := rfl
  specVersion := rfl
  close := rfl
  later := ⟨_, 100, snapshot reported 100, _, 104, snapshot reported 104,
    "0x".toList ++ List.replicate 64 '0', rfl, rfl, rfl, rfl, rfl, rfl, by decide, by decide, rfl,
    rfl, ⟨⟨_, rfl, rfl⟩, ⟨_, _, rfl, rfl, rfl, rfl⟩, by decide⟩⟩

variable [Rounding ℚ]

/-- What a verifier checks of the targets of a plan. -/
def vectorPasses (report : TestnetWeightPlanReport ℚ) : Except Raised Unit := do
  let weights ← report.targets.mapM (checkTarget validator)
  checkVector report.targets weights 65535

/-- Whether a report is ready with a vector that passes, and its scores are read back. -/
def isAccepted (report : TestnetWeightPlanReport ℚ) : Bool :=
  (report.readyForAuthorizedSubmission && (vectorPasses report).toOption.isSome) &&
    report.targets.all fun target =>
      decide ((floats.parse (floats.repr target.score)).toOption = some target.score)

/-- The ready plans of the sample are accepted when their vectors pass. -/
theorem valid_of_ready {first : String} {source : TestnetWeightPlanReport ℚ}
    (collected : collect first reported = .ok source)
    (ready : source.readyForAuthorizedSubmission = true)
    (passes : (vectorPasses source).toOption.isSome = true) :
    ∃ digest, validatedPlanDigest floats source = .ok digest := by
  obtain ⟨_, ⟨⟩, p, rfl⟩ := exists_planning collected ready
  obtain ⟨metagraph, hotkeys, shown⟩ := p.exists_shown
  have parameters := Except.ok.inj (shown.parameters.symm.trans parameters_reported)
  obtain ⟨reply, hreply, hblock⟩ := (readHeader_ok p.headerRead).block
  cases hreply
  have block : (100 : Int) = p.header.block := Except.ok.inj hblock
  cases passed : vectorPasses p.report with
  | error e =>
    rw [passed] at passes
    cases passes
  | ok _ =>
    obtain ⟨weights, checked, vector⟩ := bind_ok passed
    refine PlanReadiness.accepted_of_vector ready (by omega) ?_ rfl (by rw [parameters]) checked vector
    rw [parameters]
    refine ⟨?_, ?_, rfl, 1, rfl, by decide⟩
    · rintro n ⟨⟩
      decide
    · rintro n ⟨⟩
      decide

theorem of_isAccepted {first : String} {source : TestnetWeightPlanReport ℚ}
    (collected : collect first reported = .ok source) (h : isAccepted source = true) :
    source.readyForAuthorizedSubmission = true ∧
      (∃ digest, validatedPlanDigest floats source = .ok digest) ∧
      ∀ target ∈ source.targets, ReadsBack floats target := by
  simp only [isAccepted, Bool.and_eq_true, List.all_eq_true, decide_eq_true_eq] at h
  obtain ⟨⟨ready, passes⟩, reads⟩ := h
  refine ⟨ready, valid_of_ready collected ready passes, fun target htarget => ?_⟩
  have parses := reads target htarget
  unfold ReadsBack
  cases parsed : floats.parse (floats.repr target.score) with
  | error e =>
    rw [parsed] at parses
    cases parses
  | ok score =>
    rw [parsed] at parses
    rw [Option.some.inj parses]

end Sample

/-! The samples are computed in binary64. -/
section Binary64

open PlanReadiness.Sample

attribute [local instance] binary64

/-- Two equal scores keep their targets, and the plan is confirmed. -/
theorem replan_confirms_kept : ∃ source, collect "1.0" reported = .ok source ∧
    reconfirm floats "11.1.0".toList source (.ok (client reported 104)) 12 = .ok ⟨⟩ := by
  obtain ⟨source, collected, shown⟩ := collect_satisfies "1.0" reported
    (fun source => Sample.isAccepted source &&
      decide (source.targets.map WeightTarget.hotkeySs58 = [hotkey 'B', hotkey 'C']))
    (by decide +kernel)
  obtain ⟨accepted, targets⟩ := Bool.and_eq_true_iff.mp shown
  obtain ⟨ready, ⟨digest, valid⟩, readsBack⟩ := Sample.of_isAccepted collected accepted
  obtain ⟨scores, parsed, confirms, -⟩ :=
    replan_confirms collected ready valid readsBack Sample.seenAgain
  have known : parsePublicScores floats (scoreSpecs "1.0") =
      .ok [(hotkey 'B', 1), (hotkey 'C', 1)] := by decide +kernel
  obtain rfl := Except.ok.inj (parsed.symm.trans known)
  refine ⟨source, collected, confirms ?_⟩
  unfold EveryScoreTargeted
  rw [of_decide_eq_true targets]
  decide +kernel

/-- A second score of less than half a unit is dropped, and the plan is refused as changed. -/
theorem dropped_score_refused : ∃ source digest, collect "131071.0" reported = .ok source ∧
    source.readyForAuthorizedSubmission = true ∧
    validatedPlanDigest floats source = .ok digest ∧
    (∀ target ∈ source.targets, ReadsBack floats target) ∧
    SeenAgain (client reported 100) (client reported 104) 12 ∧
    reconfirm floats "11.1.0".toList source (.ok (client reported 104)) 12 ≠ .ok ⟨⟩ := by
  obtain ⟨source, collected, shown⟩ := collect_satisfies "131071.0" reported
    (fun source => Sample.isAccepted source &&
      (reconfirm floats "11.1.0".toList source (.ok (client reported 104)) 12).toOption.isNone)
    (by decide +kernel)
  obtain ⟨accepted, refused⟩ := Bool.and_eq_true_iff.mp shown
  obtain ⟨ready, ⟨digest, valid⟩, readsBack⟩ := Sample.of_isAccepted collected accepted
  refine ⟨source, digest, collected, ready, valid, readsBack, Sample.seenAgain, fun passes => ?_⟩
  rw [passes] at refused
  cases refused

/-- A second score that the total does not show is dropped, and the plan is confirmed. -/
theorem absorbed_score_confirmed : ∃ source, collect "1e+20" reported = .ok source ∧
    source.readyForAuthorizedSubmission = true ∧
    source.targets.map WeightTarget.hotkeySs58 = [hotkey 'B'] ∧
    reconfirm floats "11.1.0".toList source (.ok (client reported 104)) 12 = .ok ⟨⟩ := by
  obtain ⟨source, collected, shown⟩ := collect_satisfies "1e+20" reported
    (fun source => source.readyForAuthorizedSubmission &&
      decide (source.targets.map WeightTarget.hotkeySs58 = [hotkey 'B']) &&
      (reconfirm floats "11.1.0".toList source (.ok (client reported 104)) 12).toOption.isSome)
    (by decide +kernel)
  simp only [Bool.and_eq_true, decide_eq_true_eq] at shown
  obtain ⟨⟨ready, targets⟩, confirmed⟩ := shown
  refine ⟨source, collected, ready, targets, ?_⟩
  cases outcome : reconfirm floats "11.1.0".toList source (.ok (client reported 104)) 12 with
  | error e =>
    rw [outcome] at confirmed
    cases confirmed
  | ok _ => rfl

end Binary64

end PlanConfirmation
