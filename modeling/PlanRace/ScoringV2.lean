import PlanRace.CanonicalJson
import PlanRace.Library.Grouping
import PlanRace.Library.Statistics
import Mathlib.Algebra.Order.Floor.Semiring
import Mathlib.Analysis.SpecialFunctions.Log.Basic

/-!
# Task rewards, deduplication and aggregation

The multi-epoch part of the scorer over an arbitrary ordered field, so that the
same definitions run on rationals and are reasoned about over the reals.
Square root, exponential and logarithm are operations of the field.
-/

namespace ScoringV2

open JsonText LexOrder CanonicalJson Grouping Statistics

/-- `math.sqrt`, `math.exp` and `math.log`. -/
class RealFunctions (K : Type) where
  sqrt : K → K
  exp : K → K
  log : K → K

noncomputable instance : RealFunctions ℝ := ⟨Real.sqrt, Real.exp, Real.log⟩

inductive ScoringError where
  | noValues
  | winsorFraction
  | minimumWidth
  | noObservations
  | mixedMiners
  | outsideSchedule
  | scheduleMismatch
  | duplicateScheduledTask
  | inconsistentMetadata
  | duplicateMinerObservation
  | inconsistentEvidence
  | invalidRoster
  | outsideRoster
  | concentrationCap
  | invalidWeights
  /-- Raised by Python itself: `min` of nothing, a missing key, a zero divisor. -/
  | emptyMinimum
  | keyError
  | zeroDivision
deriving DecidableEq

def ScoringError.text : ScoringError → Text
  | noValues => "at least one value is required".toList
  | winsorFraction => "winsor fraction must be in [0, 0.5)".toList
  | minimumWidth => "minimum_width must be non-negative".toList
  | noObservations => "observations cannot be empty".toList
  | mixedMiners => "observations must belong to one miner".toList
  | outsideSchedule => "observation is outside the precommitted task schedule".toList
  | scheduleMismatch => "observation does not match its scheduled task".toList
  | duplicateScheduledTask => "duplicate observation for one scheduled task".toList
  | inconsistentMetadata => "task_id maps to inconsistent schedule metadata".toList
  | duplicateMinerObservation => "duplicate miner observation for one task strategy".toList
  | inconsistentEvidence => "cached duplicate strategy evidence is inconsistent".toList
  | invalidRoster => "miner_ids must be unique and non-empty".toList
  | outsideRoster => "observation belongs to a miner outside the declared roster".toList
  | concentrationCap => "not enough recipients to satisfy the concentration cap".toList
  | invalidWeights => "weights must be finite and non-negative".toList
  | emptyMinimum => "min() iterable argument is empty".toList
  | keyError => "key error".toList
  | zeroDivision => "float division by zero".toList

section Averages

variable {K : Type} [Field K] [LinearOrder K]

def winsorWidth [FloorSemiring K] (count : Nat) (fraction : K) (minimumWidth : Nat) : Nat :=
  min (max ⌊(count : K) * fraction⌋₊ (if fraction = 0 then 0 else minimumWidth)) ((count - 1) / 2)

/-- The mean of values clipped to the order statistics `width` from both ends. -/
def clippedMean (values : List K) (width : Nat) : K :=
  let ordered := sorted values
  if width = 0 then fmean ordered
  else
    let lower := ordered.getD width 0
    let upper := ordered.getD (ordered.length - width - 1) 0
    fmean (ordered.map fun value => min upper (max lower value))

/-- `_winsorized_mean`. -/
def winsorizedMean [FloorSemiring K] (values : List K) (fraction : K) (minimumWidth : Int) :
    Except ScoringError K :=
  if values = [] then .error .noValues
  else if ¬ (0 ≤ fraction ∧ fraction < 1 / 2) then .error .winsorFraction
  else if minimumWidth < 0 then .error .minimumWidth
  else .ok (clippedMean values (winsorWidth values.length fraction minimumWidth.toNat))

/-- Its checks pass on values and a fraction within their bounds. -/
theorem winsorizedMean_eq [FloorSemiring K] {values : List K} {fraction : K}
    (nonempty : values ≠ []) (bounds : 0 ≤ fraction ∧ fraction < 1 / 2) (minimumWidth : Nat) :
    winsorizedMean values fraction minimumWidth =
      .ok (clippedMean values (winsorWidth values.length fraction minimumWidth)) := by
  unfold winsorizedMean
  rw [if_neg nonempty, if_neg (not_not.mpr bounds), if_neg (by omega), Int.toNat_natCast]

/-- `_robust_standard_error`. -/
def robustStandardError [RealFunctions K] (values : List K) : K :=
  if values.length < 2 then 0
  else
    let center := median values
    let mad := median (values.map fun value => |value - center|)
    14826 / 10000 * mad / RealFunctions.sqrt (values.length : K)

end Averages

section Observations

variable (K : Type) [Field K] [LinearOrder K]

structure EpochObservation where
  minerId : Text
  epoch : Nat
  family : Text
  taskId : Text
  taskCommitment : Text
  evidenceDigest : Text
  reward : K
  available : Bool
  correct : Bool
  compliant : Bool
  strategyDigest : Text
  behaviorDigest : Text
  duplicateGroupSize : Nat := 1
  /-- Identity, task, evidence and strategy are present. -/
  identified : minerId ≠ [] ∧ family ≠ [] ∧ taskId ≠ [] ∧ taskCommitment ≠ [] ∧
    evidenceDigest ≠ [] ∧ strategyDigest ≠ [] ∧ behaviorDigest ≠ []
  rewardBounds : 0 ≤ reward ∧ reward ≤ 100
  groupSizePositive : 1 ≤ duplicateGroupSize

theorem one_member : 1 ≤ 1 := le_refl 1

structure ScheduledTask where
  epoch : Nat
  family : Text
  taskId : Text
  taskCommitment : Text
  identified : family ≠ [] ∧ taskId ≠ [] ∧ taskCommitment ≠ []

structure AggregationPolicy where
  requiredFamilies : List Text
  taskSchedule : List ScheduledTask
  minimumTasks : Int := 12
  minimumTasksPerFamily : Int := 2
  minimumAvailability : K := 75 / 100
  minimumCompliance : K := 95 / 100
  minimumCorrectness : K := 95 / 100
  winsorFraction : K := 1 / 10
  confidenceZ : K := 1
  maximumWeight : K := 1 / 4
  minimumDistinctStrategies : Int := 5
  familiesUnique : requiredFamilies ≠ [] ∧ requiredFamilies.Nodup
  scheduled : taskSchedule ≠ []
  scheduleUnique : (taskSchedule.map ScheduledTask.taskId).Nodup ∧
    (taskSchedule.map ScheduledTask.taskCommitment).Nodup ∧
    (taskSchedule.map ScheduledTask.epoch).Nodup
  scheduleFamilies : ∀ t ∈ taskSchedule, t.family ∈ requiredFamilies
  tasksPerFamilyPositive : 1 ≤ minimumTasksPerFamily
  quotas : requiredFamilies.length ≤ minimumTasks ∧
    minimumTasksPerFamily * requiredFamilies.length ≤ minimumTasks ∧
    minimumTasks ≤ taskSchedule.length
  familyQuota : ∀ family ∈ requiredFamilies,
    minimumTasksPerFamily ≤ (taskSchedule.map ScheduledTask.family).count family
  gateBounds : (0 ≤ minimumAvailability ∧ minimumAvailability ≤ 1) ∧
    (0 ≤ minimumCompliance ∧ minimumCompliance ≤ 1) ∧
    (0 ≤ minimumCorrectness ∧ minimumCorrectness ≤ 1)
  winsorBounds : 0 ≤ winsorFraction ∧ winsorFraction < 1 / 2
  zNonnegative : 0 ≤ confidenceZ
  weightBounds : 0 < maximumWeight ∧ maximumWeight ≤ 1
  strategiesPositive : 1 ≤ minimumDistinctStrategies

inductive FailureCode where
  | insufficientTasks
  | insufficientFamilyTasks
  | availabilityGate
  | complianceGate
  | correctnessGate
  | worstFamilyGate
  | noRobustImprovement
deriving DecidableEq

def FailureCode.text : FailureCode → Text
  | insufficientTasks => "insufficient_tasks".toList
  | insufficientFamilyTasks => "insufficient_family_tasks".toList
  | availabilityGate => "availability_gate".toList
  | complianceGate => "compliance_gate".toList
  | correctnessGate => "correctness_gate".toList
  | worstFamilyGate => "worst_family_gate".toList
  | noRobustImprovement => "no_robust_improvement".toList

structure MinerAggregate where
  minerId : Text
  eligible : Bool
  reward : K
  center : K
  uncertainty : K
  availability : K
  compliance : K
  correctness : K
  taskCount : Nat
  familyScores : List (Text × K)
  strategyDigest : Text
  behaviorDigest : Text
  failureCode : Option FailureCode

end Observations

section Deduplicate

variable {K : Type} [Field K] [LinearOrder K]

namespace EpochObservation

def metadata (o : EpochObservation K) : Nat × Text × Text := (o.epoch, o.family, o.taskCommitment)

/-- Available, compliant and correct: the observation shares a cached score. -/
def accepted (o : EpochObservation K) : Bool := o.available && o.compliant && o.correct

/-- The key of the cached score. -/
def cacheKey (o : EpochObservation K) : Text × Text := (o.taskCommitment, o.strategyDigest)

/-- `replace(member, reward=reward / size, duplicate_group_size=size)`. -/
def share [IsStrictOrderedRing K] (o : EpochObservation K) (reward : K)
    (bounds : 0 ≤ reward ∧ reward ≤ 100) (size : Nat) (positive : 1 ≤ size) : EpochObservation K :=
  { o with
    reward := reward / size
    duplicateGroupSize := size
    rewardBounds := by
      have hone : (1 : K) ≤ size := by exact_mod_cast positive
      have hsize : (0 : K) < size := lt_of_lt_of_le one_pos hone
      exact ⟨div_nonneg bounds.1 hsize.le, (div_le_self bounds.1 hone).trans bounds.2⟩
    groupSizePositive := positive }

end EpochObservation

theorem size_positive (first : EpochObservation K) (rest : List (EpochObservation K)) :
    1 ≤ (first :: rest).length := Nat.le_add_left 1 rest.length

/-- A text as a sequence of positive ranks, so that 0 can end it. -/
def textKey (t : Text) : List Nat := t.map fun c => c.toNat + 1

/-- The sort key `(item.miner_id, item.epoch)`. -/
def observationKey (o : EpochObservation K) : List Nat := textKey o.minerId ++ [0, o.epoch]

/-- `groups`: the accepted observations by cached score. -/
def cacheGroups (observations : List (EpochObservation K)) :
    List ((Text × Text) × List (EpochObservation K)) :=
  groupBy EpochObservation.cacheKey (observations.filter EpochObservation.accepted)

variable [IsStrictOrderedRing K]

/-- One group of a cached score: the first reward is split evenly. -/
def shareGroup : List (EpochObservation K) → Except ScoringError (List (EpochObservation K))
  | [] => .ok []
  | first :: rest =>
    let members := first :: rest
    let rewards := members.map EpochObservation.reward
    if ¬ (members.map EpochObservation.minerId).Nodup then .error .duplicateMinerObservation
    else if (members.any fun m => decide (m.evidenceDigest ≠ first.evidenceDigest)) ∨
        1 / 10 ^ 9 < rewards.foldl max first.reward - rewards.foldl min first.reward then
      .error .inconsistentEvidence
    else
      .ok (members.map fun m =>
        m.share first.reward first.rewardBounds members.length (by simp [members]))

def deduplicateTaskRewards (observations : List (EpochObservation K)) :
    Except ScoringError (List (EpochObservation K)) := do
  -- `setdefault` keeps the metadata of a task's first observation.
  if observations.any fun o =>
      (observations.find? fun p => p.taskId = o.taskId).any fun p =>
        decide (p.metadata ≠ o.metadata) then
    throw .inconsistentMetadata
  let untouched := observations.filter fun o => !o.accepted
  let shared ← (cacheGroups observations).mapM fun g => shareGroup g.2
  return sortBy id observationKey (untouched ++ shared.flatten)

end Deduplicate

section Aggregate

variable {K : Type} [Field K] [LinearOrder K]

/-- The checks made while observations are indexed by task. -/
def checkScheduled (policy : AggregationPolicy K) :
    List (EpochObservation K) → List Text → Except ScoringError Unit
  | [], _ => .ok ()
  | o :: rest, seen =>
    match policy.taskSchedule.find? fun t => t.taskId = o.taskId with
    | none => .error .outsideSchedule
    | some t =>
      if o.metadata ≠ (t.epoch, t.family, t.taskCommitment) then .error .scheduleMismatch
      else if o.taskId ∈ seen then .error .duplicateScheduledTask
      else checkScheduled policy rest (o.taskId :: seen)

/-- The share of the observations with a property, 0 of none. -/
def rate (observations : List (EpochObservation K)) (holds : EpochObservation K → Bool) : K :=
  if observations = [] then 0 else fmean (observations.map fun o => if holds o then 1 else 0)

/-- The reward a scheduled task counts with. -/
def gatedReward (observations : List (EpochObservation K)) (t : ScheduledTask) : K :=
  match observations.find? fun o => o.taskId = t.taskId with
  | some o => if o.accepted then o.reward else 0
  | none => 0

/-- `by_family[family]`. -/
def familyRewards (policy : AggregationPolicy K) (observations : List (EpochObservation K))
    (family : Text) : List K :=
  (policy.taskSchedule.filter fun t => t.family = family).map (gatedReward observations)

/-- Tuples of two strings compare member by member. -/
def pairKey (p : Text × Text) : List Nat := textKey p.1 ++ 0 :: textKey p.2

/-- `sorted({(item.family, digest(item)) for item in available})`. -/
def portfolio (digest : EpochObservation K → Text) (available : List (EpochObservation K)) :
    List (Text × Text) :=
  sortBy id pairKey (available.map fun o => (o.family, digest o)).dedup

def portfolioPayload (name : Text) (pairs : List (Text × Text)) : Json :=
  .obj [(name, .arr (pairs.map fun p => .arr [.str p.1, .str p.2]))]

def strategyPortfolioDomain : Domain :=
  ⟨"planrace/2:strategy-portfolio".toList, by decide +kernel, by decide +kernel, by decide +kernel⟩

def behaviorPortfolioDomain : Domain :=
  ⟨"planrace/2:behavior-portfolio".toList, by decide +kernel, by decide +kernel, by decide +kernel⟩

def strategyPortfolioPayload (available : List (EpochObservation K)) : Json :=
  portfolioPayload "family_strategies".toList
    (portfolio EpochObservation.strategyDigest available)

def behaviorPortfolioPayload (available : List (EpochObservation K)) : Json :=
  portfolioPayload "family_behaviors".toList
    (portfolio EpochObservation.behaviorDigest available)

/-- `math.exp` of the mean logarithm of positive scores, 0 otherwise. -/
def geometricCenter [RealFunctions K] (scores : List K) : K :=
  if ∀ s ∈ scores, 0 < s then RealFunctions.exp (fmean (scores.map RealFunctions.log)) else 0

section Scheduled

variable [FloorSemiring K] [RealFunctions K]

def familyScore (policy : AggregationPolicy K) (observations : List (EpochObservation K))
    (family : Text) : Except ScoringError (Text × K) := do
  let values := familyRewards policy observations family
  let center ← winsorizedMean values policy.winsorFraction 0
  return (family, max 0 (center - policy.confidenceZ * robustStandardError values))

/-- The gates in the order of the source: the first that fails names the code. -/
def failureGates (policy : AggregationPolicy K) (available : List (EpochObservation K))
    (availability compliance correctness reward : K) (scores : List K) :
    List (Bool × FailureCode) :=
  [(decide ((available.length : Int) < policy.minimumTasks), .insufficientTasks),
    (policy.requiredFamilies.any fun family =>
        decide (((available.map EpochObservation.family).count family : Int) <
          policy.minimumTasksPerFamily), .insufficientFamilyTasks),
    (decide (availability < policy.minimumAvailability), .availabilityGate),
    (decide (compliance < policy.minimumCompliance), .complianceGate),
    (decide (correctness < policy.minimumCorrectness), .correctnessGate),
    (scores.any fun s => decide (s ≤ 0), .worstFamilyGate),
    (decide (reward ≤ 0), .noRobustImprovement)]

/-- `_aggregate_scheduled_miner` after its family scores. -/
def aggregateFrom (minerId : Text) (observations : List (EpochObservation K))
    (policy : AggregationPolicy K) (familyScores : List (Text × K)) : MinerAggregate K :=
  let available := observations.filter EpochObservation.available
  let availability : K := available.length / policy.taskSchedule.length
  let compliance := rate available EpochObservation.compliant
  let correctness := rate available EpochObservation.correct
  let scores := familyScores.map Prod.snd
  let center := geometricCenter scores
  let uncertainty := policy.confidenceZ * robustStandardError scores
  let reward := max 0 (center - uncertainty) * availability * compliance
  let failureCode :=
    ((failureGates policy available availability compliance correctness reward scores).find?
      Prod.fst).map Prod.snd
  { minerId := minerId
    eligible := failureCode.isNone
    reward := if failureCode.isNone then reward else 0
    center := center
    uncertainty := uncertainty
    availability := availability
    compliance := compliance
    correctness := correctness
    taskCount := available.length
    familyScores := familyScores
    strategyDigest :=
      domainSeparatedDigest strategyPortfolioDomain (strategyPortfolioPayload available)
    behaviorDigest :=
      domainSeparatedDigest behaviorPortfolioDomain (behaviorPortfolioPayload available)
    failureCode := failureCode }

/-- `_aggregate_scheduled_miner`. -/
def aggregateScheduledMiner (minerId : Text) (observations : List (EpochObservation K))
    (policy : AggregationPolicy K) : Except ScoringError (MinerAggregate K) := do
  checkScheduled policy observations []
  let familyScores ← policy.requiredFamilies.mapM (familyScore policy observations)
  return aggregateFrom minerId observations policy familyScores

def aggregateMiner (observations : List (EpochObservation K)) (policy : AggregationPolicy K) :
    Except ScoringError (MinerAggregate K) :=
  match observations with
  | [] => .error .noObservations
  | first :: rest =>
    if rest.any fun o => decide (o.minerId ≠ first.minerId) then .error .mixedMiners
    else aggregateScheduledMiner first.minerId (first :: rest) policy

def aggregateNetwork [IsStrictOrderedRing K] (observations : List (EpochObservation K))
    (minerIds : List Text) (policy : AggregationPolicy K) :
    Except ScoringError (List (MinerAggregate K)) := do
  if minerIds = [] ∨ ¬ minerIds.Nodup then throw .invalidRoster
  if observations.any fun o => decide (o.minerId ∉ minerIds) then throw .outsideRoster
  let deduplicated ← deduplicateTaskRewards observations
  minerIds.mapM fun minerId =>
    aggregateScheduledMiner minerId (under EpochObservation.minerId deduplicated minerId) policy

end Scheduled

end Aggregate

end ScoringV2
