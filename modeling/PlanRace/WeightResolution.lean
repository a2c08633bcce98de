import PlanRace.WeightPlanning

/-!
# Planning by hotkey commutes with planning by UID

A plan by hotkey is resolved against one snapshot of the chain and sorted again.
Both orders carry the same pairs, so nobody is paid the weight of another.
-/

namespace WeightResolution

open JsonText LexOrder PythonObjects Fallible TestnetWeights WeightPlanning
open WeightConformity (Rounding rounded rounded_exact fsum fsum_exact)

section Plans

variable (K : Type)

structure WeightPlan where
  planned : Bool
  reason : Option Text
  uids : List Int
  weights : List K

/-- The UIDs of the hotkeys in one finalized block. -/
structure FinalizedMetagraphSnapshot where
  blockHash : Text
  uidByHotkey : List (Text × Int)

variable {K} [Field K] [LinearOrder K]

def planWeights [Rounding K] (scores : List (Int × K)) (minimumPositiveUids : Int) :
    Except Raised (WeightPlan K) := do
  require (1 ≤ minimumPositiveUids) (.valueError "minimum_positive_uids must be positive".toList)
  require (∀ entry ∈ scores, 0 ≤ entry.1)
    (.valueError "UIDs must be non-negative integers".toList)
  require (∀ entry ∈ scores, 0 ≤ entry.2)
    (.valueError "scores must be finite and non-negative".toList)
  let positive := scores.filter fun entry => 0 < entry.2
  if (positive.length : Int) < minimumPositiveUids then
    return ⟨false, some "insufficient_positive_uids".toList, [], []⟩
  let total := fsum (positive.map Prod.snd)
  let ordered := positive.insertionSort fun x y => x.1 ≤ y.1
  return ⟨true, none, ordered.map Prod.fst, ordered.map fun entry => rounded (entry.2 / total)⟩

/-- The order of tuples. -/
def pairLe (x y : Int × K) : Prop := x.1 < y.1 ∨ (x.1 = y.1 ∧ x.2 ≤ y.2)

instance decidablePairLe : DecidableRel (pairLe (K := K)) := fun _ _ => instDecidableOr

/-- `snapshot.uid_by_hotkey[hotkey]`. -/
def lookUpUid (snapshot : FinalizedMetagraphSnapshot) (hotkey : Text) : Except Raised Int :=
  match Dict.get? snapshot.uidByHotkey hotkey with
  | some uid => .ok uid
  | none =>
    .error (.valueError ("scored hotkey missing from finalized metagraph: ".toList ++ hotkey))

def resolveHotkeyWeightPlan (plan : HotkeyWeightPlan K) (snapshot : FinalizedMetagraphSnapshot) :
    Except Raised (WeightPlan K) :=
  if plan.planned = false then .ok ⟨false, plan.reason, [], []⟩
  else do
    require ("0x".toList.isPrefixOf snapshot.blockHash = true ∧ snapshot.blockHash.length = 66)
      (.valueError "snapshot block_hash must be a 32-byte 0x-prefixed digest".toList)
    let uids ← plan.hotkeys.mapM (lookUpUid snapshot)
    require (∀ uid ∈ uids, 0 ≤ uid) (.valueError "snapshot contains an invalid UID".toList)
    require uids.Nodup (.valueError "snapshot maps multiple scored hotkeys to one UID".toList)
    require (uids.length ≤ plan.weights.length)
      (.valueError "zip() argument 2 is shorter than argument 1".toList)
    require (plan.weights.length ≤ uids.length)
      (.valueError "zip() argument 2 is longer than argument 1".toList)
    let pairs := (uids.zip plan.weights).insertionSort pairLe
    return ⟨true, none, pairs.map Prod.fst, pairs.map Prod.snd⟩

end Plans

section Sorting

variable {K : Type} [Field K] [LinearOrder K]

instance totalPairLe : Std.Total (pairLe (K := K)) where
  total x y := by
    rcases lt_trichotomy x.1 y.1 with less | same | more
    · exact .inl (.inl less)
    · exact (le_total x.2 y.2).imp (fun h => .inr ⟨same, h⟩) fun h => .inr ⟨same.symm, h⟩
    · exact .inr (.inl more)

instance transPairLe : IsTrans (Int × K) pairLe where
  trans x y z hxy hyz := by
    rcases hxy with hxy | ⟨hxy, le⟩ <;> rcases hyz with hyz | ⟨hyz, le'⟩
    · exact .inl (hxy.trans hyz)
    · exact .inl (hyz ▸ hxy)
    · exact .inl (hxy ▸ hyz)
    · exact .inr ⟨hxy.trans hyz, le.trans le'⟩

instance totalFstLe : Std.Total fun x y : Int × K => x.1 ≤ y.1 := ⟨fun x y => le_total x.1 y.1⟩

instance transFstLe : IsTrans (Int × K) fun x y => x.1 ≤ y.1 := ⟨fun _ _ _ => le_trans⟩

omit [Field K] [LinearOrder K] in
/-- Distinct first parts make any sort by them strict. -/
theorem pairwise_lt_of_le {pairs : List (Int × K)} (distinct : (pairs.map Prod.fst).Nodup)
    (ordered : pairs.Pairwise fun x y => x.1 ≤ y.1) : pairs.Pairwise fun x y => x.1 < y.1 :=
  (ordered.and (List.pairwise_map.mp distinct)).imp fun h => lt_of_le_of_ne h.1 h.2

omit [Field K] [LinearOrder K] in
theorem eq_of_sorted {xs ys : List (Int × K)} (h : xs.Perm ys) (distinct : (xs.map Prod.fst).Nodup)
    (hxs : xs.Pairwise fun x y => x.1 ≤ y.1) (hys : ys.Pairwise fun x y => x.1 ≤ y.1) : xs = ys := by
  refine h.eq_of_pairwise (fun x y _ _ hxy hyx => ?_) (pairwise_lt_of_le distinct hxs)
    (pairwise_lt_of_le ((h.map Prod.fst).nodup_iff.mp distinct) hys)
  exact absurd (hxy.trans hyx) (lt_irrefl x.1)

omit [Field K] in
theorem sorted_pairs (pairs : List (Int × K)) :
    (pairs.insertionSort pairLe).Pairwise fun x y => x.1 ≤ y.1 :=
  (List.pairwise_insertionSort pairLe pairs).imp fun h =>
    h.elim (fun less => less.le) fun same => same.1.le

end Sorting

section Resolution

variable {K : Type} [Field K] [LinearOrder K] {scores : List (Text × K)} {minimum : Int}
  {snapshot : FinalizedMetagraphSnapshot}

def positiveOf (scores : List (Text × K)) : List (Text × K) :=
  scores.filter fun entry => 0 < entry.2

def totalOf (scores : List (Text × K)) : K := ((positiveOf scores).map Prod.snd).sum

def uidOf (snapshot : FinalizedMetagraphSnapshot) (hotkey : Text) : Int :=
  (Dict.get? snapshot.uidByHotkey hotkey).getD 0

/-- The positive scores by UID. -/
def reKeyed (snapshot : FinalizedMetagraphSnapshot) (scores : List (Text × K)) : List (Int × K) :=
  (positiveOf scores).map fun entry => (uidOf snapshot entry.1, entry.2)

/-- A snapshot that binds every positive hotkey to a UID of its own. -/
structure Binding (scores : List (Text × K)) (snapshot : FinalizedMetagraphSnapshot) : Prop where
  distinct : (Dict.keys snapshot.uidByHotkey).Nodup
  injective : ∀ x ∈ snapshot.uidByHotkey, ∀ y ∈ snapshot.uidByHotkey, x.2 = y.2 → x.1 = y.1
  nonnegative : ∀ x ∈ snapshot.uidByHotkey, 0 ≤ x.2
  complete : ∀ entry ∈ scores, 0 < entry.2 → entry.1 ∈ Dict.keys snapshot.uidByHotkey

/-- Every positive hotkey is paid its own part, and nobody else. -/
structure Paid (scores : List (Text × K)) (snapshot : FinalizedMetagraphSnapshot)
    (plan : WeightPlan K) : Prop where
  increasing : plan.uids.Pairwise (· < ·)
  positive : ∀ weight ∈ plan.weights, 0 < weight
  whole : plan.weights.sum = 1
  parallel : plan.uids.length = plan.weights.length
  own : ∀ uid weight, (uid, weight) ∈ plan.uids.zip plan.weights ↔
    ∃ entry ∈ scores, 0 < entry.2 ∧ Dict.get? snapshot.uidByHotkey entry.1 = some uid ∧
      weight = entry.2 / totalOf scores

theorem mem_positiveOf {entry : Text × K} :
    entry ∈ positiveOf scores ↔ entry ∈ scores ∧ 0 < entry.2 := by
  rw [positiveOf, List.mem_filter, decide_eq_true_eq]

theorem positiveScores_perm (scores : List (Text × K)) :
    (positiveScores scores).Perm (positiveOf scores) :=
  sortBy_perm _ _ _

theorem Binding.get?_eq (binding : Binding scores snapshot) {entry : Text × K}
    (h : entry ∈ positiveOf scores) :
    Dict.get? snapshot.uidByHotkey entry.1 = some (uidOf snapshot entry.1) := by
  obtain ⟨member, positive⟩ := mem_positiveOf.mp h
  obtain ⟨uid, found⟩ := Dict.mem_keys_iff.mp (binding.complete entry member positive)
  rw [uidOf, found]
  rfl

theorem Binding.uid_mem (binding : Binding scores snapshot) {entry : Text × K}
    (h : entry ∈ positiveOf scores) :
    (entry.1, uidOf snapshot entry.1) ∈ snapshot.uidByHotkey :=
  (Dict.get?_eq_some_iff binding.distinct).mp (binding.get?_eq h)

theorem Binding.uids_nodup (binding : Binding scores snapshot) (distinct : (Dict.keys scores).Nodup) :
    ((positiveOf scores).map fun entry => uidOf snapshot entry.1).Nodup := by
  have keys : ((positiveOf scores).map Prod.fst).Nodup :=
    (List.filter_sublist.map Prod.fst).nodup distinct
  refine List.pairwise_map.mpr ((List.pairwise_map.mp keys).imp_of_mem fun hx hy other same => ?_)
  exact other (binding.injective _ (binding.uid_mem hx) _ (binding.uid_mem hy) same)

/-- The pairs of a resolved plan, before they are sorted. -/
def pairsOf (snapshot : FinalizedMetagraphSnapshot) (scores : List (Text × K)) : List (Int × K) :=
  (positiveOf scores).map fun entry => (uidOf snapshot entry.1, entry.2 / totalOf scores)

/-- The plan by UID that both ways lead to. -/
def paidPlan (snapshot : FinalizedMetagraphSnapshot) (scores : List (Text × K)) : WeightPlan K :=
  let ordered := (pairsOf snapshot scores).insertionSort fun x y => x.1 ≤ y.1
  ⟨true, none, ordered.map Prod.fst, ordered.map Prod.snd⟩

theorem planHotkeyWeights_eq (named : ∀ entry ∈ scores, entry.1 ≠ [])
    (nonnegative : ∀ entry ∈ scores, 0 ≤ entry.2) (least : 1 ≤ minimum) :
    planHotkeyWeights scores minimum =
      .ok (if ((positiveOf scores).length : Int) < minimum
        then ⟨false, some "insufficient_positive_hotkeys".toList, [], []⟩
        else sharesOf (positiveScores scores)) := by
  refine bind_ok_iff.mpr ⟨⟨⟩, require_ok_iff.mpr least, bind_ok_iff.mpr ⟨⟨⟩,
    require_ok_iff.mpr named, bind_ok_iff.mpr ⟨⟨⟩, require_ok_iff.mpr nonnegative, ?_⟩⟩⟩
  dsimp only
  rw [(positiveScores_perm scores).length_eq]
  split_ifs
  · rfl
  · rfl

theorem planWeights_reKeyed (binding : Binding scores snapshot) (least : 1 ≤ minimum) :
    planWeights (reKeyed snapshot scores) minimum =
      .ok (if ((positiveOf scores).length : Int) < minimum
        then ⟨false, some "insufficient_positive_uids".toList, [], []⟩
        else paidPlan snapshot scores) := by
  have uids : ∀ entry ∈ reKeyed snapshot scores, 0 ≤ entry.1 := by
    intro entry hentry
    obtain ⟨e, he, rfl⟩ := List.mem_map.mp hentry
    exact binding.nonnegative _ (binding.uid_mem he)
  have positive : ∀ entry ∈ reKeyed snapshot scores, 0 < entry.2 := by
    intro entry hentry
    obtain ⟨e, he, rfl⟩ := List.mem_map.mp hentry
    exact (mem_positiveOf.mp he).2
  have kept : (reKeyed snapshot scores).filter (fun entry => 0 < entry.2) = reKeyed snapshot scores :=
    List.filter_eq_self.mpr fun entry hentry => decide_eq_true (positive entry hentry)
  have total : ((reKeyed snapshot scores).map Prod.snd).sum = totalOf scores := by
    rw [reKeyed, List.map_map]
    rfl
  have pairs : ((reKeyed snapshot scores).insertionSort fun x y => x.1 ≤ y.1).map
      (fun entry => (entry.1, entry.2 / totalOf scores)) =
      (pairsOf snapshot scores).insertionSort fun x y => x.1 ≤ y.1 := by
    rw [List.map_insertionSort (fun x y : Int × K => x.1 ≤ y.1) (fun x y => x.1 ≤ y.1) _ _
      fun _ _ _ _ => Iff.rfl, reKeyed, List.map_map]
    rfl
  refine bind_ok_iff.mpr ⟨⟨⟩, require_ok_iff.mpr least, bind_ok_iff.mpr ⟨⟨⟩,
    require_ok_iff.mpr uids, bind_ok_iff.mpr ⟨⟨⟩,
    require_ok_iff.mpr fun entry hentry => (positive entry hentry).le, ?_⟩⟩⟩
  dsimp only
  rw [kept, fsum_exact, total, paidPlan, ← pairs, List.map_map, List.map_map, reKeyed,
    List.length_map]
  split_ifs
  · rfl
  · rfl

/-- A well-formed block hash. -/
def WellFormed (snapshot : FinalizedMetagraphSnapshot) : Prop :=
  "0x".toList.isPrefixOf snapshot.blockHash = true ∧ snapshot.blockHash.length = 66

theorem lookUp_positive (binding : Binding scores snapshot) :
    ((positiveScores scores).map Prod.fst).mapM (lookUpUid snapshot) =
      .ok ((positiveScores scores).map fun entry => uidOf snapshot entry.1) := by
  have looked : ((positiveScores scores).map Prod.fst).mapM (lookUpUid snapshot) =
      .ok (((positiveScores scores).map Prod.fst).map (uidOf snapshot)) := by
    refine mapM_eq_map fun hotkey hhotkey => ?_
    obtain ⟨entry, hentry, rfl⟩ := List.mem_map.mp hhotkey
    rw [lookUpUid, binding.get?_eq ((positiveScores_perm scores).mem_iff.mp hentry)]
  rw [looked, List.map_map]
  rfl

theorem zip_positive_perm (snapshot : FinalizedMetagraphSnapshot) (scores : List (Text × K)) :
    (((positiveScores scores).map fun entry => uidOf snapshot entry.1).zip
      (sharesOf (positiveScores scores)).weights).Perm (pairsOf snapshot scores) := by
  have total : ((positiveScores scores).map Prod.snd).sum = totalOf scores :=
    ((positiveScores_perm scores).map _).sum_eq
  rw [sharesOf, fsum_exact, total, List.zip_map', pairsOf]
  exact (positiveScores_perm scores).map _

theorem pairsOf_nodup (distinct : (Dict.keys scores).Nodup) (binding : Binding scores snapshot) :
    ((pairsOf snapshot scores).map Prod.fst).Nodup := by
  rw [pairsOf, List.map_map]
  exact binding.uids_nodup distinct

/-- The sort by hotkey is undone by the sort by UID. -/
theorem resolve_sharesOf (distinct : (Dict.keys scores).Nodup) (hash : WellFormed snapshot)
    (binding : Binding scores snapshot) :
    resolveHotkeyWeightPlan (sharesOf (positiveScores scores)) snapshot =
      .ok (paidPlan snapshot scores) := by
  have perm := positiveScores_perm scores
  have valid : ∀ uid ∈ (positiveScores scores).map fun entry => uidOf snapshot entry.1, 0 ≤ uid := by
    intro uid huid
    obtain ⟨entry, hentry, rfl⟩ := List.mem_map.mp huid
    exact binding.nonnegative _ (binding.uid_mem (perm.mem_iff.mp hentry))
  have different : ((positiveScores scores).map fun entry => uidOf snapshot entry.1).Nodup :=
    (perm.map _).nodup_iff.mpr (binding.uids_nodup distinct)
  have lengths : ((positiveScores scores).map fun entry => uidOf snapshot entry.1).length =
      (sharesOf (positiveScores scores)).weights.length := by
    rw [sharesOf, List.length_map, List.length_map]
  have pairs := (List.perm_insertionSort pairLe _).trans (zip_positive_perm snapshot scores)
  have ordered := List.perm_insertionSort (fun x y => x.1 ≤ y.1) (pairsOf snapshot scores)
  have sorted := eq_of_sorted (pairs.trans ordered.symm)
    ((pairs.map Prod.fst).nodup_iff.mpr (pairsOf_nodup distinct binding)) (sorted_pairs _)
    (List.pairwise_insertionSort _ _)
  unfold resolveHotkeyWeightPlan
  rw [if_neg (show ¬(sharesOf (positiveScores scores)).planned = false by simp [sharesOf])]
  refine bind_ok_iff.mpr ⟨⟨⟩, require_ok_iff.mpr hash, bind_ok_iff.mpr ⟨_, lookUp_positive binding,
    bind_ok_iff.mpr ⟨⟨⟩, require_ok_iff.mpr valid, bind_ok_iff.mpr ⟨⟨⟩,
    require_ok_iff.mpr different, bind_ok_iff.mpr ⟨⟨⟩, require_ok_iff.mpr lengths.le,
    bind_ok_iff.mpr ⟨⟨⟩, require_ok_iff.mpr lengths.ge, ?_⟩⟩⟩⟩⟩⟩
  dsimp only
  rw [sorted]
  rfl

omit [Field K] in
theorem resolve_unplanned {plan : HotkeyWeightPlan K} (unplanned : plan.planned = false)
    (snapshot : FinalizedMetagraphSnapshot) :
    resolveHotkeyWeightPlan plan snapshot = .ok ⟨false, plan.reason, [], []⟩ := if_pos unplanned

/-- A positive hotkey without a UID, or two with the same one. -/
def Ambiguous (scores : List (Text × K)) (snapshot : FinalizedMetagraphSnapshot) : Prop :=
  (∃ entry ∈ scores, 0 < entry.2 ∧ entry.1 ∉ Dict.keys snapshot.uidByHotkey) ∨
  ∃ first ∈ scores, ∃ second ∈ scores, 0 < first.2 ∧ 0 < second.2 ∧ first.1 ≠ second.1 ∧
    ∃ uid, Dict.get? snapshot.uidByHotkey first.1 = some uid ∧
      Dict.get? snapshot.uidByHotkey second.1 = some uid

theorem lookUpUid_ok {hotkey : Text} {uid : Int} (h : lookUpUid snapshot hotkey = .ok uid) :
    Dict.get? snapshot.uidByHotkey hotkey = some uid := by
  unfold lookUpUid at h
  split at h
  next found =>
    rw [found, Except.ok.inj h]
  next => cases h

theorem resolve_raises (ambiguous : Ambiguous scores snapshot) {plan : HotkeyWeightPlan K}
    (h : planHotkeyWeights scores minimum = .ok plan) (planned : plan.planned = true) :
    ∃ error, resolveHotkeyWeightPlan plan snapshot = .error error := by
  cases resolved : resolveHotkeyWeightPlan plan snapshot with
  | error error => exact ⟨error, rfl⟩
  | ok result =>
    exfalso
    have hotkeys : plan.hotkeys = (positiveScores scores).map Prod.fst := by
      rw [planHotkeyWeights_planned h planned, sharesOf]
    rw [resolveHotkeyWeightPlan, if_neg (by rw [planned]; exact Bool.noConfusion)] at resolved
    obtain ⟨_, -, resolved⟩ := bind_ok resolved
    obtain ⟨uids, looked, resolved⟩ := bind_ok resolved
    obtain ⟨_, -, resolved⟩ := bind_ok resolved
    obtain ⟨_, different, -⟩ := bind_ok resolved
    have different := require_ok_iff.mp different
    rw [hotkeys] at looked
    have known : uids = ((positiveScores scores).map Prod.fst).map (uidOf snapshot) :=
      eq_map_of_mapM looked fun hotkey _ uid found => by rw [uidOf, lookUpUid_ok found]; rfl
    have member : ∀ {entry : Text × K}, entry ∈ scores → 0 < entry.2 →
        entry.1 ∈ (positiveScores scores).map Prod.fst := fun hentry positive =>
      List.mem_map_of_mem (mem_positiveScores.mpr ⟨hentry, positive⟩)
    rcases ambiguous with ⟨entry, hentry, positive, missing⟩ |
      ⟨first, hfirst, second, hsecond, positive, positive', other, uid, found, found'⟩
    · obtain ⟨uid, -, found⟩ := ok_of_mapM looked entry.1 (member hentry positive)
      exact missing (Dict.mem_keys_iff.mpr ⟨uid, lookUpUid_ok found⟩)
    · rw [known] at different
      refine other (List.inj_on_of_nodup_map different (member hfirst positive)
        (member hsecond positive') ?_)
      rw [uidOf, uidOf, found, found']

variable [IsStrictOrderedRing K]

theorem totalOf_pos (someone : positiveOf scores ≠ []) : 0 < totalOf scores := by
  refine List.sum_pos _ (fun x hx => ?_) fun none => someone (List.map_eq_nil_iff.mp none)
  obtain ⟨entry, hentry, rfl⟩ := List.mem_map.mp hx
  exact (mem_positiveOf.mp hentry).2

theorem paidPlan_paid (distinct : (Dict.keys scores).Nodup) (binding : Binding scores snapshot)
    (someone : positiveOf scores ≠ []) : Paid scores snapshot (paidPlan snapshot scores) := by
  have total := totalOf_pos someone
  have perm := List.perm_insertionSort (fun x y : Int × K => x.1 ≤ y.1) (pairsOf snapshot scores)
  have fsts := pairsOf_nodup distinct binding
  constructor
  · exact List.pairwise_map.mpr (pairwise_lt_of_le ((perm.map Prod.fst).nodup_iff.mpr fsts)
      (List.pairwise_insertionSort _ _))
  · intro weight hweight
    obtain ⟨pair, hpair, rfl⟩ := List.mem_map.mp hweight
    obtain ⟨entry, hentry, rfl⟩ := List.mem_map.mp (perm.mem_iff.mp hpair)
    exact div_pos (mem_positiveOf.mp hentry).2 total
  · have sum : ((pairsOf snapshot scores).map Prod.snd).sum = totalOf scores / totalOf scores := by
      rw [pairsOf, List.map_map]
      simp only [Function.comp_def, div_eq_mul_inv, List.sum_map_mul_right]
      rfl
    rw [paidPlan, (perm.map Prod.snd).sum_eq, sum, div_self total.ne']
  · rw [paidPlan, List.length_map, List.length_map]
  · intro uid weight
    rw [paidPlan, List.zip_map', List.map_id', perm.mem_iff, pairsOf, List.mem_map]
    constructor
    · rintro ⟨entry, hentry, same⟩
      obtain ⟨rfl, rfl⟩ := Prod.mk.inj same
      obtain ⟨member, positive⟩ := mem_positiveOf.mp hentry
      exact ⟨entry, member, positive, binding.get?_eq hentry, rfl⟩
    · rintro ⟨entry, member, positive, found, rfl⟩
      have hentry := mem_positiveOf.mpr ⟨member, positive⟩
      rw [binding.get?_eq hentry] at found
      exact ⟨entry, hentry, congrArg (·, _) (Option.some.inj found)⟩

/-- Both ways of planning agree, and a plan that is ambiguous is not resolved. -/
theorem resolution_commutes (distinct : (Dict.keys scores).Nodup)
    (named : ∀ entry ∈ scores, entry.1 ≠ []) (nonnegative : ∀ entry ∈ scores, 0 ≤ entry.2)
    (least : 1 ≤ minimum) (hash : WellFormed snapshot) :
    (Binding scores snapshot → ∃ plan resolved direct,
      planHotkeyWeights scores minimum = .ok plan ∧
      resolveHotkeyWeightPlan plan snapshot = .ok resolved ∧
      planWeights (reKeyed snapshot scores) minimum = .ok direct ∧
      resolved.planned = direct.planned ∧ resolved.uids = direct.uids ∧
      resolved.weights = direct.weights ∧
      (resolved.planned = true → Paid scores snapshot resolved)) ∧
    (Ambiguous scores snapshot → ∀ plan, planHotkeyWeights scores minimum = .ok plan →
      plan.planned = true → ∃ error, resolveHotkeyWeightPlan plan snapshot = .error error) := by
  refine ⟨fun binding => ?_, fun ambiguous plan h planned => resolve_raises ambiguous h planned⟩
  have byHotkey := planHotkeyWeights_eq named nonnegative least
  have byUid := planWeights_reKeyed binding least
  by_cases few : ((positiveOf scores).length : Int) < minimum
  · rw [if_pos few] at byHotkey byUid
    exact ⟨_, _, _, byHotkey, resolve_unplanned rfl snapshot, byUid, rfl, rfl, rfl,
      fun planned => Bool.noConfusion planned⟩
  · have someone : positiveOf scores ≠ [] := by
      intro none
      rw [none, List.length_nil] at few
      omega
    rw [if_neg few] at byHotkey byUid
    exact ⟨_, _, _, byHotkey, resolve_sharesOf distinct hash binding, byUid, rfl, rfl, rfl,
      fun _ => paidPlan_paid distinct binding someone⟩

end Resolution

section Sample

def twoScores : List (Text × ℚ) := [("b".toList, 3), ("a".toList, 1)]

def blockHash : Text := "0x".toList ++ List.replicate 64 '1'

def boundSnapshot : FinalizedMetagraphSnapshot := ⟨blockHash, [("a".toList, 9), ("b".toList, 2)]⟩

theorem wellFormed (bound : List (Text × Int)) : WellFormed ⟨blockHash, bound⟩ :=
  ⟨rfl, by simp [blockHash]⟩

/-- Too few positive hotkeys: the plan is resolved without a look at the snapshot. -/
theorem unplanned_resolved_without_uid : WellFormed ⟨blockHash, []⟩ ∧
    Ambiguous [("a".toList, (1 : ℚ))] ⟨blockHash, []⟩ ∧
    ∃ plan resolved, planHotkeyWeights [("a".toList, (1 : ℚ))] 2 = .ok plan ∧
      resolveHotkeyWeightPlan plan ⟨blockHash, []⟩ = .ok resolved := by
  have few : ((positiveOf [("a".toList, (1 : ℚ))]).length : Int) < 2 := by decide +kernel
  have planned : planHotkeyWeights [("a".toList, (1 : ℚ))] 2 = .ok _ :=
    planHotkeyWeights_eq (by decide) (by decide +kernel) (by decide)
  rw [if_pos few] at planned
  exact ⟨wellFormed [], .inl ⟨_, List.mem_cons_self, one_pos, List.not_mem_nil⟩, _, _, planned,
    resolve_unplanned rfl _⟩

theorem boundSnapshot_binding : Binding twoScores boundSnapshot where
  distinct := by decide
  injective := by decide
  nonnegative := by decide
  complete := by decide +kernel

theorem partialSnapshot_ambiguous :
    Ambiguous twoScores ⟨blockHash, [("a".toList, 9)]⟩ :=
  .inl ⟨("b".toList, 3), by decide +kernel, three_pos, by decide⟩

/-- Both hotkeys are bound and paid, and a snapshot without the second is refused. -/
theorem resolution_commutes_two :
    (∃ plan resolved direct, planHotkeyWeights twoScores 1 = .ok plan ∧
      resolveHotkeyWeightPlan plan boundSnapshot = .ok resolved ∧
      planWeights (reKeyed boundSnapshot twoScores) 1 = .ok direct ∧
      resolved.planned = direct.planned ∧ resolved.uids = direct.uids ∧
      resolved.weights = direct.weights ∧
      (resolved.planned = true → Paid twoScores boundSnapshot resolved)) ∧
    (∀ plan, planHotkeyWeights twoScores 1 = .ok plan → plan.planned = true →
      ∃ error, resolveHotkeyWeightPlan plan ⟨blockHash, [("a".toList, 9)]⟩ = .error error) :=
  ⟨(resolution_commutes (by decide) (by decide) (by decide +kernel) (by decide)
      (wellFormed _)).1 boundSnapshot_binding,
    (resolution_commutes (by decide) (by decide) (by decide +kernel) (by decide)
      (wellFormed _)).2 partialSnapshot_ambiguous⟩

end Sample

end WeightResolution
