import PlanRace.GroupMasses

/-!
# The order of the groups

Normalising under the cap gives every group the same weight in whatever order
the groups are collected.
-/

namespace AllocationOrder

open JsonText LexOrder CanonicalJson Grouping ScoringV2 NetworkAggregation WaterFilling Allocation
  AllocationInvariants GroupMasses

section Loop

variable {K : Type}

theorem sortedTexts_eq_of_perm {xs ys : List Text} (h : xs.Perm ys) :
    sortedTexts xs = sortedTexts ys :=
  sortBy_eq_of_perm (fun _ _ he => Char.toNat_inj.mp he) (fun _ _ _ _ he => he) h

theorem update_perm {xs ys us vs : List (Text × K)} (hxy : xs.Perm ys) (huv : us.Perm vs)
    (fresh : (Dict.keys (xs ++ us)).Nodup) : (Dict.update xs us).Perm (Dict.update ys vs) := by
  have hall := hxy.append huv
  rw [Dict.update_eq_append fresh, Dict.update_eq_append ((hall.map Prod.fst).nodup_iff.mp fresh)]
  exact hall

theorem without_perm {xs ys : List (Text × K)} (h : xs.Perm ys) {ids ids' : List Text}
    (hids : ids.Perm ids') : (without xs ids).Perm (without ys ids') := by
  have same : (fun e : Text × K => decide (e.1 ∉ ids)) = fun e => decide (e.1 ∉ ids') :=
    funext fun e => decide_eq_decide.mpr (not_congr hids.mem_iff)
  rw [without, without, same]
  exact h.filter _

theorem set_perm {xs ys : List (Text × K)} (h : xs.Perm ys) (k : Text) (v : K) :
    (Dict.set xs k v).Perm (Dict.set ys k v) := by
  have keys : k ∈ Dict.keys xs ↔ k ∈ Dict.keys ys := (h.map Prod.fst).mem_iff
  unfold Dict.set
  by_cases present : k ∈ Dict.keys xs
  · rw [if_pos present, if_pos (keys.mp present)]
    exact h.map _
  · rw [if_neg present, if_neg fun hy => present (keys.mpr hy)]
    exact h.append_right _

variable [Field K]

theorem proposals_perm {xs ys : List (Text × K)} (h : xs.Perm ys) (mass : K) :
    (proposals xs mass).Perm (proposals ys mass) := by
  rw [proposals, proposals, total_perm h]
  exact h.map _

theorem keys_shares (xs : List (Text × K)) (mass : K) :
    Dict.keys (proposals xs mass) = Dict.keys xs ∧ Dict.keys (equalShares xs mass) = Dict.keys xs := by
  simp [Dict.keys, proposals, equalShares, Function.comp_def]

variable [LinearOrder K]

/-- The loop divides the mass in the same way whatever the order of its values. -/
theorem capLoop_perm (cap : K) {xs ys us vs : List (Text × K)} (mass : K) (hxy : xs.Perm ys)
    (huv : us.Perm vs) (distinct : (Dict.keys (us ++ xs)).Nodup) :
    (capLoop cap xs us mass).Perm (capLoop cap ys vs mass) := by
  induction hn : xs.length using Nat.strong_induction_on generalizing xs ys us vs mass with
  | _ n ih =>
    have proposed := proposals_perm hxy mass
    have capped : (cappedIds cap (proposals xs mass)).Perm (cappedIds cap (proposals ys mass)) :=
      (proposed.filter _).map _
    have fresh : ∀ {entries : List (Text × K)}, Dict.keys entries = Dict.keys xs →
        (Dict.keys (us ++ entries)).Nodup := fun h => by
      rwa [Dict.keys_append, h, ← Dict.keys_append]
    by_cases empty : xs = []
    · have empty' : ys = [] := List.perm_nil.mp (empty ▸ hxy.symm)
      rw [empty, empty', capLoop, if_pos rfl, capLoop, if_pos rfl]
      exact huv
    have empty' : ¬ ys = [] := fun he => empty (List.perm_nil.mp (he ▸ hxy))
    rw [capLoop, capLoop.eq_def cap ys, if_neg empty, if_neg empty', ← total_perm hxy]
    by_cases weightless : total xs ≤ 0
    · rw [if_pos weightless, if_pos weightless]
      refine update_perm huv ?_ (fresh (keys_shares xs mass).2)
      rw [equalShares, equalShares, hxy.length_eq]
      exact hxy.map _
    rw [if_neg weightless, if_neg weightless]
    by_cases none : cappedIds cap (proposals xs mass) = []
    · rw [dif_pos none, dif_pos (List.perm_nil.mp (none ▸ capped.symm))]
      exact update_perm huv proposed (fresh (keys_shares xs mass).1)
    · have shorter := length_without_capped_lt none
      have none' : ¬ cappedIds cap (proposals ys mass) = [] := fun he =>
        none (List.perm_nil.mp (he ▸ capped))
      have hxs : (Dict.keys xs).Nodup := by
        rw [Dict.keys_append] at distinct
        exact (List.nodup_append'.mp distinct).2.1
      have rest := without_perm hxy capped
      have split : (xs.filter (exceeds cap (1 / 10 ^ 15) (mass / total xs)) ++
          without xs (cappedIds cap (proposals xs mass))).Perm xs := by
        rw [without_cappedIds hxs]
        exact List.filter_append_perm _ xs
      have whole := ((split.append_left us).map Prod.fst).nodup_iff.mpr distinct
      have cut := cut_distinct whole cap
      have updated := (update_capped whole cap).2
      rw [← cappedIds_eq] at cut updated
      rw [dif_neg none, dif_neg none']
      dsimp only
      rw [← sortedTexts_eq_of_perm capped, ← capped.length_eq]
      refine ih _ (hn ▸ shorter) _ rest (update_perm huv (List.Perm.refl _) ?_) updated rfl
      rw [Dict.keys_append] at cut
      exact (List.nodup_append'.mp cut).1

omit [Field K] in
theorem weightLe_antisymm {x y : Text × K} (hxy : weightLe x y) (hyx : weightLe y x) : x = y := by
  rcases hxy with hxy | ⟨hvalue, hkey⟩
  · rcases hyx with hyx | ⟨he, -⟩
    · exact absurd hyx hxy.asymm
    · exact absurd hxy he.le.not_gt
  · rcases hyx with hyx | ⟨-, hkey'⟩
    · exact absurd hyx hvalue.le.not_gt
    · exact Prod.ext (lexLe_antisymm (fun _ _ he => Char.toNat_inj.mp he) hkey hkey') hvalue

theorem addResidue_perm (cap : K) {xs ys : List (Text × K)} (h : xs.Perm ys) :
    (addResidue cap xs).Perm (addResidue cap ys) := by
  have sorted : xs.insertionSort weightLe = ys.insertionSort weightLe := by
    have hperm := ((List.perm_insertionSort weightLe xs).trans h).trans
      (List.perm_insertionSort weightLe ys).symm
    exact hperm.eq_of_pairwise (fun _ _ _ _ hxy hyx => weightLe_antisymm hxy hyx)
      (List.pairwise_insertionSort weightLe xs) (List.pairwise_insertionSort weightLe ys)
  unfold addResidue
  dsimp only
  rw [sorted, (h.map Prod.snd).sum_eq]
  split_ifs
  · cases (ys.insertionSort weightLe).find? _ with
    | none => exact h
    | some e => exact set_perm h _ _
  · exact h

/-- Normalising does not depend on the order of the groups. -/
theorem cappedNormalize_perm {cap : K} {xs ys out : List (Text × K)} (h : xs.Perm ys)
    (distinct : (Dict.keys xs).Nodup) (hx : cappedNormalize xs cap = .ok out) :
    ∃ out', cappedNormalize ys cap = .ok out' ∧ out.Perm out' := by
  unfold cappedNormalize at hx ⊢
  rw [← h.length_eq]
  split_ifs at hx ⊢ with full
  cases hx
  exact ⟨_, rfl, addResidue_perm cap (capLoop_perm cap 1 h (List.Perm.refl _) distinct)⟩

end Loop

end AllocationOrder
