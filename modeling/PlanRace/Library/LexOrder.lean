import Mathlib.Data.List.Sort

/-!
# Lexicographic order and sorting by a key

Strings compare by code point and byte strings by octet; both are the
lexicographic order of the ranks of their elements. Sorting is insertion
sort, which is stable, so it computes the usual `sorted(items, key=...)`.
-/

namespace LexOrder

universe u v
variable {α : Type u} {β : Type v}

def lexLe (rank : α → Nat) : List α → List α → Bool
  | [], _ => true
  | _ :: _, [] => false
  | a :: as, b :: bs =>
    if rank a < rank b then true else if rank b < rank a then false else lexLe rank as bs

theorem lexLe_cons (rank : α → Nat) (a b : α) (as bs : List α) :
    lexLe rank (a :: as) (b :: bs) = true ↔
      rank a < rank b ∨ rank a = rank b ∧ lexLe rank as bs = true := by
  rcases Nat.lt_trichotomy (rank a) (rank b) with h | h | h
  · simp [lexLe, h]
  · simp [lexLe, h]
  · simp [lexLe, h, Nat.not_lt_of_gt h, Nat.ne_of_gt h]

theorem lexLe_refl (rank : α → Nat) (s : List α) : lexLe rank s s = true := by
  induction s with
  | nil => rfl
  | cons a s ih => exact (lexLe_cons rank a a s s).mpr (Or.inr ⟨rfl, ih⟩)

theorem lexLe_total (rank : α → Nat) (s t : List α) :
    lexLe rank s t = true ∨ lexLe rank t s = true := by
  induction s generalizing t with
  | nil => exact Or.inl rfl
  | cons a s ih =>
    cases t with
    | nil => exact Or.inr rfl
    | cons b t =>
      simp only [lexLe_cons]
      rcases Nat.lt_trichotomy (rank a) (rank b) with h | h | h
      · exact Or.inl (Or.inl h)
      · exact (ih t).imp (fun hl => Or.inr ⟨h, hl⟩) (fun hr => Or.inr ⟨h.symm, hr⟩)
      · exact Or.inr (Or.inl h)

theorem lexLe_trans (rank : α → Nat) {s t w : List α} (hst : lexLe rank s t = true)
    (htw : lexLe rank t w = true) : lexLe rank s w = true := by
  induction s generalizing t w with
  | nil => rfl
  | cons a s ih =>
    cases t with
    | nil => cases hst
    | cons b t =>
      cases w with
      | nil => cases htw
      | cons c w =>
        rw [lexLe_cons] at hst htw ⊢
        rcases hst with hab | ⟨hab, hs⟩
        · left
          rcases htw with hbc | ⟨hbc, _⟩ <;> omega
        · rcases htw with hbc | ⟨hbc, ht⟩
          · left
            omega
          · exact Or.inr ⟨hab.trans hbc, ih hs ht⟩

theorem lexLe_antisymm {rank : α → Nat} (inj : Function.Injective rank) {s t : List α}
    (hst : lexLe rank s t = true) (hts : lexLe rank t s = true) : s = t := by
  induction s generalizing t with
  | nil =>
    cases t with
    | nil => rfl
    | cons b t => cases hts
  | cons a s ih =>
    cases t with
    | nil => cases hst
    | cons b t =>
      rw [lexLe_cons] at hst hts
      rcases hst with hab | ⟨hab, hs⟩
      · rcases hts with hba | ⟨hba, _⟩ <;> omega
      · rcases hts with hba | ⟨_, ht⟩
        · omega
        · rw [inj hab, ih hs ht]

/-- Order of records by the lexicographic order of their keys. -/
def keyLe (rank : α → Nat) (key : β → List α) (x y : β) : Prop :=
  lexLe rank (key x) (key y) = true

instance (rank : α → Nat) (key : β → List α) : DecidableRel (keyLe rank key) :=
  fun x y => inferInstanceAs (Decidable (lexLe rank (key x) (key y) = true))

instance (rank : α → Nat) (key : β → List α) : Std.Total (keyLe rank key) :=
  ⟨fun x y => lexLe_total rank (key x) (key y)⟩

instance (rank : α → Nat) (key : β → List α) : IsTrans β (keyLe rank key) :=
  ⟨fun _ _ _ hxy hyz => lexLe_trans rank hxy hyz⟩

/-- `sorted(items, key=key)`. -/
def sortBy (rank : α → Nat) (key : β → List α) (items : List β) : List β :=
  items.insertionSort (keyLe rank key)

theorem sortBy_perm (rank : α → Nat) (key : β → List α) (items : List β) :
    (sortBy rank key items).Perm items :=
  List.perm_insertionSort _ items

@[simp] theorem mem_sortBy {rank : α → Nat} {key : β → List α} {items : List β} {x : β} :
    x ∈ sortBy rank key items ↔ x ∈ items :=
  (sortBy_perm rank key items).mem_iff

@[simp] theorem length_sortBy (rank : α → Nat) (key : β → List α) (items : List β) :
    (sortBy rank key items).length = items.length :=
  (sortBy_perm rank key items).length_eq

theorem sortBy_pairwise (rank : α → Nat) (key : β → List α) (items : List β) :
    (sortBy rank key items).Pairwise (keyLe rank key) :=
  List.pairwise_insertionSort _ items

theorem perm_of_sortBy_eq {rank : α → Nat} {key : β → List α} {xs ys : List β}
    (he : sortBy rank key xs = sortBy rank key ys) : xs.Perm ys :=
  (sortBy_perm rank key xs).symm.trans (he ▸ sortBy_perm rank key ys)

/-- Sorting is a normal form of the multiset of records told apart by their keys. -/
theorem sortBy_eq_of_perm {rank : α → Nat} (inj : Function.Injective rank)
    {key : β → List α} {xs ys : List β} (keyInj : ∀ x ∈ xs, ∀ y ∈ xs, key x = key y → x = y)
    (hp : xs.Perm ys) : sortBy rank key xs = sortBy rank key ys := by
  have hperm := ((sortBy_perm rank key xs).trans hp).trans (sortBy_perm rank key ys).symm
  refine hperm.eq_of_pairwise ?_ (sortBy_pairwise rank key xs) (sortBy_pairwise rank key ys)
  intro x y hx hy hxy hyx
  have hy' : y ∈ xs := hp.mem_iff.mpr (mem_sortBy.mp hy)
  exact keyInj x (mem_sortBy.mp hx) y hy' (lexLe_antisymm inj hxy hyx)

theorem map_sortBy {γ : Type*} (rank : α → Nat) (key : β → List α) (key' : γ → List α)
    (f : β → γ) (items : List β) (hkey : ∀ x ∈ items, key' (f x) = key x) :
    (sortBy rank key items).map f = sortBy rank key' (items.map f) := by
  refine List.map_insertionSort _ _ f items fun a ha b hb => ?_
  simp only [keyLe, hkey a ha, hkey b hb]

/-- Sorting is stable: records of one key keep their order. -/
theorem filter_sortBy [DecidableEq α] (rank : α → Nat) (key : β → List α) (items : List β)
    (k : List α) : ((sortBy rank key items).filter fun x => key x = k) =
      items.filter fun x => key x = k := by
  have ordered : (items.filter fun x => key x = k).Pairwise (keyLe rank key) := by
    refine List.pairwise_of_forall_mem_list fun x hx y hy => ?_
    have hx' := of_decide_eq_true (List.mem_filter.mp hx).2
    have hy' := of_decide_eq_true (List.mem_filter.mp hy).2
    rw [keyLe, hx', hy']
    exact lexLe_refl rank k
  have kept := (List.sublist_insertionSort ordered List.filter_sublist).filter fun x => key x = k
  rw [List.filter_filter] at kept
  simp only [Bool.and_self] at kept
  refine (kept.eq_of_length ?_).symm
  exact ((sortBy_perm rank key items).filter _).length_eq.symm

end LexOrder
