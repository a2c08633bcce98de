import Mathlib.Data.List.Nodup
import Mathlib.Logic.Function.Iterate

/-!
# Merkle roots of lists

A level is paired up until one value is left, and the last value of an odd
level is paired with itself. Over symbolic trees the root determines a list of
distinct leaves, whatever the two lengths are; a root of digests is the value
of the symbolic tree.
-/

namespace MerkleTree

universe u v

section Climb

variable {α : Type u} {β : Type v}

def levelUp (node : α → α → α) : List α → List α
  | [] => []
  | [a] => [node a a]
  | a :: b :: rest => node a b :: levelUp node rest

theorem length_levelUp (node : α → α → α) (xs : List α) :
    (levelUp node xs).length = (xs.length + 1) / 2 := by
  induction xs using levelUp.induct with
  | case1 => simp [levelUp]
  | case2 a => simp [levelUp]
  | case3 a b rest ih =>
    simp only [levelUp, List.length_cons, ih]
    omega

theorem levelUp_map {node : α → α → α} {node' : β → β → β} (f : α → β)
    (hom : ∀ a b, f (node a b) = node' (f a) (f b)) (xs : List α) :
    (levelUp node xs).map f = levelUp node' (xs.map f) := by
  induction xs using levelUp.induct with
  | case1 => rfl
  | case2 a => simp [levelUp, hom]
  | case3 a b rest ih => simp [levelUp, hom, ih]

/-- Levels are paired up while more than one value is left. -/
def climb (node : α → α → α) : List α → List α
  | [] => []
  | [a] => [a]
  | a :: b :: rest => climb node (levelUp node (a :: b :: rest))
termination_by xs => xs.length
decreasing_by
  simp only [length_levelUp, List.length_cons]
  omega

def root (node : α → α → α) (xs : List α) : Option α := (climb node xs).head?

theorem climb_map {node : α → α → α} {node' : β → β → β} (f : α → β)
    (hom : ∀ a b, f (node a b) = node' (f a) (f b)) (xs : List α) :
    (climb node xs).map f = climb node' (xs.map f) := by
  induction xs using climb.induct node with
  | case1 => simp [climb]
  | case2 a => simp [climb]
  | case3 a b rest ih =>
    rw [climb, ih, levelUp_map f hom, List.map_cons, List.map_cons, climb]

theorem root_map {node : α → α → α} {node' : β → β → β} (f : α → β)
    (hom : ∀ a b, f (node a b) = node' (f a) (f b)) (xs : List α) :
    (root node xs).map f = root node' (xs.map f) := by
  rw [root, root, ← climb_map f hom, List.head?_map]

theorem climb_eq_singleton (node : α → α → α) (xs : List α) (nonempty : xs ≠ []) :
    ∃ r, climb node xs = [r] := by
  induction xs using climb.induct node with
  | case1 => exact absurd rfl nonempty
  | case2 a => exact ⟨a, by simp [climb]⟩
  | case3 a b rest ih =>
    rw [climb]
    exact ih (by simp [levelUp])

theorem climb_eq_iterate (node : α → α → α) (xs : List α) :
    ∃ k, climb node xs = (levelUp node)^[k] xs := by
  induction xs using climb.induct node with
  | case1 => exact ⟨0, by simp [climb]⟩
  | case2 a => exact ⟨0, by simp [climb]⟩
  | case3 a b rest ih =>
    obtain ⟨k, hk⟩ := ih
    exact ⟨k + 1, by rw [climb, hk, Function.iterate_succ_apply]⟩

end Climb

section Symbolic

/-- The values a root is computed from. -/
inductive Tree (L : Type u) where
  | leaf (l : L)
  | node (left right : Tree L)

variable {L : Type u} {α : Type v}

def Tree.eval (leaf : L → α) (node : α → α → α) : Tree L → α
  | .leaf l => leaf l
  | .node left right => node (left.eval leaf node) (right.eval leaf node)

def treeOf (leaves : List L) : Option (Tree L) := root .node (leaves.map .leaf)

theorem root_eq_eval (leaf : L → α) (node : α → α → α) (leaves : List L) :
    root node (leaves.map leaf) = (treeOf leaves).map (Tree.eval leaf node) := by
  rw [treeOf, root_map (Tree.eval leaf node) (fun _ _ => rfl), List.map_map]
  rfl

theorem treeOf_isSome {leaves : List L} (nonempty : leaves ≠ []) :
    ∃ t, treeOf leaves = some t := by
  obtain ⟨t, ht⟩ := climb_eq_singleton Tree.node (leaves.map Tree.leaf) (by simpa using nonempty)
  exact ⟨t, by rw [treeOf, root, ht]; rfl⟩

theorem node_of_mem_levelUp {xs : List (Tree L)} {t : Tree L} (h : t ∈ levelUp Tree.node xs) :
    ∃ a ∈ xs, ∃ b ∈ xs, t = .node a b := by
  induction xs using levelUp.induct with
  | case1 => cases h
  | case2 a => exact ⟨a, by simp, a, by simp, List.mem_singleton.mp h⟩
  | case3 a b rest ih =>
    rcases List.mem_cons.mp h with rfl | h
    · exact ⟨a, by simp, b, by simp, rfl⟩
    · obtain ⟨c, hc, d, hd, ht⟩ := ih h
      exact ⟨c, by simp [hc], d, by simp [hd], ht⟩

theorem nodup_levelUp {xs : List (Tree L)} (distinct : xs.Nodup) :
    (levelUp Tree.node xs).Nodup := by
  induction xs using levelUp.induct with
  | case1 => exact List.nodup_nil
  | case2 a => exact List.nodup_singleton _
  | case3 a b rest ih =>
    obtain ⟨ha, hrest⟩ := List.nodup_cons.mp distinct
    refine List.nodup_cons.mpr ⟨?_, ih (List.nodup_cons.mp hrest).2⟩
    intro hmem
    obtain ⟨c, hc, d, hd, he⟩ := node_of_mem_levelUp hmem
    cases he
    exact ha (List.mem_cons_of_mem _ hc)

theorem nodup_iterate {xs : List (Tree L)} (distinct : xs.Nodup) (k : Nat) :
    ((levelUp Tree.node)^[k] xs).Nodup := by
  induction k generalizing xs with
  | zero => exact distinct
  | succ k ih => exact ih (nodup_levelUp distinct)

/-- A level of distinct values is determined by the level above it: only a
repeated value could be mistaken for the padding of an odd level. -/
theorem levelUp_injOn : ∀ {xs ys : List (Tree L)}, xs.Nodup → ys.Nodup →
    levelUp Tree.node xs = levelUp Tree.node ys → xs = ys
  | [], [], _, _, _ => rfl
  | [], [_], _, _, he => by cases he
  | [], _ :: _ :: _, _, _, he => by cases he
  | [_], [], _, _, he => by cases he
  | _ :: _ :: _, [], _, _, he => by cases he
  | [a], [b], _, _, he => by
    cases he
    rfl
  | [a], b :: c :: ys, _, hy, he => by
    cases (List.cons.inj he).1
    simp at hy
  | a :: b :: xs, [c], hx, _, he => by
    cases (List.cons.inj he).1
    simp at hx
  | a :: b :: xs, c :: d :: ys, hx, hy, he => by
    obtain ⟨hnode, hrest⟩ := List.cons.inj he
    cases hnode
    rw [levelUp_injOn (List.nodup_cons.mp (List.nodup_cons.mp hx).2).2
      (List.nodup_cons.mp (List.nodup_cons.mp hy).2).2 hrest]

/-- Of two lists with one root, one is a level of the other. -/
theorem level_of_climb_eq (n : Nat) {xs ys : List (Tree L)} (size : xs.length + ys.length ≤ n)
    (hx : xs.Nodup) (hy : ys.Nodup) (he : climb Tree.node xs = climb Tree.node ys) :
    ∃ k, xs = (levelUp Tree.node)^[k] ys ∨ ys = (levelUp Tree.node)^[k] xs := by
  induction n generalizing xs ys with
  | zero =>
    have hxs : xs = [] := List.length_eq_zero_iff.mp (by omega)
    have hys : ys = [] := List.length_eq_zero_iff.mp (by omega)
    exact ⟨0, .inl (hxs.trans hys.symm)⟩
  | succ n ih =>
    match xs, ys with
    | [], ys =>
      obtain ⟨k, hk⟩ := climb_eq_iterate Tree.node ys
      exact ⟨k, .inl (by rw [← hk, ← he, climb])⟩
    | [a], ys =>
      obtain ⟨k, hk⟩ := climb_eq_iterate Tree.node ys
      exact ⟨k, .inl (by rw [← hk, ← he, climb])⟩
    | xs, [] =>
      obtain ⟨k, hk⟩ := climb_eq_iterate Tree.node xs
      exact ⟨k, .inr (by rw [← hk, he, climb])⟩
    | xs, [b] =>
      obtain ⟨k, hk⟩ := climb_eq_iterate Tree.node xs
      exact ⟨k, .inr (by rw [← hk, he, climb])⟩
    | a :: b :: xs, c :: d :: ys =>
      rw [climb, climb] at he
      have shorter : (levelUp Tree.node (a :: b :: xs)).length +
          (levelUp Tree.node (c :: d :: ys)).length ≤ n := by
        simp only [length_levelUp, List.length_cons] at size ⊢
        omega
      obtain ⟨k, hk⟩ := ih shorter (nodup_levelUp hx) (nodup_levelUp hy) he
      refine ⟨k, hk.imp (fun h => ?_) fun h => ?_⟩
      · rw [← Function.iterate_succ_apply, Function.iterate_succ_apply'] at h
        exact levelUp_injOn hx (nodup_iterate hy k) h
      · rw [← Function.iterate_succ_apply, Function.iterate_succ_apply'] at h
        exact levelUp_injOn hy (nodup_iterate hx k) h

/-- Leaves are never the nodes of a level above. -/
theorem iterate_leaves_eq {xs ys : List L} (nonempty : xs ≠ []) {k : Nat}
    (h : xs.map Tree.leaf = (levelUp Tree.node)^[k] (ys.map Tree.leaf)) : xs = ys := by
  cases k with
  | zero => exact List.map_injective_iff.mpr (fun _ _ he => Tree.leaf.inj he) h
  | succ k =>
    rw [Function.iterate_succ_apply'] at h
    obtain ⟨x, rest, rfl⟩ := List.exists_cons_of_ne_nil nonempty
    have hmem : Tree.leaf x ∈ levelUp Tree.node ((levelUp Tree.node)^[k] (ys.map Tree.leaf)) := by
      rw [← h]
      simp
    obtain ⟨_, _, _, _, he⟩ := node_of_mem_levelUp hmem
    cases he

/-- The symbolic root binds a list of distinct leaves, its length included. -/
theorem treeOf_injective {xs ys : List L} (hx : xs.Nodup) (hy : ys.Nodup) (xsne : xs ≠ [])
    (ysne : ys ≠ []) (he : treeOf xs = treeOf ys) : xs = ys := by
  obtain ⟨r, hr⟩ := climb_eq_singleton Tree.node (xs.map Tree.leaf) (by simpa using xsne)
  obtain ⟨s, hs⟩ := climb_eq_singleton Tree.node (ys.map Tree.leaf) (by simpa using ysne)
  have hclimb : climb Tree.node (xs.map Tree.leaf) = climb Tree.node (ys.map Tree.leaf) := by
    rw [treeOf, treeOf, root, root, hr, hs] at he
    rw [hr, hs, Option.some.inj he]
  have leafInj : Function.Injective (Tree.leaf (L := L)) := fun _ _ h => Tree.leaf.inj h
  obtain ⟨k, h | h⟩ := level_of_climb_eq _ (Nat.le_refl _) (hx.map leafInj) (hy.map leafInj) hclimb
  · exact iterate_leaves_eq xsne h
  · exact (iterate_leaves_eq ysne h).symm

end Symbolic

end MerkleTree
