import Mathlib.Data.Set.Pairwise.Lattice
import Mathlib.Order.CompletePartialOrder
import Mathlib.Order.Interval.Set.LinearOrder
import Mathlib.Order.Lattice.Nat
import Mathlib.Tactic.Common

universe u v

/-! Families of sets that cover a target exactly once, and the intervals that a
ceiling division cuts out of a range. -/

/-- The members indexed by `I` are pairwise disjoint and together make up `T`. -/
structure Tiles {ι : Type u} {α : Type v} (I : Set ι) (f : ι → Set α) (T : Set α) : Prop where
  disjoint : I.PairwiseDisjoint f
  union : ⋃ i ∈ I, f i = T

namespace Tiles

variable {ι : Type u} {α : Type v} {I : Set ι} {f : ι → Set α} {T : Set α}

/-- A family tiles `T` as soon as every point of `T` has an owner that is unique. -/
theorem of_owner (owner : α → ι) (hsub : ∀ i ∈ I, f i ⊆ T)
    (hown : ∀ x ∈ T, owner x ∈ I ∧ x ∈ f (owner x))
    (huniq : ∀ i ∈ I, ∀ x ∈ f i, i = owner x) : Tiles I f T where
  disjoint i hi j hj hij := by
    refine Set.disjoint_left.2 fun x hx hx' => hij ?_
    rw [huniq i hi x hx, huniq j hj x hx']
  union := by
    ext x
    simp only [Set.mem_iUnion, exists_prop]
    constructor
    · rintro ⟨i, hi, hx⟩
      exact hsub i hi hx
    · intro hx
      exact ⟨owner x, hown x hx⟩

theorem mem_iff (h : Tiles I f T) {x : α} : x ∈ T ↔ ∃ i ∈ I, x ∈ f i := by
  rw [← h.union]
  simp

theorem owner_unique (h : Tiles I f T) {i j : ι} (hi : i ∈ I) (hj : j ∈ I) {x : α}
    (hx : x ∈ f i) (hx' : x ∈ f j) : i = j := by
  by_contra hij
  exact Set.disjoint_left.1 (h.disjoint hi hj hij) hx hx'

theorem subset (h : Tiles I f T) {i : ι} (hi : i ∈ I) : f i ⊆ T := by
  rw [← h.union]
  exact Set.subset_biUnion_of_mem hi

theorem congr {g : ι → Set α} (h : ∀ i ∈ I, f i = g i) : Tiles I f T ↔ Tiles I g T := by
  constructor
  · intro ht
    exact ⟨fun i hi j hj hij => by
      simpa [Function.onFun, h i hi, h j hj] using ht.disjoint hi hj hij,
      by rw [← ht.union]; exact Set.iUnion₂_congr fun i hi => (h i hi).symm⟩
  · intro ht
    exact ⟨fun i hi j hj hij => by
      simpa [Function.onFun, h i hi, h j hj] using ht.disjoint hi hj hij,
      by rw [← ht.union]; exact Set.iUnion₂_congr fun i hi => h i hi⟩

section

variable {place : Nat → Nat} {k : Nat}

theorem place_le (h : ∀ i < k, place i ≤ place (i + 1)) {i j : Nat} (hij : i ≤ j) (hj : j ≤ k) :
    place i ≤ place j := by
  induction j, hij using Nat.le_induction with
  | base => exact Nat.le_refl _
  | succ j hij ih => exact Nat.le_trans (ih (Nat.le_of_succ_le hj)) (h j hj)

theorem steps (h : ∀ i < k, place i ≤ place (i + 1)) :
    Tiles {i | i < k} (fun i => Set.Ico (place i) (place (i + 1))) (Set.Ico (place 0) (place k)) where
  disjoint i hi j hj hne := by
    rw [Function.onFun, Set.disjoint_left]
    rintro x ⟨hlo, hhi⟩ ⟨hlo', hhi'⟩
    rcases Nat.lt_or_gt_of_ne hne with hlt | hgt
    · have hle : place (i + 1) ≤ place j := place_le h hlt (Nat.le_of_lt hj)
      exact absurd hhi (Nat.not_lt.2 (Nat.le_trans hle hlo'))
    · have hle : place (j + 1) ≤ place i := place_le h hgt (Nat.le_of_lt hi)
      exact absurd hhi' (Nat.not_lt.2 (Nat.le_trans hle hlo))
  union := by
    induction k with
    | zero => simp
    | succ k ih =>
      have hk : ∀ i < k, place i ≤ place (i + 1) := fun i hi => h i (Nat.lt_succ_of_lt hi)
      have hsplit := Set.biUnion_lt_succ (fun i => Set.Ico (place i) (place (i + 1))) k
      rw [show ⋃ i < k, Set.Ico (place i) (place (i + 1)) = _ from ih hk, Set.Ico_union_Ico_eq_Ico
        (place_le hk (Nat.zero_le k) (Nat.le_refl k)) (h k (Nat.lt_succ_self k))] at hsplit
      exact hsplit

end

end Tiles
