import Mathlib.Algebra.BigOperators.Group.Finset.Basic
import Mathlib.Algebra.BigOperators.Intervals
import Mathlib.Algebra.Order.BigOperators.Group.Finset
import Mathlib.Data.List.Nodup

/-! Pieces of a memory that begin at a fixed stride, whatever of it they use. -/

namespace Strided

variable {stride n i j x : Nat} {used : Nat → Nat}

/-- The places of the pieces, one after the other. -/
def places (stride : Nat) (used : Nat → Nat) (n : Nat) : List Nat :=
  (List.range n).flatMap fun i => (List.range (used i)).map (i * stride + ·)

@[simp] theorem mem_places : x ∈ places stride used n ↔
    ∃ i < n, i * stride ≤ x ∧ x < i * stride + used i := by
  simp only [places, List.mem_flatMap, List.mem_map, List.mem_range]
  constructor
  · rintro ⟨i, hi, r, hr, rfl⟩
    exact ⟨i, hi, by omega, by omega⟩
  · rintro ⟨i, hi, hle, hlt⟩
    exact ⟨i, hi, x - i * stride, by omega, by omega⟩

theorem places_succ : places stride used (n + 1) =
    places stride used n ++ (List.range (used n)).map (n * stride + ·) := by
  unfold places
  rw [List.range_succ, List.flatMap_append, List.flatMap_singleton]

theorem places_congr {used' : Nat → Nat} (h : ∀ i < n, used i = used' i) :
    places stride used n = places stride used' n :=
  List.flatMap_congr fun i hi => by rw [h i (List.mem_range.1 hi)]

theorem length_places : (places stride used n).length = ∑ i ∈ Finset.range n, used i := by
  induction n with
  | zero => rfl
  | succ n ih => rw [places_succ, List.length_append, ih, Finset.sum_range_succ]; simp

theorem sum_of_full (h : ∀ i < n, used i = stride) : ∑ i ∈ Finset.range n, used i = n * stride := by
  rw [Finset.sum_const_nat fun i hi => h i (Finset.mem_range.1 hi), Finset.card_range]

theorem places_of_full (h : ∀ i, i + 1 < n → used i = stride) :
    places stride used n = List.range (∑ i ∈ Finset.range n, used i) := by
  induction n with
  | zero => rfl
  | succ n ih =>
    have hfull : ∀ i < n, used i = stride := fun i hi => h i (by omega)
    rw [places_succ, ih fun i hi => h i (by omega), Finset.sum_range_succ, List.range_add,
      sum_of_full hfull]

theorem sum_le (h : j < n) : ∑ i ∈ Finset.range j, used i + used j ≤
    ∑ i ∈ Finset.range n, used i := by
  rw [← Finset.sum_range_succ]
  exact Finset.sum_le_sum_of_subset (Finset.range_mono h)

/-- A piece that reaches into the next one has a place twice, so that the others cannot fill the
range. -/
theorem exists_gap_of_lt (hj : j + 1 < n) (hpos : 0 < used (j + 1)) (hlt : stride < used j) :
    ∃ x < ∑ i ∈ Finset.range n, used i, x ∉ places stride used n := by
  by_contra hall
  push Not at hall
  have hsub : List.range (∑ i ∈ Finset.range n, used i) ⊆ places stride used n :=
    fun x hx => hall x (List.mem_range.1 hx)
  have hperm := (List.subperm_of_subset List.nodup_range hsub).perm_of_length_le
    (by rw [length_places, List.length_range])
  have hnodup : (places stride used n).Nodup := hperm.nodup_iff.1 List.nodup_range
  have hdisjoint := (List.nodup_flatMap.1 hnodup).2
  rw [List.pairwise_iff_getElem] at hdisjoint
  have := hdisjoint j (j + 1) (by simp; omega) (by simp; omega) (Nat.lt_succ_self j)
  simp only [List.getElem_range, Function.onFun] at this
  refine this (a := (j + 1) * stride) (List.mem_map.2 ⟨stride, List.mem_range.2 hlt, ?_⟩)
    (List.mem_map.2 ⟨0, List.mem_range.2 hpos, rfl⟩)
  rw [Nat.succ_mul]

theorem exists_gap (hpos : ∀ i < n, 0 < used i) (hj : j + 1 < n) (hne : used j ≠ stride) :
    ∃ x < ∑ i ∈ Finset.range n, used i, x ∉ places stride used n := by
  induction j using Nat.strong_induction_on with
  | _ j ih =>
    by_cases hbefore : ∃ i < j, used i ≠ stride
    · obtain ⟨i, hi, hne'⟩ := hbefore
      exact ih i hi (by omega) hne'
    · push Not at hbefore
      rcases Nat.lt_or_gt_of_ne hne with hlt | hgt
      · refine ⟨j * stride + used j, ?_, fun hmem => ?_⟩
        · have hsum := @sum_le n (j + 1) used hj
          have hnext := hpos (j + 1) hj
          rw [Finset.sum_range_succ, sum_of_full hbefore] at hsum
          omega
        · obtain ⟨i, hi, hle, hlt'⟩ := mem_places.1 hmem
          rcases Nat.lt_trichotomy i j with hij | rfl | hij
          · have hmul := Nat.mul_le_mul_right stride (Nat.succ_le_of_lt hij)
            rw [Nat.succ_mul] at hmul
            rw [hbefore i hij] at hlt'
            omega
          · omega
          · have hmul := Nat.mul_le_mul_right stride (Nat.succ_le_of_lt hij)
            rw [Nat.succ_mul] at hmul
            omega
      · exact exists_gap_of_lt hj (hpos _ hj) hgt

end Strided
