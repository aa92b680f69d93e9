import Mathlib.Data.List.Sort
import Mathlib.Order.WellFounded

universe u

/-! Numbered blocks one after the other, and blocks picked out by an increasing sequence. -/

namespace Blocks

variable {α : Type u} {f : Nat → Nat} {block : Nat → List α} {n : Nat}

theorem flatMap_filter {p : Nat → Bool} {l : List Nat} (h : ∀ i ∈ l, p i = false → block i = []) :
    (l.filter p).flatMap block = l.flatMap block := by
  induction l with
  | nil => rfl
  | cons i l ih =>
    have ih := ih fun j hj => h j (List.mem_cons_of_mem i hj)
    rw [List.filter_cons, List.flatMap_cons]
    cases hp : p i with
    | false =>
      rw [h i List.mem_cons_self hp, List.nil_append, if_neg Bool.false_ne_true]
      exact ih
    | true =>
      rw [if_pos rfl, List.flatMap_cons, ih]

/-- A strictly increasing sequence goes through the numbers below `n` that it has. -/
theorem filter_map_of_strictMono (hf : StrictMono f) [DecidablePred (· ∈ Set.range f)] :
    ((List.range n).filter fun s => f s < n).map f =
      (List.range n).filter fun p => p ∈ Set.range f := by
  refine List.Pairwise.eq_of_mem_iff (r := (· < ·)) ?_ (List.pairwise_lt_range.filter _) fun p => ?_
  · rw [List.pairwise_map]
    exact (List.pairwise_lt_range.filter _).imp fun hlt => hf hlt
  · simp only [List.mem_map, List.mem_filter, List.mem_range, decide_eq_true_eq, Set.mem_range]
    constructor
    · rintro ⟨s, ⟨-, hlt⟩, rfl⟩
      exact ⟨hlt, s, rfl⟩
    · rintro ⟨hp, s, rfl⟩
      exact ⟨s, ⟨Nat.lt_of_le_of_lt (hf.le_apply) hp, hp⟩, rfl⟩

/-- If only blocks with numbers of the sequence have elements, and those behind the first `n` have
none, the sequence lists all of them. -/
theorem flatMap_of_strictMono (hf : StrictMono f) (hskip : ∀ p < n, p ∉ Set.range f → block p = [])
    (hout : ∀ s < n, n ≤ f s → block (f s) = []) :
    (List.range n).flatMap (fun s => block (f s)) = (List.range n).flatMap block := by
  classical
  calc (List.range n).flatMap (fun s => block (f s))
      = ((List.range n).filter fun s => f s < n).flatMap (fun s => block (f s)) :=
        (flatMap_filter fun s hs hle =>
          hout s (List.mem_range.1 hs) (Nat.not_lt.1 (of_decide_eq_false hle))).symm
    _ = (((List.range n).filter fun s => f s < n).map f).flatMap block := by
        rw [List.flatMap_map]
    _ = ((List.range n).filter fun p => p ∈ Set.range f).flatMap block := by
        rw [filter_map_of_strictMono hf]
    _ = (List.range n).flatMap block :=
        flatMap_filter fun p hp hnot =>
          hskip p (List.mem_range.1 hp) (of_decide_eq_false hnot)

end Blocks
