import Mathlib.Data.List.Perm.Basic

universe u

/-! A list read in chunks of a fixed size, and the order between the chunks. -/

namespace Chunks

variable {α : Type u} {size : Nat}

def chunk (size i : Nat) (l : List α) : List α := (l.drop (size * i)).take size

/-- Inside a chunk the first element is below the others, and every element of a chunk is
below those of later chunks. -/
def Ascend (size : Nat) (key : α → Nat) (l : List α) : Prop :=
  ∀ i j (hi : i < l.length) (hj : j < l.length), i < j →
    (i % size = 0 ∨ i / size < j / size) → key l[i] < key l[j]

@[simp] theorem length_chunk (i : Nat) (l : List α) :
    (chunk size i l).length = min size (l.length - size * i) := by
  simp [chunk]

theorem mem_chunk (hs : 0 < size) {i : Nat} {l : List α} {a : α} :
    a ∈ chunk size i l ↔ ∃ u, ∃ h : u < l.length, u / size = i ∧ l[u] = a := by
  unfold chunk
  rw [List.mem_take_iff_getElem]
  constructor
  · rintro ⟨j, hj, rfl⟩
    rw [List.length_drop] at hj
    refine ⟨size * i + j, by omega, ?_, by rw [List.getElem_drop]⟩
    rw [Nat.mul_add_div hs, Nat.div_eq_of_lt (by omega), Nat.add_zero]
  · rintro ⟨u, hu, rfl, rfl⟩
    have hdm := Nat.div_add_mod u size
    have hmod := Nat.mod_lt u hs
    refine ⟨u % size, by rw [List.length_drop]; omega, ?_⟩
    rw [List.getElem_drop]
    congr 1

theorem chunk_append_self {l : List α} (hs : 0 < size) (a : α) :
    chunk size (l.length / size) (l ++ [a]) = chunk size (l.length / size) l ++ [a] := by
  have hdm := Nat.div_add_mod l.length size
  have hmod := Nat.mod_lt l.length hs
  unfold chunk
  rw [List.drop_append_of_le_length (by omega), List.take_append, List.length_drop,
    List.take_of_length_le (i := size - _) (by simp; omega)]

theorem chunk_append_of_ne {l : List α} {i : Nat} (hs : 0 < size) (hi : i ≠ l.length / size)
    (a : α) : chunk size i (l ++ [a]) = chunk size i l := by
  have hdm := Nat.div_add_mod l.length size
  have hmod := Nat.mod_lt l.length hs
  unfold chunk
  rcases Nat.lt_or_gt_of_ne hi with hlt | hgt
  · have := Nat.mul_le_mul_left size hlt
    rw [Nat.mul_succ] at this
    rw [List.drop_append_of_le_length (by omega), List.take_append_of_le_length]
    rw [List.length_drop]
    omega
  · have := Nat.mul_le_mul_left size hgt
    rw [Nat.mul_succ] at this
    rw [List.drop_of_length_le (by simp; omega), List.drop_of_length_le (by omega)]

theorem flatMap_chunk (n : Nat) (l : List α) :
    (List.range n).flatMap (chunk size · l) = l.take (size * n) := by
  induction n with
  | zero => simp
  | succ n ih =>
    rw [List.range_succ, List.flatMap_append, ih, Nat.mul_succ, List.take_add]
    simp [chunk]

/-- Blocks of `size` numbers make up a range if each number is the one of its place. -/
theorem flatMap_range_eq_range_iff {n : Nat} {f : Nat → Nat → Nat} :
    (List.range n).flatMap (fun i => (List.range size).map (f i)) = List.range (n * size) ↔
      ∀ i < n, ∀ k < size, f i k = i * size + k := by
  induction n with
  | zero => simp
  | succ n ih =>
    have hlength : ((List.range n).flatMap fun i => (List.range size).map (f i)).length =
        (List.range (n * size)).length := by
      simp [List.length_flatMap]
    rw [List.range_succ, List.flatMap_append, List.flatMap_singleton, Nat.succ_mul, List.range_add]
    constructor
    · intro h i hi k hk
      obtain ⟨h, hn⟩ := List.append_inj h hlength
      rw [ih] at h
      rw [List.map_inj_left] at hn
      rcases Nat.lt_succ_iff_lt_or_eq.1 hi with hlt | rfl
      · exact h i hlt k hk
      · exact hn k (List.mem_range.2 hk)
    · intro h
      rw [ih.2 fun i hi => h i (Nat.lt_succ_of_lt hi), List.map_congr_left fun k hk =>
        h n (Nat.lt_succ_self n) k (List.mem_range.1 hk)]

theorem Ascend.of_pairwise {key : α → Nat} {l : List α} (h : l.Pairwise fun a b => key a < key b) :
    Ascend size key l := fun i j hi hj hij _ =>
  List.pairwise_iff_getElem.1 h i j hi hj hij

theorem Ascend.of_append {key : α → Nat} {l l' : List α} (h : Ascend size key (l ++ l')) :
    Ascend size key l := by
  intro i j hi hj hij hc
  have := h i j (by simp; omega) (by simp; omega) hij hc
  rwa [List.getElem_append_left hi, List.getElem_append_left hj] at this

theorem Ascend.lt_last {key : α → Nat} {l : List α} {a : α} (h : Ascend size key (l ++ [a])) {i : Nat}
    (hi : i < l.length) (hc : i % size = 0 ∨ i / size < l.length / size) : key l[i] < key a := by
  have := h i l.length (by simp; omega) (by simp) hi hc
  rwa [List.getElem_append_left hi, List.getElem_concat_length rfl] at this

theorem not_ascend_append {key : α → Nat} {l : List α} {a : α} (h : Ascend size key l)
    (hnot : ¬Ascend size key (l ++ [a])) :
    ∃ i, ∃ hi : i < l.length, (i % size = 0 ∨ i / size < l.length / size) ∧ key a ≤ key l[i] := by
  unfold Ascend at hnot
  push Not at hnot
  obtain ⟨i, j, hi, hj, hij, hc, hle⟩ := hnot
  rw [List.length_append, List.length_singleton] at hi hj
  have hil : i < l.length := by omega
  rw [List.getElem_append_left hil] at hle
  rcases Nat.lt_succ_iff_lt_or_eq.1 hj with hlt | rfl
  · rw [List.getElem_append_left hlt] at hle
    have := h i j hil hlt hij hc
    omega
  · exact ⟨i, hil, hc, by simpa using hle⟩

end Chunks
