import Mathlib.Data.List.Flatten

/-! Sequences of numbers as runs of consecutive ones. -/

namespace Runs

/-- The newest run comes first. -/
def extend (x : Nat) : List (Nat × Nat) → List (Nat × Nat)
  | [] => [(x, 1)]
  | run :: rest => if run.1 + run.2 = x then (run.1, run.2 + 1) :: rest else (x, 1) :: run :: rest

/-- The runs of the first `n` values, from the last one to the first one. -/
def newest (f : Nat → Nat) : Nat → List (Nat × Nat)
  | 0 => []
  | n + 1 => extend (f n) (newest f n)

def runs (f : Nat → Nat) (n : Nat) : List (Nat × Nat) := (newest f n).reverse

def members (run : Nat × Nat) : List Nat := List.range' run.1 run.2

section

variable {f : Nat → Nat} {x n m : Nat} {l : List (Nat × Nat)}

@[simp] theorem extend_cons (x : Nat) (run : Nat × Nat) (rest : List (Nat × Nat)) :
    extend x (run :: rest) =
      if run.1 + run.2 = x then (run.1, run.2 + 1) :: rest else (x, 1) :: run :: rest := rfl

theorem members_extend : (extend x l).reverse.flatMap members = l.reverse.flatMap members ++ [x] := by
  cases l with
  | nil => rfl
  | cons run rest =>
    rw [extend_cons]
    split
    case isTrue h =>
      rw [List.reverse_cons, List.flatMap_append, List.reverse_cons, List.flatMap_append,
        List.append_assoc]
      congr 1
      rw [List.flatMap_singleton, List.flatMap_singleton, ← h]
      unfold members
      rw [List.range'_concat, Nat.one_mul]
    case isFalse =>
      rw [List.reverse_cons, List.flatMap_append]
      rfl

theorem members_runs (f : Nat → Nat) (n : Nat) : (runs f n).flatMap members = (List.range n).map f := by
  induction n with
  | zero => rfl
  | succ n ih =>
    unfold runs newest
    rw [members_extend, List.range_succ, List.map_append, ← ih]
    rfl

theorem length_le_extend : l.length ≤ (extend x l).length := by
  cases l with
  | nil => exact Nat.zero_le _
  | cons run rest =>
    rw [extend_cons]
    split
    · exact Nat.le_refl _
    · exact Nat.le_succ _

theorem length_newest_mono (h : m ≤ n) : (newest f m).length ≤ (newest f n).length := by
  induction h with
  | refl => exact Nat.le_refl _
  | step _ ih => exact Nat.le_trans ih length_le_extend

theorem newest_pos : newest f (n + 1) ≠ [] := by
  unfold newest
  cases newest f n with
  | nil => exact List.cons_ne_nil _ _
  | cons run rest =>
    rw [extend_cons]
    split <;> exact List.cons_ne_nil _ _

theorem end_newest {run : Nat × Nat} {rest : List (Nat × Nat)} (h : newest f (n + 1) = run :: rest) :
    run.1 + run.2 = f n + 1 ∧ 0 < run.2 := by
  unfold newest at h
  cases hn : newest f n with
  | nil =>
    rw [hn] at h
    cases h
    exact ⟨rfl, Nat.one_pos⟩
  | cons last older =>
    rw [hn, extend_cons] at h
    split at h
    case isTrue heq =>
      cases h
      exact ⟨by rw [← heq, Nat.add_assoc], Nat.succ_pos _⟩
    case isFalse =>
      cases h
      exact ⟨rfl, Nat.one_pos⟩

theorem newest_bounds {run : Nat × Nat} (h : run ∈ newest f n) :
    (∃ i < n, run.1 = f i) ∧ run.2 ≤ n := by
  induction n generalizing run with
  | zero => cases h
  | succ n ih =>
    have hnew : run = (f n, 1) → (∃ i < n + 1, run.1 = f i) ∧ run.2 ≤ n + 1 := by
      rintro rfl
      exact ⟨⟨n, Nat.lt_succ_self n, rfl⟩, Nat.succ_le_succ (Nat.zero_le n)⟩
    have hold : ∀ r ∈ newest f n, (∃ i < n + 1, r.1 = f i) ∧ r.2 + 1 ≤ n + 1 := fun r hr => by
      obtain ⟨⟨i, hi, hstart⟩, hlen⟩ := ih hr
      exact ⟨⟨i, Nat.lt_succ_of_lt hi, hstart⟩, Nat.succ_le_succ hlen⟩
    unfold newest at h
    cases hn : newest f n with
    | nil =>
      rw [hn] at h
      exact hnew (List.mem_singleton.1 h)
    | cons last rest =>
      rw [hn] at hold
      rw [hn, extend_cons] at h
      split at h
      · rcases List.mem_cons.1 h with rfl | hmem
        · exact hold last (List.mem_cons_self ..)
        · obtain ⟨hstart, hlen⟩ := hold run (List.mem_cons_of_mem _ hmem)
          exact ⟨hstart, Nat.le_of_succ_le hlen⟩
      · rcases List.mem_cons.1 h with rfl | hmem
        · exact hnew rfl
        · obtain ⟨hstart, hlen⟩ := hold run hmem
          exact ⟨hstart, Nat.le_of_succ_le hlen⟩

@[simp] theorem length_runs : (runs f n).length = (newest f n).length := List.length_reverse

end

theorem flatMap_slots {α β : Type} (g : α → List β) {l : List α} {n : Nat} (h : l.length ≤ n) :
    ((List.range n).flatMap fun i => (l[i]?).elim [] g) = l.flatMap g := by
  induction l generalizing n with
  | nil => simp
  | cons a l ih =>
    obtain ⟨n, rfl⟩ := Nat.exists_eq_succ_of_ne_zero (Nat.pos_iff_ne_zero.1 (Nat.lt_of_lt_of_le
      (Nat.succ_pos l.length) h))
    rw [List.range_succ_eq_map, List.flatMap_cons, List.flatMap_map, List.flatMap_cons,
      ← ih (Nat.succ_le_succ_iff.1 h)]
    rfl

def firstMembers (l : List (Nat × Nat)) (k : Nat) : List Nat := (l.take k).flatMap members

section

variable {l : List (Nat × Nat)} {k : Nat}

theorem firstMembers_succ (h : k < l.length) :
    firstMembers l (k + 1) = firstMembers l k ++ members (l[k]) := by
  unfold firstMembers
  rw [← List.take_append_getElem h, List.flatMap_append, List.flatMap_singleton]

theorem firstMembers_of_le (h : l.length ≤ k) : firstMembers l k = l.flatMap members := by
  unfold firstMembers
  rw [List.take_of_length_le h]

theorem length_firstMembers_le : (firstMembers l k).length ≤ (l.flatMap members).length := by
  have hsplit : l.flatMap members = firstMembers l k ++ (l.drop k).flatMap members := by
    unfold firstMembers
    rw [← List.flatMap_append, List.take_append_drop]
  rw [hsplit, List.length_append]
  exact Nat.le_add_right _ _

@[simp] theorem length_members (run : Nat × Nat) : (members run).length = run.2 := List.length_range'

end

end Runs
