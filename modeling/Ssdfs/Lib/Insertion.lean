import Mathlib.Tactic.Common

/-! Insertion in front of the first element of a list that has a property. -/

variable {α : Type}

def insertBefore (p : α → Bool) (a : α) (l : List α) : List α :=
  l.take (l.findIdx p) ++ a :: l.drop (l.findIdx p)

section

variable {p : α → Bool} {a x : α} {l : List α}

@[simp] theorem insertBefore_nil : insertBefore p a [] = [a] := rfl

@[simp] theorem insertBefore_cons :
    insertBefore p a (x :: l) = if p x then a :: x :: l else x :: insertBefore p a l := by
  unfold insertBefore
  rw [List.findIdx_cons]
  cases p x <;> rfl

@[simp] theorem mem_insertBefore {b : α} : b ∈ insertBefore p a l ↔ b = a ∨ b ∈ l := by
  induction l with
  | nil => rw [insertBefore_nil, List.mem_singleton, or_iff_left List.not_mem_nil]
  | cons x l ih =>
    rw [insertBefore_cons]
    split
    · rw [List.mem_cons]
    · rw [List.mem_cons, ih, List.mem_cons, or_left_comm]

@[simp] theorem length_insertBefore : (insertBefore p a l).length = l.length + 1 := by
  induction l with
  | nil => rfl
  | cons x l ih =>
    rw [insertBefore_cons]
    split
    · rfl
    · rw [List.length_cons, ih, List.length_cons]

theorem pairwise_insertBefore {key : α → Nat} (hsorted : l.Pairwise fun x y => key x < key y)
    (hnew : ∀ x ∈ l, key x ≠ key a) :
    (insertBefore (fun x => decide (key a < key x)) a l).Pairwise fun x y => key x < key y := by
  induction l with
  | nil => exact List.pairwise_singleton ..
  | cons x l ih =>
    obtain ⟨hhead, htail⟩ := List.pairwise_cons.1 hsorted
    rw [insertBefore_cons]
    split
    case isTrue hlt =>
      have hlt : key a < key x := of_decide_eq_true hlt
      refine List.pairwise_cons.2 ⟨fun y hy => ?_, hsorted⟩
      rcases List.mem_cons.1 hy with rfl | hy
      · exact hlt
      · exact Nat.lt_trans hlt (hhead y hy)
    case isFalse hge =>
      have hge : ¬key a < key x := fun hlt => hge (decide_eq_true hlt)
      have hne := hnew x List.mem_cons_self
      refine List.pairwise_cons.2 ⟨fun y hy => ?_, ih htail fun y hy => hnew y (List.mem_cons_of_mem x hy)⟩
      rcases mem_insertBefore.1 hy with rfl | hy
      · omega
      · exact hhead y hy

end
