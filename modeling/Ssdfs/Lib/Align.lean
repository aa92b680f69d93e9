import Mathlib.Data.List.Chain
import Mathlib.Tactic.Common

/-! Rounding up to whole pages, and pieces that are placed one behind the other with at most
such a rounding between them. -/

namespace Align

def padTo (a x : Nat) : Nat := (x + (a - 1)) / a * a

variable {a x y : Nat}

theorem dvd_padTo : a ∣ padTo a x := Nat.dvd_mul_left a _

theorem le_padTo (ha : 0 < a) : x ≤ padTo a x := by
  have hdm := Nat.div_add_mod (x + (a - 1)) a
  have hmod := Nat.mod_lt (x + (a - 1)) ha
  unfold padTo
  rw [Nat.mul_comm]
  omega

theorem padTo_lt (ha : 0 < a) : padTo a x < x + a := by
  have hle := Nat.div_mul_le_self (x + (a - 1)) a
  unfold padTo
  omega

theorem padTo_le (h : x ≤ y) (hy : a ∣ y) : padTo a x ≤ y := by
  obtain ⟨k, rfl⟩ := hy
  rcases Nat.eq_zero_or_pos a with rfl | ha
  · simp [padTo]
  · have hlt : (x + (a - 1)) / a < k + 1 := by
      rw [Nat.div_lt_iff_lt_mul ha, Nat.add_mul, Nat.one_mul, Nat.mul_comm k a]
      omega
    unfold padTo
    rw [Nat.mul_comm]
    exact Nat.mul_le_mul_left a (Nat.lt_succ_iff.1 hlt)

theorem padTo_mono (ha : 0 < a) (h : x ≤ y) : padTo a x ≤ padTo a y :=
  padTo_le (Nat.le_trans h (le_padTo ha)) dvd_padTo

theorem padTo_of_dvd (ha : 0 < a) (h : a ∣ x) : padTo a x = x :=
  Nat.le_antisymm (padTo_le (Nat.le_refl x) h) (le_padTo ha)

@[simp] theorem padTo_padTo (ha : 0 < a) : padTo a (padTo a x) = padTo a x :=
  padTo_of_dvd ha dvd_padTo

theorem le_padTo_of_lt (ha : 0 < a) (hx : a ∣ x) (h : x < y + a) : x ≤ padTo a y := by
  obtain ⟨k, rfl⟩ := hx
  have hle : k ≤ (y + (a - 1)) / a := by
    rw [Nat.le_div_iff_mul_le ha, Nat.mul_comm]
    omega
  unfold padTo
  rw [Nat.mul_comm]
  exact Nat.mul_le_mul_right a hle

theorem padTo_add (ha : 0 < a) (h : a ∣ x) : padTo a (x + y) = x + padTo a y := by
  obtain ⟨k, rfl⟩ := h
  unfold padTo
  rw [Nat.add_assoc, Nat.mul_add_div ha, Nat.add_mul, Nat.mul_comm k a]

/-- Each piece begins behind the one before it, at most at the next page boundary. -/
def Serial {ι : Type} (a : Nat) (start finish : ι → Nat) (l : List ι) : Prop :=
  l.IsChain fun k k' => finish k ≤ start k' ∧ start k' ≤ padTo a (finish k)

namespace Serial

variable {ι : Type} {start finish : ι → Nat} {l : List ι} {p : ι → Bool}

theorem ordered (h : Serial a start finish l) (hle : ∀ k ∈ l, start k ≤ finish k) :
    l.Pairwise fun k k' => finish k ≤ start k' := by
  induction l with
  | nil => exact List.Pairwise.nil
  | cons k l ih =>
    have hrest : Serial a start finish l := (List.isChain_cons.1 h).2
    have hle' : ∀ k ∈ l, start k ≤ finish k := fun k hk => hle k (List.mem_cons_of_mem _ hk)
    have hpair := ih hrest hle'
    refine List.pairwise_cons.2 ⟨fun k' hk' => ?_, hpair⟩
    cases l with
    | nil => cases hk'
    | cons i l =>
      have hi := ((List.isChain_cons.1 h).1 i rfl).1
      rcases List.mem_cons.1 hk' with rfl | hk'
      · exact hi
      · exact Nat.le_trans hi (Nat.le_trans (hle' i List.mem_cons_self)
          ((List.pairwise_cons.1 hpair).1 k' hk'))

theorem head_le (ha : 0 < a) {k k' : ι} (h : Serial a start finish (k :: l))
    (hempty : ∀ k ∈ l, p k = false → start k = finish k)
    (hk' : (l.filter p).head? = some k') : start k' ≤ padTo a (finish k) := by
  induction l generalizing k with
  | nil => cases hk'
  | cons i l ih =>
    obtain ⟨hi, hrest⟩ := List.isChain_cons.1 h
    have hi := (hi i rfl).2
    cases hp : p i with
    | true =>
      rw [List.filter_cons_of_pos hp] at hk'
      cases hk'
      exact hi
    | false =>
      rw [List.filter_cons_of_neg (by simp [hp])] at hk'
      have hle := ih hrest (fun k hk => hempty k (List.mem_cons_of_mem _ hk)) hk'
      rw [← hempty i List.mem_cons_self hp] at hle
      exact Nat.le_trans hle (Nat.le_trans (padTo_mono ha hi) (Nat.le_of_eq (padTo_padTo ha)))

theorem near (ha : 0 < a) (h : Serial a start finish l)
    (hempty : ∀ k ∈ l, p k = false → start k = finish k) :
    (l.filter p).IsChain fun k k' => start k' < finish k + a := by
  induction l with
  | nil => exact List.isChain_nil
  | cons k l ih =>
    have hempty' : ∀ k ∈ l, p k = false → start k = finish k :=
      fun k hk => hempty k (List.mem_cons_of_mem _ hk)
    have hrest := ih (List.isChain_cons.1 h).2 hempty'
    cases hp : p k with
    | true =>
      rw [List.filter_cons_of_pos hp]
      refine List.isChain_cons.2 ⟨fun k' hk' => ?_, hrest⟩
      exact Nat.lt_of_le_of_lt (head_le ha h hempty' hk') (padTo_lt ha)
    | false =>
      rwa [List.filter_cons_of_neg (by simp [hp])]

end Serial

end Align
