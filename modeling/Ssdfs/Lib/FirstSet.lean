import Mathlib.Algebra.GroupWithZero.Nat
import Mathlib.Tactic.Common

/-! The place of the lowest set bit. -/

/-- Of the first `width` bits; places count from one, and zero says that there is none. -/
def firstSet : Nat → Nat → Nat
  | 0, _ => 0
  | width + 1, n =>
    if n % 2 = 1 then 1
    else match firstSet width (n / 2) with
      | 0 => 0
      | place + 1 => place + 2

theorem firstSet_dvd {width n place : Nat} (h : firstSet width n = place + 1) : 2 ^ place ∣ n := by
  induction width generalizing n place with
  | zero => cases h
  | succ width ih =>
    simp only [firstSet] at h
    split at h
    · obtain rfl : place = 0 := by omega
      exact Nat.one_dvd n
    · rename_i heven
      split at h
      · cases h
      · rename_i rest hrest
        obtain rfl : place = rest + 1 := by omega
        have hdvd : 2 ^ rest * 2 ∣ n / 2 * 2 := Nat.mul_dvd_mul_right (ih hrest) 2
        rwa [Nat.div_mul_cancel (by omega), ← Nat.pow_succ] at hdvd

theorem firstSet_two_pow {width place : Nat} (h : place < width) : firstSet width (2 ^ place) = place + 1 := by
  induction width generalizing place with
  | zero => exact absurd h (Nat.not_lt_zero place)
  | succ width ih =>
    cases place with
    | zero => rfl
    | succ place =>
      have heven : ¬2 ^ (place + 1) % 2 = 1 := by
        rw [Nat.pow_succ, Nat.mul_mod_left]
        decide
      have hhalf : 2 ^ (place + 1) / 2 = 2 ^ place := by
        rw [Nat.pow_succ, Nat.mul_div_cancel _ Nat.two_pos]
      simp only [firstSet]
      rw [if_neg heven, hhalf, ih (Nat.lt_of_succ_lt_succ h)]

theorem firstSet_le {width n : Nat} : firstSet width n ≤ width := by
  induction width generalizing n with
  | zero => exact Nat.le_refl 0
  | succ width ih =>
    have hle := @ih (n / 2)
    simp only [firstSet]
    split
    · omega
    · split <;> omega

theorem firstSet_eq_zero {width n : Nat} (h : firstSet width n = 0) : 2 ^ width ∣ n := by
  induction width generalizing n with
  | zero => exact Nat.one_dvd n
  | succ width ih =>
    simp only [firstSet] at h
    split at h
    · cases h
    · rename_i heven
      split at h
      · rename_i hrest
        have hdvd : 2 ^ width * 2 ∣ n / 2 * 2 := Nat.mul_dvd_mul_right (ih hrest) 2
        rwa [Nat.div_mul_cancel (by omega), ← Nat.pow_succ] at hdvd
      · cases h

theorem exists_firstSet {width n : Nat} (hpos : 0 < n) (hlt : n < 2 ^ width) :
    ∃ place, firstSet width n = place + 1 := by
  cases hplace : firstSet width n with
  | zero => exact absurd (Nat.le_of_dvd hpos (firstSet_eq_zero hplace)) (Nat.not_le.2 hlt)
  | succ place => exact ⟨place, rfl⟩

theorem firstSet_greatest {width n place k : Nat} (h : firstSet width n = place + 1) (hk : 2 ^ k ∣ n) :
    k ≤ place := by
  induction width generalizing n place k with
  | zero => cases h
  | succ width ih =>
    cases k with
    | zero => exact Nat.zero_le place
    | succ k =>
      have heven : ¬n % 2 = 1 := by
        have htwo : 2 ∣ n := Nat.dvd_trans ⟨2 ^ k, by rw [Nat.pow_succ, Nat.mul_comm]⟩ hk
        omega
      simp only [firstSet] at h
      rw [if_neg heven] at h
      split at h
      · cases h
      · rename_i rest hrest
        have hhalf : 2 ^ k ∣ n / 2 :=
          Nat.dvd_div_of_mul_dvd (by rwa [Nat.mul_comm, ← Nat.pow_succ])
        have hle := ih hrest hhalf
        omega
