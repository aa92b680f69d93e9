import Mathlib.Logic.Function.Basic
import Ssdfs.Lib.Memory

/-! Items of a few bits each, packed into bytes from the lowest bits on. -/

namespace Packed

open Memory

/-- Item `i` of a byte with items of `w` bits. -/
def get (value : UInt8) (w i : Nat) : Nat := value.toNat >>> (i * w) &&& (2 ^ w - 1)

def set (value : UInt8) (w i s : Nat) : UInt8 :=
  value &&& ~~~UInt8.ofNat ((2 ^ w - 1) <<< (i * w)) |||
    UInt8.ofNat ((s &&& (2 ^ w - 1)) <<< (i * w))

section

variable {value : UInt8} {w i j s k : Nat}

theorem testBit_set (hk : k < 8) : (Packed.set value w i s).toNat.testBit k =
    if i * w ≤ k ∧ k < (i + 1) * w then s.testBit (k - i * w) else value.toNat.testBit k := by
  have hnot : ∀ x : Nat, UInt8.size - 1 - x % 2 ^ 8 = 2 ^ 8 - (x % 2 ^ 8 + 1) := fun x => by
    unfold UInt8.size
    omega
  unfold Packed.set
  rw [UInt8.toNat_or, UInt8.toNat_and, UInt8.toNat_not, UInt8.toNat_ofNat', UInt8.toNat_ofNat', hnot,
    Nat.testBit_or, Nat.testBit_and, Nat.testBit_two_pow_sub_succ (Nat.mod_lt _ (by decide)),
    Nat.testBit_mod_two_pow, Nat.testBit_mod_two_pow, Nat.testBit_shiftLeft, Nat.testBit_shiftLeft,
    Nat.testBit_two_pow_sub_one, Nat.testBit_and, Nat.testBit_two_pow_sub_one, Nat.succ_mul]
  by_cases hlo : i * w ≤ k
  · by_cases hhi : k < i * w + w
    · have hin : k - i * w < w := by omega
      simp [hk, hlo, hhi, hin]
    · have hout : ¬k - i * w < w := by omega
      simp [hk, hlo, hhi, hout]
  · simp [hk, hlo]

theorem testBit_get : (get value w i).testBit k = (value.toNat.testBit (i * w + k) && decide (k < w)) := by
  unfold get
  rw [Nat.testBit_and, Nat.testBit_shiftRight, Nat.testBit_two_pow_sub_one]

theorem get_set (hj : (j + 1) * w ≤ 8) :
    get (Packed.set value w i s) w j = if j = i then s % 2 ^ w else get value w j := by
  refine Nat.eq_of_testBit_eq fun k => ?_
  rw [testBit_get]
  by_cases hk : k < w
  · have hbit : j * w + k < 8 := by
      rw [Nat.succ_mul] at hj
      omega
    rw [testBit_set hbit]
    rcases Nat.lt_trichotomy j i with hlt | rfl | hgt
    · have hle := Nat.mul_le_mul_right w (Nat.succ_le_of_lt hlt)
      rw [Nat.succ_mul] at hle
      rw [if_neg (by omega), if_neg (Nat.ne_of_lt hlt), testBit_get]
    · rw [if_pos ⟨Nat.le_add_right _ _, by rw [Nat.succ_mul]; omega⟩, if_pos rfl,
        Nat.add_sub_cancel_left, Nat.testBit_mod_two_pow, Bool.and_comm]
    · have hle := Nat.mul_le_mul_right w (Nat.succ_le_of_lt hgt)
      rw [Nat.succ_eq_add_one] at hle
      rw [if_neg (by omega), if_neg (Nat.ne_of_gt hgt), testBit_get]
  · split
    · rw [Nat.testBit_mod_two_pow]
      simp [hk]
    · rw [testBit_get]
      simp [hk]

theorem set_get (h : get value w i = s % 2 ^ w) : Packed.set value w i s = value := by
  refine UInt8.toNat_inj.1 (Nat.eq_of_testBit_eq fun k => ?_)
  rcases Nat.lt_or_ge k 8 with hk | hk
  · rw [testBit_set hk]
    split
    case isTrue hin =>
      have hbit := congrArg (Nat.testBit · (k - i * w)) h
      have hlt : k - i * w < w := by
        rw [Nat.succ_mul] at hin
        omega
      simp only [testBit_get, Nat.testBit_mod_two_pow, hlt, decide_true, Bool.and_true, Bool.true_and,
        Nat.add_sub_cancel' hin.1] at hbit
      exact hbit.symm
    case isFalse => rfl
  · have hle := Nat.pow_le_pow_right (show 0 < 2 by decide) hk
    rw [Nat.testBit_lt_two_pow (Nat.lt_of_lt_of_le (UInt8.toNat_lt _) hle),
      Nat.testBit_lt_two_pow (Nat.lt_of_lt_of_le (UInt8.toNat_lt _) hle)]

end

/-- Item `i` of the bytes from `base` on, with `n` items of `w` bits in each of them. -/
def item (m : Bytes) (w n base i : Nat) : Nat := get (m (base + i / n)) w (i % n)

section

variable {m m' : Bytes} {w n base i b o s : Nat}

theorem item_congr (h : m (base + i / n) = m' (base + i / n)) :
    item m w n base i = item m' w n base i := by
  unfold item
  rw [h]

theorem item_byte (ho : o < n) : item m w n base (b * n + o) = get (m (base + b)) w o := by
  have hn : 0 < n := Nat.zero_lt_of_lt ho
  unfold item
  rw [Nat.mul_comm, Nat.mul_add_div hn, Nat.div_eq_of_lt ho, Nat.add_zero, Nat.mul_add_mod,
    Nat.mod_eq_of_lt ho]

/-- A byte in which item `o` has been set is one item of all of them. -/
theorem item_update (ho : o < n) (hw : n * w ≤ 8) :
    item (Function.update m (base + b) (Packed.set (m (base + b)) w o s)) w n base i =
      if i = b * n + o then s % 2 ^ w else item m w n base i := by
  have hn : 0 < n := Nat.zero_lt_of_lt ho
  by_cases hbyte : i / n = b
  · subst hbyte
    have hdm := Nat.div_add_mod' i n
    unfold item
    rw [Function.update_self, get_set]
    · refine if_congr ?_ rfl rfl
      omega
    · exact Nat.le_trans (Nat.mul_le_mul_right w (Nat.mod_lt i hn)) hw
  · rw [item_congr (Function.update_of_ne (fun h => hbyte (Nat.add_left_cancel h)) ..), if_neg]
    rintro rfl
    rw [Nat.mul_comm, Nat.mul_add_div hn, Nat.div_eq_of_lt ho] at hbyte
    exact hbyte rfl

/-- Items `lo` up to `hi` have been set, and nothing else has changed. -/
structure Filled (w n base lo hi s : Nat) (m m' : Bytes) : Prop where
  items : ∀ i, item m' w n base i = if lo ≤ i ∧ i < hi then s % 2 ^ w else item m w n base i
  frame : ∀ x, (∀ i, lo ≤ i → i < hi → x ≠ base + i / n) → m' x = m x

namespace Filled

variable {lo hi : Nat}

theorem empty (h : hi ≤ lo) : Filled w n base lo hi s m m where
  items i := (if_neg (by omega)).symm
  frame _ _ := rfl

theorem snoc (ho : o < n) (hw : n * w ≤ 8) (hlo : lo ≤ b * n + o)
    (h : Filled w n base lo (b * n + o) s m m') : Filled w n base lo (b * n + o + 1) s m
      (Function.update m' (base + b) (Packed.set (m' (base + b)) w o s)) where
  items i := by
    rw [item_update ho hw, h.items]
    by_cases hi : i = b * n + o
    · rw [if_pos hi, if_pos (by omega)]
    · rw [if_neg hi]
      exact if_congr (by omega) rfl rfl
  frame x hx := by
    have hbyte : (b * n + o) / n = b := by
      rw [Nat.mul_comm, Nat.mul_add_div (by omega), Nat.div_eq_of_lt ho, Nat.add_zero]
    rw [Function.update_of_ne (hbyte ▸ hx _ hlo (Nat.lt_succ_self _))]
    exact h.frame x fun i hi hlt => hx i hi (Nat.lt_succ_of_lt hlt)

end Filled

end

end Packed
