import Mathlib.Data.List.GetD
import Ssdfs.Lib.Stays
import Ssdfs.Lib.Wire

/-! Strings of bytes that are stored in byte memory. -/

namespace Memory

def storeBytes (m : Bytes) (off : Nat) (bytes : List UInt8) : Bytes :=
  fun i => if off ≤ i then bytes.getD (i - off) (m i) else m i

section

variable {m : Bytes} {off len : Nat} {bytes : List UInt8}

@[simp] theorem length_slice : (slice m off len).length = len := by
  unfold slice
  rw [List.length_map, List.length_range]

theorem getElem?_slice {i : Nat} (hi : i < len) : (slice m off len)[i]? = some (m (off + i)) := by
  unfold slice
  rw [List.getElem?_map, List.getElem?_range hi]
  rfl

theorem slice_add (a b : Nat) : slice m off (a + b) = slice m off a ++ slice m (off + a) b := by
  unfold slice
  rw [List.range_add, List.map_append, List.map_map]
  refine congrArg _ (List.map_congr_left fun i _ => ?_)
  rw [Function.comp_apply, Nat.add_assoc]

theorem storeBytes_frame {i : Nat} (h : i < off ∨ off + bytes.length ≤ i) :
    storeBytes m off bytes i = m i := by
  unfold storeBytes
  split
  · exact List.getD_eq_default _ _ (by omega)
  · rfl

theorem slice_storeBytes : slice (storeBytes m off bytes) off bytes.length = bytes := by
  refine List.ext_getElem? fun i => ?_
  by_cases hi : i < bytes.length
  · rw [getElem?_slice hi, List.getElem?_eq_getElem hi]
    unfold storeBytes
    rw [if_pos (Nat.le_add_right _ _), Nat.add_sub_cancel_left, List.getD_eq_getElem _ _ hi]
  · rw [List.getElem?_eq_none (Nat.not_lt.1 hi), List.getElem?_eq_none]
    rw [length_slice]
    exact Nat.not_lt.1 hi

end

end Memory

namespace Buf

open Memory

variable {E α : Type} {b : Buf} {w : Wire α} {off : Nat} {a : α} {bytes : List UInt8}

theorem get_strays : Checked.OnlyStrays (b.get E w off) := by
  intro e he
  unfold get at he
  split at he <;> cases he
  rfl

theorem put_strays : Checked.OnlyStrays (b.put E w off a) := by
  intro e he
  unfold put at he
  split at he <;> cases he
  rfl

def putBytes (E : Type) (b : Buf) (off : Nat) (bytes : List UInt8) : Checked E Buf :=
  if off + bytes.length ≤ b.size then .ok { b with data := storeBytes b.data off bytes }
  else .error .stray

theorem putBytes_ok (h : off + bytes.length ≤ b.size) :
    b.putBytes E off bytes = .ok { b with data := storeBytes b.data off bytes } := if_pos h

end Buf
