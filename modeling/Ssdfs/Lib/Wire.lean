import Mathlib.Data.Fin.Tuple.Basic
import Ssdfs.Lib.Exact
import Ssdfs.Lib.Memory

/-! Formats of packed records in byte memory. -/

open Memory

/-- How values of a type lie in memory. -/
structure Wire (α : Type) where
  size : Nat
  read : Bytes → Nat → α
  write : Bytes → Nat → α → Bytes
  read_write : ∀ m off a, read (write m off a) off = a
  read_congr : ∀ {m m' : Bytes} {off off' : Nat},
    (∀ i < size, m (off + i) = m' (off' + i)) → read m off = read m' off'
  write_frame : ∀ {m : Bytes} {off : Nat} {a : α} {i : Nat},
    i < off ∨ off + size ≤ i → write m off a i = m i

namespace Wire

variable {α β : Type}

theorem read_write_of_disjoint (w : Wire α) (w' : Wire β) {m : Bytes} {off off' : Nat} {b : β}
    (h : off + w.size ≤ off' ∨ off' + w'.size ≤ off) : w.read (w'.write m off' b) off = w.read m off :=
  w.read_congr fun i hi => w'.write_frame (by omega)

def u8 : Wire UInt8 where
  size := 1
  read m off := m off
  write m off a := Function.update m off a
  read_write m off a := Function.update_self ..
  read_congr h := h 0 Nat.zero_lt_one
  write_frame h := Function.update_of_ne (by omega) ..

def u16 : Wire UInt16 where
  size := 2
  read m off := UInt16.ofNat (peek m 2 off)
  write m off a := poke m 2 off a.toNat
  read_write m off a := by
    rw [peek_poke_of_lt (by simpa using a.toNat_lt)]
    exact UInt16.ofNat_toNat
  read_congr h := by rw [peek_congr h]
  write_frame h := poke_of_not h

def u32 : Wire UInt32 where
  size := 4
  read m off := UInt32.ofNat (peek m 4 off)
  write m off a := poke m 4 off a.toNat
  read_write m off a := by
    rw [peek_poke_of_lt (by simpa using a.toNat_lt)]
    exact UInt32.ofNat_toNat
  read_congr h := by rw [peek_congr h]
  write_frame h := poke_of_not h

def u64 : Wire UInt64 where
  size := 8
  read m off := UInt64.ofNat (peek m 8 off)
  write m off a := poke m 8 off a.toNat
  read_write m off a := by
    rw [peek_poke_of_lt (by simpa using a.toNat_lt)]
    exact UInt64.ofNat_toNat
  read_congr h := by rw [peek_congr h]
  write_frame h := poke_of_not h

/-- One value behind the other. -/
def pair (w : Wire α) (w' : Wire β) : Wire (α × β) where
  size := w.size + w'.size
  read m off := (w.read m off, w'.read m (off + w.size))
  write m off a := w'.write (w.write m off a.1) (off + w.size) a.2
  read_write m off a := by
    rw [w.read_write_of_disjoint w' (.inl (Nat.le_refl _)), w.read_write, w'.read_write]
  read_congr {m m' off off'} h := by
    have hfst : w.read m off = w.read m' off' := w.read_congr fun i hi => h i (by omega)
    have hsnd : w'.read m (off + w.size) = w'.read m' (off' + w.size) :=
      w'.read_congr fun i hi => by
        rw [Nat.add_assoc, Nat.add_assoc]
        exact h _ (by omega)
    rw [hfst, hsnd]
  write_frame h := by rw [w'.write_frame (by omega), w.write_frame (by omega)]

/-- The same bytes under another type. -/
def iso (w : Wire α) (pack : α → β) (unpack : β → α) (inverse : ∀ b, pack (unpack b) = b) :
    Wire β where
  size := w.size
  read m off := pack (w.read m off)
  write m off b := w.write m off (unpack b)
  read_write m off b := by rw [w.read_write, inverse]
  read_congr h := by rw [w.read_congr h]
  write_frame h := w.write_frame h

/-- The first `n` of a sequence of values. -/
def writeArray (w : Wire α) (m : Bytes) (off : Nat) (f : Nat → α) : Nat → Bytes
  | 0 => m
  | n + 1 => w.write (w.writeArray m off f n) (off + n * w.size) (f n)

variable {w : Wire α} {m : Bytes} {off n : Nat} {f : Nat → α}

theorem writeArray_frame {i : Nat} (h : i < off ∨ off + n * w.size ≤ i) :
    w.writeArray m off f n i = m i := by
  induction n with
  | zero => rfl
  | succ n ih =>
    rw [Nat.add_mul, Nat.one_mul] at h
    unfold writeArray
    rw [w.write_frame (by omega), ih (by omega)]

theorem read_writeArray {i : Nat} (hi : i < n) :
    w.read (w.writeArray m off f n) (off + i * w.size) = f i := by
  induction n with
  | zero => omega
  | succ n ih =>
    unfold writeArray
    rcases Nat.lt_succ_iff_lt_or_eq.1 hi with hlt | rfl
    · have hle := Nat.mul_le_mul_right w.size (Nat.succ_le_of_lt hlt)
      rw [Nat.succ_mul] at hle
      rw [w.read_write_of_disjoint w (.inl (by omega)), ih hlt]
    · exact w.read_write ..

/-- `n` values one behind the other. -/
def array (w : Wire α) (n : Nat) : Wire (Fin n → α) where
  size := n * w.size
  read m off i := w.read m (off + i * w.size)
  write m off f := match n with
    | 0 => m
    | n + 1 => w.writeArray m off (fun i => f (Fin.ofNat (n + 1) i)) (n + 1)
  read_write m off f := by
    funext i
    cases n with
    | zero => exact i.elim0
    | succ n =>
      simp only
      rw [read_writeArray i.isLt]
      congr 1
      exact Fin.ext (Nat.mod_eq_of_lt i.isLt)
  read_congr h := by
    funext i
    refine w.read_congr fun j hj => ?_
    have hle := Nat.mul_le_mul_right w.size (Nat.succ_le_of_lt i.isLt)
    rw [Nat.succ_mul] at hle
    rw [Nat.add_assoc, Nat.add_assoc]
    exact h _ (by omega)
  write_frame h := by
    cases n with
    | zero => rfl
    | succ n => exact writeArray_frame h

end Wire

namespace Memory

/-- The bytes of a range. -/
def slice (m : Bytes) (off len : Nat) : List UInt8 := (List.range len).map fun i => m (off + i)

theorem slice_congr {m m' : Bytes} {off off' len : Nat}
    (h : ∀ i < len, m (off + i) = m' (off' + i)) : slice m off len = slice m' off' len :=
  List.map_congr_left fun i hi => h i (List.mem_range.1 hi)

end Memory

namespace Buf

variable {E α : Type}

def get (E : Type) (b : Buf) (w : Wire α) (off : Nat) : Checked E α :=
  if off + w.size ≤ b.size then .ok (w.read b.data off) else .error .stray

def put (E : Type) (b : Buf) (w : Wire α) (off : Nat) (a : α) : Checked E Buf :=
  if off + w.size ≤ b.size then .ok { b with data := w.write b.data off a } else .error .stray

def bytes (E : Type) (b : Buf) (off len : Nat) : Checked E (List UInt8) :=
  if off + len ≤ b.size then .ok (slice b.data off len) else .error .stray

/-- The first `n` of the values that lie one behind the other. -/
def getArray (E : Type) (b : Buf) (w : Wire α) (off n : Nat) : Checked E (List α) :=
  if off + n * w.size ≤ b.size then
    .ok ((List.range n).map fun i => w.read b.data (off + i * w.size))
  else .error .stray

variable {b : Buf} {w : Wire α} {off len n : Nat} {a : α}

theorem get_ok (h : off + w.size ≤ b.size) : b.get E w off = .ok (w.read b.data off) := if_pos h

theorem get_eq_ok : b.get E w off = .ok a ↔ off + w.size ≤ b.size ∧ a = w.read b.data off := by
  unfold get
  split
  · simp [*, eq_comm]
  · simp [*]

theorem put_ok (h : off + w.size ≤ b.size) :
    b.put E w off a = .ok { b with data := w.write b.data off a } := if_pos h

theorem bytes_ok (h : off + len ≤ b.size) : b.bytes E off len = .ok (slice b.data off len) :=
  if_pos h

theorem getArray_ok (h : off + n * w.size ≤ b.size) : b.getArray E w off n =
    .ok ((List.range n).map fun i => w.read b.data (off + i * w.size)) := if_pos h

/-- The bytes of a region stay through some writes. -/
structure Keeps (region : Nat → Prop) (b b' : Buf) : Prop where
  size : b'.size = b.size
  data : ∀ x, region x → b'.data x = b.data x

theorem Keeps.refl (region : Nat → Prop) (b : Buf) : b.Keeps region b := ⟨rfl, fun _ _ => rfl⟩

theorem Keeps.trans {region : Nat → Prop} {b₁ b₂ b₃ : Buf} (h : b₁.Keeps region b₂)
    (h' : b₂.Keeps region b₃) : b₁.Keeps region b₃ :=
  ⟨h'.size.trans h.size, fun x hx => (h'.data x hx).trans (h.data x hx)⟩

theorem put_keeps {region : Nat → Prop} (hfit : off + w.size ≤ b.size)
    (hout : ∀ x, region x → x < off ∨ off + w.size ≤ x) :
    ∃ b', b.put E w off a = .ok b' ∧ b.Keeps region b' :=
  ⟨_, put_ok hfit, rfl, fun x hx => w.write_frame (hout x hx)⟩

theorem put_exact : Checked.Exact (b.put E w off a) (off + w.size ≤ b.size)
    fun b' => b' = { b with data := w.write b.data off a } where
  succeeds h := ⟨_, put_ok h, rfl⟩
  only _ h := by
    by_contra hfit
    unfold put at h
    rw [if_neg hfit] at h
    cases h

theorem forRange_put_exact {f : Nat → α} :
    Checked.Exact (Checked.forRange n (fun i b => b.put E w (off + i * w.size) (f i)) b)
      (∀ i < n, off + i * w.size + w.size ≤ b.size)
      fun (b' : Buf) => b'.size = b.size ∧ (∀ i < n, w.read b'.data (off + i * w.size) = f i) ∧
        ∀ x, x < off ∨ off + n * w.size ≤ x → b'.data x = b.data x := by
  refine Checked.Exact.forRange (I := fun k (b' : Buf) => b'.size = b.size ∧
    (∀ i < k, w.read b'.data (off + i * w.size) = f i) ∧
    ∀ x, x < off ∨ off + k * w.size ≤ x → b'.data x = b.data x) ?_ ?_
  · exact ⟨rfl, fun i hi => absurd hi (Nat.not_lt_zero i), fun _ _ => rfl⟩
  · rintro k hk t ⟨hsize, hdone, hframe⟩
    refine put_exact.congr (by rw [hsize]) fun b' hb' => ?_
    rw [hb', Nat.succ_mul]
    refine ⟨hsize, fun i hi => ?_, fun x hx => ?_⟩
    · rcases Nat.lt_succ_iff_lt_or_eq.1 hi with hlt | rfl
      · have hle := Nat.mul_le_mul_right w.size (Nat.succ_le_of_lt hlt)
        rw [Nat.succ_mul] at hle
        rw [w.read_write_of_disjoint w (.inl (by omega)), hdone i hlt]
      · exact w.read_write ..
    · simp only
      rw [w.write_frame (by omega), hframe x (by omega)]

end Buf
