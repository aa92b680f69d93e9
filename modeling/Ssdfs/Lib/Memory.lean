import Ssdfs.Lib.Checked

/-! Byte memory with little-endian words, and buffers whose accesses are checked against
their size. -/

namespace Memory

abbrev Bytes := Nat → UInt8

def peek (m : Bytes) : Nat → Nat → Nat
  | 0, _ => 0
  | w + 1, off => (m off).toNat + 256 * peek m w (off + 1)

def poke (m : Bytes) (w off v : Nat) : Bytes :=
  fun i => if off ≤ i ∧ i < off + w then UInt8.ofNat (v / 256 ^ (i - off)) else m i

/-- Copies `len` bytes between ranges that may overlap. -/
def move (m : Bytes) (dst src len : Nat) : Bytes :=
  fun i => if dst ≤ i ∧ i < dst + len then m (src + (i - dst)) else m i

/-- Copies `len` bytes of another memory. -/
def blit (m : Bytes) (dst : Nat) (src : Bytes) (off len : Nat) : Bytes :=
  fun i => if dst ≤ i ∧ i < dst + len then src (off + (i - dst)) else m i

@[simp] theorem blit_zero (m : Bytes) (dst : Nat) (src : Bytes) (off : Nat) : blit m dst src off 0 = m := by
  funext i
  exact if_neg (by omega)

theorem blit_blit (m : Bytes) (dst : Nat) (src : Bytes) (off len len' : Nat) :
    blit (blit m dst src off len) (dst + len) src (off + len) len' =
      blit m dst src off (len + len') := by
  funext i
  unfold blit
  by_cases hlow : dst ≤ i ∧ i < dst + len
  · rw [if_neg (by omega), if_pos hlow, if_pos (by omega)]
  · by_cases hhigh : dst + len ≤ i ∧ i < dst + len + len'
    · have hoff : off + len + (i - (dst + len)) = off + (i - dst) := by omega
      rw [if_pos hhigh, if_pos (by omega), hoff]
    · rw [if_neg hhigh, if_neg hlow, if_neg (by omega)]

theorem peek_congr {m m' : Bytes} {w off off' : Nat} (h : ∀ i < w, m (off + i) = m' (off' + i)) :
    peek m w off = peek m' w off' := by
  induction w generalizing off off' with
  | zero => rfl
  | succ w ih =>
    have h0 := h 0 (Nat.zero_lt_succ w)
    have ht : peek m w (off + 1) = peek m' w (off' + 1) := ih fun i hi => by
      simpa [Nat.add_assoc, Nat.add_comm 1 i] using h (i + 1) (by omega)
    simp only [Nat.add_zero] at h0
    simp only [peek, h0, ht]

theorem peek_lt (m : Bytes) (w off : Nat) : peek m w off < 256 ^ w := by
  induction w generalizing off with
  | zero => simp [peek]
  | succ w ih =>
    have hb := (m off).toNat_lt
    have ht := ih (off + 1)
    simp only [peek, Nat.pow_succ]
    omega

theorem poke_of_not {m : Bytes} {w off v i : Nat} (h : i < off ∨ off + w ≤ i) :
    poke m w off v i = m i := by
  unfold poke
  rw [if_neg (by omega)]

theorem peek_poke_of_disjoint {m : Bytes} {w off v w' off' : Nat}
    (h : off' + w' ≤ off ∨ off + w ≤ off') :
    peek (poke m w off v) w' off' = peek m w' off' :=
  peek_congr fun i hi => poke_of_not (by omega)

theorem peek_poke_self (m : Bytes) (w off v : Nat) :
    peek (poke m w off v) w off = v % 256 ^ w := by
  induction w generalizing m off v with
  | zero => simp [peek, Nat.mod_one]
  | succ w ih =>
    have htail : peek (poke m (w + 1) off v) w (off + 1) =
        peek (poke m w (off + 1) (v / 256)) w (off + 1) := by
      refine peek_congr fun i hi => ?_
      unfold poke
      rw [if_pos (by omega), if_pos (by omega)]
      have h1 : off + 1 + i - off = i + 1 := by omega
      have h2 : off + 1 + i - (off + 1) = i := by omega
      rw [h1, h2, Nat.pow_succ, Nat.mul_comm, Nat.div_div_eq_div_mul]
    have hhead : (poke m (w + 1) off v off).toNat = v % 256 := by
      unfold poke
      rw [if_pos (by omega), Nat.sub_self, Nat.pow_zero, Nat.div_one]
      exact UInt8.toNat_ofNat' ..
    simp only [peek]
    rw [htail, ih, hhead, Nat.pow_succ, Nat.mul_comm (256 ^ w), Nat.mod_mul]

theorem peek_poke_of_lt {m : Bytes} {w off v : Nat} (h : v < 256 ^ w) :
    peek (poke m w off v) w off = v := by
  rw [peek_poke_self, Nat.mod_eq_of_lt h]

theorem poke_poke (m : Bytes) (w off v v' : Nat) : poke (poke m w off v) w off v' = poke m w off v' := by
  funext i
  unfold poke
  split <;> rfl

theorem peek_move_inside {m : Bytes} {dst src len w off : Nat} (h1 : dst ≤ off)
    (h2 : off + w ≤ dst + len) :
    peek (move m dst src len) w off = peek m w (src + (off - dst)) := by
  refine peek_congr fun i hi => ?_
  unfold move
  rw [if_pos (by omega)]
  congr 1
  omega

theorem peek_move_outside {m : Bytes} {dst src len w off : Nat}
    (h : off + w ≤ dst ∨ dst + len ≤ off) :
    peek (move m dst src len) w off = peek m w off := by
  refine peek_congr fun i hi => ?_
  unfold move
  rw [if_neg (by omega)]

end Memory

/-- An allocation: its size and its bytes. -/
structure Buf where
  size : Nat
  data : Memory.Bytes

namespace Buf

open Memory

variable {E : Type}

def zero (size : Nat) : Buf := ⟨size, fun _ => 0⟩

def load (E : Type) (b : Buf) (w off : Nat) : Checked E Nat :=
  if off + w ≤ b.size then .ok (peek b.data w off) else .error .stray

def store (E : Type) (b : Buf) (w off v : Nat) : Checked E Buf :=
  if off + w ≤ b.size then .ok { b with data := poke b.data w off v } else .error .stray

def move (E : Type) (b : Buf) (dst src len : Nat) : Checked E Buf :=
  if dst + len ≤ b.size ∧ src + len ≤ b.size then
    .ok { b with data := Memory.move b.data dst src len }
  else .error .stray

/-- Copies `len` bytes from `off` in another allocation to `dst`. -/
def copy (E : Type) (b : Buf) (dst : Nat) (src : Buf) (off len : Nat) : Checked E Buf :=
  if dst + len ≤ b.size ∧ off + len ≤ src.size then
    .ok { b with
      data := fun i => if dst ≤ i ∧ i < dst + len then src.data (off + (i - dst)) else b.data i }
  else .error .stray

theorem load_ok {b : Buf} {w off : Nat} (h : off + w ≤ b.size) :
    b.load E w off = .ok (peek b.data w off) := if_pos h

theorem store_ok {b : Buf} {w off v : Nat} (h : off + w ≤ b.size) :
    b.store E w off v = .ok { b with data := poke b.data w off v } := if_pos h

theorem move_ok {b : Buf} {dst src len : Nat} (h : dst + len ≤ b.size) (h' : src + len ≤ b.size) :
    b.move E dst src len = .ok { b with data := Memory.move b.data dst src len } :=
  if_pos ⟨h, h'⟩

theorem copy_ok {b src : Buf} {dst off len : Nat} (h : dst + len ≤ b.size)
    (h' : off + len ≤ src.size) : ∃ b', b.copy E dst src off len = .ok b' ∧ b'.size = b.size ∧
      (∀ i < len, b'.data (dst + i) = src.data (off + i)) ∧
      ∀ i, i < dst ∨ dst + len ≤ i → b'.data i = b.data i := by
  refine ⟨_, if_pos ⟨h, h'⟩, rfl, fun i hi => ?_, fun i hi => ?_⟩
  · simp only
    rw [if_pos (by omega), Nat.add_sub_cancel_left]
  · simp only
    rw [if_neg (by omega)]

theorem load_eq_ok {b : Buf} {w off v : Nat} :
    b.load E w off = .ok v ↔ off + w ≤ b.size ∧ v = peek b.data w off := by
  unfold load
  split
  · simp [*, eq_comm]
  · simp [*]

theorem store_eq_ok {b b' : Buf} {w off v : Nat} :
    b.store E w off v = .ok b' ↔
      off + w ≤ b.size ∧ b' = { b with data := poke b.data w off v } := by
  unfold store
  split
  · simp [*, eq_comm]
  · simp [*]

end Buf
