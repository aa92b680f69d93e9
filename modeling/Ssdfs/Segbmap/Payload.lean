import Ssdfs.Commit.Meta
import Ssdfs.Segbmap.SegIds

namespace Ssdfs

open Memory

inductive SegbmapState
  | clean
  | dataUsing
  | leafNodeUsing
  | indexNodeUsing
  | dirty
  | hybridNodeUsing
  | preDirty
  | used
  | bad
  | reserved
  | dataUsingInvalidated
  deriving Repr, DecidableEq

def SegbmapState.value : SegbmapState → Nat
  | clean => 0x0
  | dataUsing => 0x1
  | leafNodeUsing => 0x2
  | indexNodeUsing => 0x3
  | dirty => 0x4
  | hybridNodeUsing => 0x5
  | preDirty => 0x6
  | used => 0x7
  | bad => 0x8
  | reserved => 0x9
  | dataUsingInvalidated => 0xA

structure ItemState where
  fragment : Nat
  item : Nat
  state : SegbmapState

def itemsPerFragment : Nat := 8128

section

variable (g : SegbmapGeometry)

def bitmapOffset (fragment : Nat) : Nat := fragment * g.fragmentSize + segbmapFragmentHeaderSize

/-- `SET_STATE_IN_BYTE` with the byte and the item in it of an item of a bitmap. -/
def setItemState (m : Bytes) (w : ItemState) : Bytes :=
  let byte := bitmapOffset g w.fragment + w.item / itemsPerByte segStateBits
  Wire.u8.write m byte (setStateInByte (m byte) (w.item % itemsPerByte segStateBits) segStateBits
    segStateMask w.state.value)

def storedState (sets : List ItemState) (fragment item : Nat) : SegbmapState :=
  sets.foldl (fun state w => if w.fragment = fragment ∧ w.item = item then w.state else state) .clean

def setItemStates (sets : List ItemState) (m : Bytes) : Bytes := sets.foldl (setItemState g) m

end

/-- The fragments have these headers and the items these states. -/
structure Holds (g : SegbmapGeometry) (hdr : Nat → SegbmapFragmentHeader)
    (state : Nat → Nat → SegbmapState) (m : Bytes) : Prop where
  header : ∀ k < g.fragmentsPerPeb,
    SegbmapFragmentHeader.wire.read m (k * g.fragmentSize) = hdr k
  items : ∀ k < g.fragmentsPerPeb, ∀ i < itemsPerFragment,
    itemState m (bitmapOffset g k) i = (state k i).value

section

variable {crc32 : UInt32 → List UInt8 → UInt32} {g : SegbmapGeometry} {m m' : Bytes} {w : ItemState}
  {hdr : Nat → SegbmapFragmentHeader} {state : Nat → Nat → SegbmapState} {sets : List ItemState}
  {layout : VolumeLayout} {buffers : Nat → Buf} {segs p k : Nat}

theorem SegbmapState.value_lt (s : SegbmapState) : s.value < 16 := by
  cases s <;> decide

theorem read_checksum {off : Nat} (csum : UInt32) : SegbmapFragmentHeader.wire.read
    (Wire.u32.write m (off + 20) csum) off =
      SegbmapFragmentHeader.wire.read m off := by
  have hother : ∀ {α : Type} (w : Wire α) (o : Nat), o + w.size ≤ 20 ∨ 24 ≤ o →
      w.read (Wire.u32.write m (off + 20) csum) (off + o) = w.read m (off + o) := fun w o ho =>
    w.read_write_of_disjoint Wire.u32 (by
      change _ ∨ off + 20 + 4 ≤ off + o
      omega)
  have hread : ∀ m : Bytes, SegbmapFragmentHeader.wire.read m off =
      ⟨Wire.u16.read m (off + 0), Wire.u16.read m (off + 2), Wire.u16.read m (off + 4),
        Wire.u8.read m (off + 6), Wire.u64.read m (off + 8), Wire.u16.read m (off + 16),
        Wire.u16.read m (off + 18), Wire.u16.read m (off + 24), Wire.u16.read m (off + 26),
        Wire.u16.read m (off + 28), Wire.u16.read m (off + 30)⟩ := fun _ => rfl
  rw [hread, hread]
  simp (disch := decide) only [hother]

theorem Holds.set (h : Holds g hdr state m) (hfs : 4096 ≤ g.fragmentSize)
    (hitem : w.item < itemsPerFragment) :
    Holds g hdr (fun k i => if w.fragment = k ∧ w.item = i then w.state else state k i)
      (setItemState g m w) := by
  unfold itemsPerFragment at hitem
  have hdiv : itemsPerByte segStateBits = 2 := rfl
  have hbit : segbmapFragmentHeaderSize = 32 := rfl
  refine ⟨fun k hk => ?_, fun k hk i hi => ?_⟩
  · rw [← h.header k hk]
    refine SegbmapFragmentHeader.wire.read_write_of_disjoint Wire.u8 ?_
    rw [SegbmapFragmentHeader.wire_size, bitmapOffset, hdiv, hbit]
    change _ ∨ w.fragment * g.fragmentSize + 32 + w.item / 2 + 1 ≤ k * g.fragmentSize
    by_cases hkw : k = w.fragment
    · rw [hkw]
      omega
    · have := @places_apart g.fragmentSize _ _ hkw
      omega
  · unfold setItemState
    simp only [hdiv]
    unfold itemsPerFragment at hi
    by_cases hkw : w.fragment = k
    · subst hkw
      rw [itemState_put (Nat.mod_lt _ (by decide)), Nat.div_add_mod' w.item 2,
        Nat.mod_eq_of_lt w.state.value_lt, h.items _ hk i hi]
      simp only [true_and, eq_comm]
      split <;> rfl
    · rw [if_neg fun hc => hkw hc.1, ← h.items k hk i hi]
      unfold itemState
      have hbyte : bitmapOffset g k + i / 2 ≠ bitmapOffset g w.fragment + w.item / 2 := by
        have := @places_apart g.fragmentSize _ _ hkw
        unfold bitmapOffset
        rw [hbit]
        omega
      rw [show Wire.u8.write m (bitmapOffset g w.fragment + w.item / 2) _ (bitmapOffset g k + i / 2) =
        m (bitmapOffset g k + i / 2) from Function.update_of_ne hbyte ..]

theorem Holds.setAll (h : Holds g hdr state m) (hfs : 4096 ≤ g.fragmentSize)
    (hsets : ∀ w ∈ sets, w.item < itemsPerFragment) :
    Holds g hdr (fun k i => sets.foldl
      (fun s w => if w.fragment = k ∧ w.item = i then w.state else s) (state k i))
      (setItemStates g sets m) := by
  induction sets generalizing m state with
  | nil => exact h
  | cons w sets ih =>
    exact ih (h.set hfs (hsets w (List.mem_cons_self ..))) fun v hv =>
      hsets v (List.mem_cons_of_mem w hv)

theorem Holds.checksum (h : Holds g hdr state m) (hfs : 4096 ≤ g.fragmentSize) {i bytes : Nat} :
    Holds g hdr state (sealFragment crc32 20 bytes (i * g.fragmentSize) m) := by
  have hwrite : ∀ {m : Bytes} (csum : UInt32), Holds g hdr state m →
      Holds g hdr state (Wire.u32.write m (i * g.fragmentSize + 20) csum) := by
    intro m csum h
    refine ⟨fun k hk => ?_, fun k hk j hj => ?_⟩
    · rw [← h.header k hk]
      by_cases hki : k = i
      · rw [hki, read_checksum]
      · refine SegbmapFragmentHeader.wire.read_write_of_disjoint Wire.u32 ?_
        rw [SegbmapFragmentHeader.wire_size]
        change _ ∨ i * g.fragmentSize + 20 + 4 ≤ k * g.fragmentSize
        have := @places_apart g.fragmentSize _ _ hki
        omega
    · rw [← h.items k hk j hj]
      unfold itemsPerFragment at hj
      unfold itemState
      rw [Wire.u32.write_frame]
      change bitmapOffset g k + j / 2 < i * g.fragmentSize + 20 ∨
        i * g.fragmentSize + 20 + 4 ≤ bitmapOffset g k + j / 2
      unfold bitmapOffset segbmapFragmentHeaderSize
      by_cases hki : k = i
      · rw [hki]
        omega
      · have := @places_apart g.fragmentSize _ _ hki
        omega
  exact hwrite _ (hwrite _ h)

theorem Holds.checksums (h : Holds g hdr state m) (hfs : 4096 ≤ g.fragmentSize)
    (hseal : segbmapFragmentsChecksum crc32 g m = .ok m') : Holds g hdr state m' := by
  refine Checked.forRange_ind (fun _ t => Holds g hdr state t) hseal h fun i _ t t' ht hstep => ?_
  cases hstep
  exact ht.checksum hfs

/-- The fragments of the PEB with number `p`. -/
def storedFragments (g : SegbmapGeometry) (p : Nat) : Nat :=
  min g.fragmentsPerPeb (g.fragmentsCount - p * g.fragmentsPerPeb)

theorem fragment_place (hk : k < g.fragmentsPerPeb) :
    (p * g.fragmentsPerPeb + k) / g.fragmentsPerPeb = p ∧
      (p * g.fragmentsPerPeb + k) % g.fragmentsPerPeb = k := by
  rw [Nat.mul_comm, Nat.mul_add_div (by omega), Nat.div_eq_of_lt hk, Nat.add_zero, Nat.mul_add_mod,
    Nat.mod_eq_of_lt hk]
  exact ⟨rfl, rfl⟩

theorem Prepared.stored (h : Prepared layout g g.fragmentsCount buffers)
    (hk : k < storedFragments g p) :
    ∃ f, segbmapPrepareFragment layout g (p * g.fragmentsPerPeb + k) = .ok f ∧
      SegbmapFragmentHeader.wire.read (buffers p).data (k * g.fragmentSize) = f.hdr := by
  unfold storedFragments at hk
  obtain ⟨hdiv, hmod⟩ := @fragment_place g p k (by omega)
  obtain ⟨f, hf, hread⟩ := h.header (p * g.fragmentsPerPeb + k) (by omega)
  rw [hdiv, hmod] at hread
  exact ⟨f, hf, hread⟩

theorem Prepared.blank (h : Prepared layout g g.fragmentsCount buffers) (hfs : 4096 ≤ g.fragmentSize)
    (hk : storedFragments g p ≤ k) (hpeb : k < g.fragmentsPerPeb) :
    SegbmapFragmentHeader.wire.read (buffers p).data (k * g.fragmentSize) =
      SegbmapFragmentHeader.wire.read (fun _ => 0) 0 := by
  refine SegbmapFragmentHeader.wire.read_congr fun i hi => ?_
  rw [SegbmapFragmentHeader.wire_size] at hi
  refine h.zero p _ fun f hf hdiv => ?_
  have hdm := Nat.div_add_mod' f g.fragmentsPerPeb
  rw [hdiv] at hdm
  have hne : k ≠ f % g.fragmentsPerPeb := by
    unfold storedFragments at hk
    omega
  have := @places_apart g.fragmentSize _ _ hne
  omega

theorem Prepared.holds (h : Prepared layout g g.fragmentsCount buffers) (hfs : 4096 ≤ g.fragmentSize) :
    Holds g (fun k => SegbmapFragmentHeader.wire.read (buffers p).data (k * g.fragmentSize))
      (fun _ _ => .clean) (buffers p).data := by
  refine ⟨fun k _ => rfl, fun k hk i hi => ?_⟩
  obtain ⟨hdiv, hmod⟩ := @fragment_place g p k hk
  have hclean := @Prepared.clean layout g i buffers (p * g.fragmentsPerPeb + k) hfs h hi
  rw [hdiv, hmod] at hclean
  exact hclean

theorem Prepared.payload (h : Prepared layout g g.fragmentsCount buffers)
    (hfs : 4096 ≤ g.fragmentSize) (hsets : ∀ w ∈ sets, w.item < itemsPerFragment)
    (hseal : segbmapFragmentsChecksum crc32 g (setItemStates g sets (buffers p).data) = .ok m) :
    Holds g (fun k => SegbmapFragmentHeader.wire.read (buffers p).data (k * g.fragmentSize))
      (storedState sets) m := by
  apply Holds.checksums _ hfs hseal
  exact (h.holds hfs).setAll hfs hsets

end

end Ssdfs
