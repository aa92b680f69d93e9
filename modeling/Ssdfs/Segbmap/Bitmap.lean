import Ssdfs.Lib.Packed
import Ssdfs.Lib.Wire
import Ssdfs.Segbmap.Policy

namespace Ssdfs

open Memory

def segStateBits : Nat := 4
def segStateMask : Nat := 0xF
def segClean : Nat := 0x0
def segReserved : Nat := 0x9

def itemsPerByte (stateBits : Nat) : Nat := 8 / stateBits

def alignedStartItem (item stateBits : Nat) : Nat := item >>> stateBits <<< stateBits

def alignedEndItem (item stateBits : Nat) : Nat :=
  Word.u64 (item + itemsPerByte stateBits - 1) >>> stateBits <<< stateBits

def stateInByte (value : UInt8) (stateBits stateMask i : Nat) : Nat :=
  value.toNat >>> (i * stateBits) &&& stateMask

/-- The first item of the byte in this state from `startOffset` on, else their number. -/
def firstStateInByte (value : UInt8) (state startOffset stateBits stateMask : Nat) : Nat :=
  ((List.range (itemsPerByte stateBits)).find? fun i =>
    startOffset ≤ i ∧ stateInByte value stateBits stateMask i = state).getD (itemsPerByte stateBits)

/-- The table has true for the bytes below 0x10 and for those that end with a zero. -/
def byteContainsCleanState (value : UInt8) : Bool := value.toNat < 16 ∨ value.toNat % 16 = 0

/-- Nothing is found with `-ENODATA`. -/
def findFirstItemInByte (value : UInt8) (state stateBits stateMask startOffset : Nat)
    (check : UInt8 → Bool) : Mkfs (Option Nat) := do
  bugOn (startOffset > itemsPerByte stateBits)
  let offset := firstStateInByte value state startOffset stateBits stateMask
  .ok (if check value ∧ offset < itemsPerByte stateBits then some offset else none)

def setStateInByte (value : UInt8) (byteItem stateBits stateMask newState : Nat) : UInt8 :=
  let shift := byteItem * stateBits
  value &&& ~~~UInt8.ofNat (stateMask <<< shift) |||
    UInt8.ofNat ((newState &&& stateMask) <<< shift)

def SegbmapFragmentHeader.wire : Wire SegbmapFragmentHeader :=
  (Wire.u16.pair <| Wire.u16.pair <| Wire.u16.pair <| Wire.u8.pair <| Wire.u8.pair <|
    Wire.u64.pair <| Wire.u16.pair <| Wire.u16.pair <| Wire.u32.pair <| Wire.u16.pair <|
    Wire.u16.pair <| Wire.u16.pair Wire.u16).iso
    (fun (a, b, c, d, _, e, f, g, _, h, i, j, k) => ⟨a, b, c, d, e, f, g, h, i, j, k⟩)
    (fun h => (h.magic, h.segIndex, h.pebIndex, h.flags, 0, h.startItem, h.sequenceId,
      h.fragmentBytes, 0, h.totalSegs, h.cleanOrUsingSegs, h.usedOrDirtySegs, h.badSegs)) fun _ => rfl

@[simp] theorem SegbmapFragmentHeader.wire_size : SegbmapFragmentHeader.wire.size = 32 := rfl

section

variable (buf : Buf) (bitmap : Nat)

/-- The byte and the item in it, from `byteIndex` on in the next `rest` bytes. -/
def searchClean : Nat → Nat → Nat → Mkfs (Option (Nat × Nat))
  | 0, _, _ => .ok none
  | rest + 1, byteIndex, startOffset => do
    let value ← buf.get Errno Wire.u8 (bitmap + byteIndex)
    let found ← findFirstItemInByte value segClean segStateBits segStateMask startOffset
      byteContainsCleanState
    match found with
    | some offset => .ok (some (byteIndex, offset))
    | none => searchClean rest (byteIndex + 1) 0

/-- The item is set before its number is compared with `maxItem`. -/
def setFirstCleanItemInFragment (hdr : SegbmapFragmentHeader)
    (startItem maxItem pageSize state : Nat) : Mkfs (Buf × Option Nat) := do
  failIf (startItem ≥ maxItem) .einval
  let fragmentStartItem := hdr.startItem.toNat
  failIf (fragmentStartItem = Word.u64Max) .erange
  let searchBytes := Word.sub32 hdr.fragmentBytes.toNat segbmapFragmentHeaderSize
  failIf (searchBytes = 0 ∨ searchBytes > pageSize) .erange
  let alignedStart := alignedStartItem startItem segStateBits
  let alignedEnd := alignedEndItem maxItem segStateBits
  let byteRange := Word.sub64 alignedEnd fragmentStartItem / itemsPerByte segStateBits
  bugOn (byteRange ≥ Word.u32Max)
  let searchBytes := min searchBytes byteRange
  let (byteIndex, startOffset) :=
    if fragmentStartItem ≤ alignedStart then
      (Word.u32 (alignedStart - fragmentStartItem) / itemsPerByte segStateBits,
        Word.u8 (startItem - alignedStart))
    else (0, 0)
  let found ← searchClean buf bitmap (searchBytes - byteIndex) byteIndex startOffset
  match found with
  | none => .ok (buf, none)
  | some (byteIndex, foundOffset) => do
    let value ← buf.get Errno Wire.u8 (bitmap + byteIndex)
    let buf ← buf.put Errno Wire.u8 (bitmap + byteIndex)
      (setStateInByte value foundOffset segStateBits segStateMask state)
    let foundSeg := Word.u64 (fragmentStartItem + byteIndex * itemsPerByte segStateBits + foundOffset)
    .ok (buf, if foundSeg ≥ maxItem ∨ foundSeg = Word.u64Max then none else some foundSeg)

end

/-- The state of item `i` of a bitmap. -/
def itemState (m : Bytes) (bitmap i : Nat) : Nat :=
  stateInByte (m (bitmap + i / 2)) segStateBits segStateMask (i % 2)

section

variable {value : UInt8} {startOffset : Nat}

theorem findFirstItemInByte_clean (h : startOffset ≤ 2) :
    findFirstItemInByte value segClean segStateBits segStateMask startOffset byteContainsCleanState =
      .ok (if startOffset = 0 ∧ stateInByte value segStateBits segStateMask 0 = segClean then some 0
        else if startOffset ≤ 1 ∧ stateInByte value segStateBits segStateMask 1 = segClean then some 1
        else none) := by
  have hall : ∀ n < 256, ∀ k < 3, findFirstItemInByte (UInt8.ofNat n) segClean segStateBits
      segStateMask k byteContainsCleanState =
      .ok (if k = 0 ∧ stateInByte (UInt8.ofNat n) segStateBits segStateMask 0 = segClean then some 0
        else if k ≤ 1 ∧ stateInByte (UInt8.ofNat n) segStateBits segStateMask 1 = segClean then some 1
        else none) := by decide +kernel
  have hvalue := hall value.toNat value.toNat_lt startOffset (Nat.lt_succ_of_le h)
  rwa [UInt8.ofNat_toNat] at hvalue

theorem findFirstItemInByte_abort (h : 2 < startOffset) :
    findFirstItemInByte value segClean segStateBits segStateMask startOffset byteContainsCleanState =
      .error .abort := by
  unfold findFirstItemInByte
  rw [bugOn, Checked.bugOn_of (show startOffset > itemsPerByte segStateBits from h),
    Checked.error_bind]

/-- What a search of the items from `lo` up to `hi` comes back with. -/
def FirstClean (m : Bytes) (bitmap lo hi : Nat) : Option (Nat × Nat) → Prop
  | none => ∀ i, lo ≤ i → i < hi → itemState m bitmap i ≠ segClean
  | some (byteIndex, offset) => offset < 2 ∧ lo ≤ byteIndex * 2 + offset ∧
      byteIndex * 2 + offset < hi ∧ itemState m bitmap (byteIndex * 2 + offset) = segClean ∧
      ∀ i, lo ≤ i → i < byteIndex * 2 + offset → itemState m bitmap i ≠ segClean

variable {buf : Buf} {bitmap state : Nat}

theorem itemState_byte {m : Bytes} {byteIndex offset : Nat} (h : offset < 2) :
    itemState m bitmap (byteIndex * 2 + offset) =
      stateInByte (m (bitmap + byteIndex)) segStateBits segStateMask offset :=
  Packed.item_byte h

theorem FirstClean.cons {m : Bytes} {byteIndex hi : Nat} {r : Option (Nat × Nat)}
    (h : FirstClean m bitmap ((byteIndex + 1) * 2) hi r)
    (hfull : ∀ j < 2, startOffset ≤ j → itemState m bitmap (byteIndex * 2 + j) ≠ segClean)
    (hoffset : startOffset ≤ 2) : FirstClean m bitmap (byteIndex * 2 + startOffset) hi r := by
  have hskip : ∀ i, byteIndex * 2 + startOffset ≤ i → i < (byteIndex + 1) * 2 →
      itemState m bitmap i ≠ segClean := fun i hlo hhi => by
    have hi := hfull (i - byteIndex * 2) (by omega) (by omega)
    rwa [Nat.add_sub_cancel' (by omega)] at hi
  cases r with
  | none =>
    intro i hlo hhi
    rcases Nat.lt_or_ge i ((byteIndex + 1) * 2) with hlt | hge
    · exact hskip i hlo hlt
    · exact h i hge hhi
  | some r =>
    obtain ⟨hoff, hlo', hhi', hclean, hfirst⟩ := h
    refine ⟨hoff, by omega, hhi', hclean, fun i hlo hi => ?_⟩
    rcases Nat.lt_or_ge i ((byteIndex + 1) * 2) with hlt | hge
    · exact hskip i hlo hlt
    · exact hfirst i hge hi

theorem searchClean_ok {rest byteIndex : Nat} (hfit : bitmap + byteIndex + rest ≤ buf.size)
    (hoffset : 0 < rest → startOffset ≤ 2) :
    ∃ r, searchClean buf bitmap rest byteIndex startOffset = .ok r ∧
      FirstClean buf.data bitmap (byteIndex * 2 + startOffset) ((byteIndex + rest) * 2) r := by
  induction rest generalizing byteIndex startOffset with
  | zero => exact ⟨none, rfl, fun i hlo hhi => by omega⟩
  | succ rest ih =>
    have hoffset := hoffset (Nat.succ_pos rest)
    have hbyte : ∀ j < 2, itemState buf.data bitmap (byteIndex * 2 + j) =
        stateInByte (buf.data (bitmap + byteIndex)) segStateBits segStateMask j :=
      fun j hj => itemState_byte hj
    unfold searchClean
    rw [Buf.get_ok (show bitmap + byteIndex + 1 ≤ buf.size by omega), Checked.ok_bind]
    have hread : Wire.u8.read buf.data (bitmap + byteIndex) = buf.data (bitmap + byteIndex) := rfl
    rw [hread, findFirstItemInByte_clean hoffset, Checked.ok_bind, ← hbyte 0 (by decide),
      ← hbyte 1 (by decide)]
    by_cases h0 : startOffset = 0 ∧ itemState buf.data bitmap (byteIndex * 2 + 0) = segClean
    · rw [if_pos h0]
      exact ⟨_, rfl, by decide, by omega, by omega, h0.2, fun i hlo hhi => by omega⟩
    rw [if_neg h0]
    by_cases h1 : startOffset ≤ 1 ∧ itemState buf.data bitmap (byteIndex * 2 + 1) = segClean
    · rw [if_pos h1]
      refine ⟨_, rfl, by decide, by omega, by omega, h1.2, fun i hlo hhi hclean => h0 ?_⟩
      have hi : i = byteIndex * 2 + 0 := by omega
      exact ⟨by omega, hi ▸ hclean⟩
    rw [if_neg h1]
    obtain ⟨r, hr, hfirst⟩ := @ih 0 (byteIndex + 1) (by omega) fun _ => Nat.zero_le _
    refine ⟨r, hr, FirstClean.cons ?_ (fun j hj hlo hclean => ?_) hoffset⟩
    · rwa [show byteIndex + (rest + 1) = byteIndex + 1 + rest by omega]
    · rcases Nat.lt_succ_iff_lt_or_eq.1 hj with hlt | rfl
      · obtain rfl := Nat.lt_one_iff.1 hlt
        exact h0 ⟨Nat.le_zero.1 hlo, hclean⟩
      · exact h1 ⟨hlo, hclean⟩

theorem searchClean_abort {rest byteIndex : Nat} (hfit : bitmap + byteIndex < buf.size)
    (hrest : 0 < rest) (hoffset : 2 < startOffset) :
    searchClean buf bitmap rest byteIndex startOffset = .error .abort := by
  obtain ⟨rest, rfl⟩ := Nat.exists_eq_succ_of_ne_zero (Nat.pos_iff_ne_zero.1 hrest)
  unfold searchClean
  rw [Buf.get_ok (show bitmap + byteIndex + 1 ≤ buf.size from hfit), Checked.ok_bind,
    findFirstItemInByte_abort hoffset, Checked.error_bind]

theorem itemState_put {m : Bytes} {byteIndex offset : Nat} (hoffset : offset < 2) (i : Nat) :
    itemState (Wire.u8.write m (bitmap + byteIndex)
      (setStateInByte (m (bitmap + byteIndex)) offset segStateBits segStateMask state)) bitmap i =
      if i = byteIndex * 2 + offset then state % 16 else itemState m bitmap i := by
  have hset : ∀ value, setStateInByte value offset segStateBits segStateMask state =
      Packed.set value 4 offset state := fun _ => rfl
  have hitem : ∀ m, itemState m bitmap i = Packed.item m 4 2 bitmap i := fun _ => rfl
  have hwrite : ∀ v, Wire.u8.write m (bitmap + byteIndex) v =
      Function.update m (bitmap + byteIndex) v := fun _ => rfl
  rw [hwrite, hset, hitem, hitem]
  exact Packed.item_update hoffset (by decide)

end

def SegbmapFragmentHeader.bitmapBytes (hdr : SegbmapFragmentHeader) : Nat :=
  Word.sub32 hdr.fragmentBytes.toNat segbmapFragmentHeaderSize

section

variable (hdr : SegbmapFragmentHeader) (startItem maxItem : Nat)

def searchStart : Nat × Nat :=
  let alignedStart := alignedStartItem startItem segStateBits
  if hdr.startItem.toNat ≤ alignedStart then
    (Word.u32 (alignedStart - hdr.startItem.toNat) / 2, Word.u8 (startItem - alignedStart))
  else (0, 0)

def byteRange : Nat :=
  Word.sub64 (alignedEndItem maxItem segStateBits) hdr.startItem.toNat / 2

def searchEnd : Nat := min hdr.bitmapBytes (byteRange hdr maxItem)

/-- An assertion stops the search. -/
def SearchStops : Prop :=
  Word.u32Max ≤ byteRange hdr maxItem ∨
    (searchStart hdr startItem).1 < searchEnd hdr maxItem ∧ 2 < (searchStart hdr startItem).2

instance : Decidable (SearchStops hdr startItem maxItem) := by
  unfold SearchStops
  infer_instance

/-- The arguments that a search is made for. -/
structure SearchAccepted (pageSize : Nat) : Prop where
  start_lt : startItem < maxItem
  start_ne : hdr.startItem.toNat ≠ Word.u64Max
  bytes_ne : hdr.bitmapBytes ≠ 0
  bytes_le : hdr.bitmapBytes ≤ pageSize

end

def takeItem (buf : Buf) (bitmap : Nat) (hdr : SegbmapFragmentHeader) (maxItem state : Nat) :
    Option (Nat × Nat) → Buf × Option Nat
  | none => (buf, none)
  | some (byteIndex, offset) =>
    let foundSeg := Word.u64 (hdr.startItem.toNat + byteIndex * 2 + offset)
    (⟨buf.size, Wire.u8.write buf.data (bitmap + byteIndex)
      (setStateInByte (buf.data (bitmap + byteIndex)) offset segStateBits segStateMask state)⟩,
      if foundSeg ≥ maxItem ∨ foundSeg = Word.u64Max then none else some foundSeg)

section

variable {buf : Buf} {bitmap state startItem maxItem pageSize : Nat} {hdr : SegbmapFragmentHeader}

theorem setFirstCleanItemInFragment_eq (haccepted : SearchAccepted hdr startItem maxItem pageSize)
    (hfit : bitmap + hdr.bitmapBytes ≤ buf.size) (hrange : byteRange hdr maxItem < Word.u32Max)
    {r : Option (Nat × Nat)}
    (hsearch : searchClean buf bitmap (searchEnd hdr maxItem - (searchStart hdr startItem).1)
      (searchStart hdr startItem).1 (searchStart hdr startItem).2 = .ok r)
    (hin : ∀ byteIndex offset, r = some (byteIndex, offset) → byteIndex < searchEnd hdr maxItem) :
    setFirstCleanItemInFragment buf bitmap hdr startItem maxItem pageSize state =
      .ok (takeItem buf bitmap hdr maxItem state r) := by
  obtain ⟨hlt, hne, hpos, hle⟩ := haccepted
  have hend : searchEnd hdr maxItem ≤ hdr.bitmapBytes := Nat.min_le_left _ _
  have hbyte : ∀ byteIndex < searchEnd hdr maxItem,
      bitmap + byteIndex + Wire.u8.size ≤ buf.size := fun byteIndex hlt =>
    Nat.le_trans (Nat.add_le_add_left (Nat.le_trans hlt hend) bitmap) hfit
  have hsize : ¬(hdr.bitmapBytes = 0 ∨ hdr.bitmapBytes > pageSize) := by omega
  have hbytes : Word.sub32 hdr.fragmentBytes.toNat segbmapFragmentHeaderSize = hdr.bitmapBytes := rfl
  have hitems : itemsPerByte segStateBits = 2 := rfl
  have hdiv : Word.sub64 (alignedEndItem maxItem segStateBits) hdr.startItem.toNat / 2 =
      byteRange hdr maxItem := rfl
  have hmin : min hdr.bitmapBytes (byteRange hdr maxItem) = searchEnd hdr maxItem := rfl
  have hfrom : (if hdr.startItem.toNat ≤ alignedStartItem startItem segStateBits then
      (Word.u32 (alignedStartItem startItem segStateBits - hdr.startItem.toNat) / 2,
        Word.u8 (startItem - alignedStartItem startItem segStateBits))
      else (0, 0)) = searchStart hdr startItem := rfl
  unfold setFirstCleanItemInFragment
  simp only [hitems, hbytes, hdiv, hmin, hfrom]
  rw [failIf_of_not (Nat.not_le.2 hlt), Checked.ok_bind, failIf_of_not hne, Checked.ok_bind,
    failIf_of_not hsize, Checked.ok_bind, bugOn_of_not (Nat.not_le.2 hrange), Checked.ok_bind,
    hsearch, Checked.ok_bind]
  cases r with
  | none => rfl
  | some r =>
    obtain ⟨byteIndex, offset⟩ := r
    have hbyte := hbyte byteIndex (hin byteIndex offset rfl)
    simp only
    rw [Buf.get_ok hbyte, Checked.ok_bind, Buf.put_ok hbyte, Checked.ok_bind]
    rfl

theorem setFirstCleanItemInFragment_run (haccepted : SearchAccepted hdr startItem maxItem pageSize)
    (hfit : bitmap + hdr.bitmapBytes ≤ buf.size) (hgo : ¬SearchStops hdr startItem maxItem) :
    ∃ r, FirstClean buf.data bitmap
        ((searchStart hdr startItem).1 * 2 + (searchStart hdr startItem).2)
        (searchEnd hdr maxItem * 2) r ∧
      setFirstCleanItemInFragment buf bitmap hdr startItem maxItem pageSize state =
        .ok (takeItem buf bitmap hdr maxItem state r) := by
  obtain ⟨hrange, hoffset⟩ := not_or.1 hgo
  have hend : searchEnd hdr maxItem ≤ hdr.bitmapBytes := Nat.min_le_left _ _
  rcases Nat.lt_or_ge (searchStart hdr startItem).1 (searchEnd hdr maxItem) with hin | hout
  · obtain ⟨r, hr, hfirst⟩ := @searchClean_ok (searchStart hdr startItem).2 buf bitmap
      (searchEnd hdr maxItem - (searchStart hdr startItem).1) (searchStart hdr startItem).1
      (by omega) fun _ => Nat.not_lt.1 fun h => hoffset ⟨hin, h⟩
    rw [Nat.add_sub_cancel' (Nat.le_of_lt hin)] at hfirst
    refine ⟨r, hfirst, setFirstCleanItemInFragment_eq haccepted hfit (Nat.not_le.1 hrange) hr ?_⟩
    rintro byteIndex offset rfl
    have hlt := hfirst.2.2.1
    omega
  · have hnone : searchClean buf bitmap (searchEnd hdr maxItem - (searchStart hdr startItem).1)
        (searchStart hdr startItem).1 (searchStart hdr startItem).2 = .ok none := by
      rw [Nat.sub_eq_zero_of_le hout]
      rfl
    refine ⟨none, fun i hlo hhi => ?_, setFirstCleanItemInFragment_eq haccepted hfit
      (Nat.not_le.1 hrange) hnone fun _ _ h => nomatch h⟩
    omega

theorem setFirstCleanItemInFragment_stops (hfit : hdr.bitmapBytes ≤ pageSize →
      bitmap + hdr.bitmapBytes ≤ buf.size)
    (h : ¬SearchAccepted hdr startItem maxItem pageSize ∨ SearchStops hdr startItem maxItem) :
    ∃ e, setFirstCleanItemInFragment buf bitmap hdr startItem maxItem pageSize state = .error e := by
  cases hrun : setFirstCleanItemInFragment buf bitmap hdr startItem maxItem pageSize state with
  | error e => exact ⟨e, rfl⟩
  | ok r =>
    obtain ⟨hlt, hrun⟩ := failIf_bind_eq_ok.1 hrun
    obtain ⟨hne, hrun⟩ := failIf_bind_eq_ok.1 hrun
    obtain ⟨hbytes, hrun⟩ := failIf_bind_eq_ok.1 hrun
    obtain ⟨hrange, hrun⟩ := bugOn_bind_eq_ok.1 hrun
    obtain ⟨hzero, hle⟩ := not_or.1 hbytes
    rcases h with h | h | ⟨hin, hoffset⟩
    · exact absurd ⟨Nat.not_le.1 hlt, hne, hzero, Nat.not_lt.1 hle⟩ h
    · exact absurd h hrange
    · have hroom := hfit (Nat.not_lt.1 hle)
      have hend : searchEnd hdr maxItem ≤ hdr.bitmapBytes := Nat.min_le_left _ _
      obtain ⟨_, hsearch, -⟩ := Checked.bind_eq_ok.1 hrun
      have habort := @searchClean_abort (searchStart hdr startItem).2 buf bitmap
        (searchEnd hdr maxItem - (searchStart hdr startItem).1) (searchStart hdr startItem).1
        (by omega) (by omega) hoffset
      cases habort.symm.trans hsearch

end

example : setStateInByte 0x93 0 segStateBits segStateMask segReserved = 0x99 := by decide

end Ssdfs
