import Ssdfs.Write.Placed

/-! Writing the extents of a PEB through a buffer of one page. -/

namespace Ssdfs

/-- The write buffer, the device behind it and the offsets and sizes of the writes so far. -/
structure WriteState where
  buffer : Nat → UInt8
  bufferOffset : Nat
  device : Nat → UInt8
  writes : List (Nat × Nat)
  openZones : Nat

structure PebWriter extends WriteState where
  pebOffset : Nat
  volumeOffset : Nat
  flushedBytes : Nat

def VolumeLayout.writeBufferCapacity (layout : VolumeLayout) : Nat := layout.pageSize.bytes

def writeOpenZones (layout : VolumeLayout) (offset openZones : Nat) : Nat :=
  let erasesize := layout.env.eraseSize.toNat
  if layout.env.deviceType = .zns ∧ (offset / erasesize * erasesize = offset ∨ offset = 1024) then
    Word.u32 (openZones + 1)
  else openZones

def WriteState.flush (w : WriteState) (layout : VolumeLayout) (offset size : Nat) : WriteState where
  device x := if offset ≤ x ∧ x < offset + size then w.buffer (x - offset) else w.device x
  writes := w.writes ++ [(offset, size)]
  buffer _ := 0xFF
  bufferOffset := 0
  openZones := writeOpenZones layout offset w.openZones

def flushWriteBuffer (layout : VolumeLayout) (offset size : Nat) (w : WriteState) :
    Mkfs WriteState := do
  failIf (size = 0 ∨ size > layout.writeBufferCapacity) .erange
  let unaligned ← rem offset layout.pageSize.bytes
  failIf (unaligned ≠ 0) .erange
  .ok (w.flush layout offset size)

def prepareWriteBuffer (layout : VolumeLayout) (offset : Nat) (buf : Nat → UInt8) (size : Nat)
    (w : WriteState) : WriteState × Nat × Bool :=
  if offset < w.bufferOffset ∨ offset ≥ layout.writeBufferCapacity then (w, 0, true)
  else
    let bytesCount := min size (layout.writeBufferCapacity - offset)
    ({ w with
        buffer := fun i =>
          if offset ≤ i ∧ i < offset + bytesCount then buf (i - offset) else w.buffer i
        bufferOffset := offset + bytesCount },
      bytesCount, bytesCount ≠ size ∨ offset + bytesCount = layout.writeBufferCapacity)

def writeChunk (layout : VolumeLayout) (buf : Nat → UInt8) (size : Nat) (st : PebWriter) :
    Mkfs (PebWriter × Nat) := do
  let capacity := layout.writeBufferCapacity
  let (w, copiedBytes, full) :=
    prepareWriteBuffer layout (st.pebOffset % capacity) buf size st.toWriteState
  let st ← if full then do
      let w ← flushWriteBuffer layout st.volumeOffset capacity w
      .ok { st with
        toWriteState := w
        volumeOffset := Word.u64 (st.volumeOffset + capacity)
        flushedBytes := Word.u32 (st.flushedBytes + capacity) }
    else .ok { st with toWriteState := w }
  failIf (copiedBytes > size) .erange
  .ok ({ st with pebOffset := Word.u32 (st.pebOffset + copiedBytes) }, copiedBytes)

def writeExtent (layout : VolumeLayout) : Nat → (Nat → UInt8) → Nat → PebWriter → Mkfs PebWriter
  | 0, _, size, st => if size > 0 then .error .fuel else .ok st
  | fuel + 1, buf, size, st =>
    if size > 0 then do
      let (st, copiedBytes) ← writeChunk layout buf size st
      writeExtent layout fuel (fun i => buf (copiedBytes + i)) (size - copiedBytes) st
    else .ok st

def writeItem (layout : VolumeLayout) (fuel : Nat) (peb : PebContent) (i : ExtentIndex)
    (st : PebWriter) : Mkfs PebWriter :=
  let desc := peb.extents i
  match desc.buf with
  | none => .ok st
  | some buf => do
    failIf (desc.offset.toNat < st.pebOffset) .erange
    writeExtent layout fuel buf desc.bytesCount.toNat { st with pebOffset := desc.offset.toNat }

def writeContent (layout : VolumeLayout) (fuel : Nat) (peb : PebContent) (w : WriteState) :
    Mkfs WriteState := do
  let pagesize := layout.pageSize.bytes
  let volumeOffset := Word.u64 (peb.pebId * layout.env.eraseSize.toNat)
  let st ← Checked.forEach (writeItem layout fuel peb) ExtentIndex.all
    ⟨{ w with buffer := fun _ => 0xFF }, 0, volumeOffset, 0⟩
  if st.pebOffset > st.flushedBytes then
    let alignedSize := Word.u32 (st.pebOffset - st.flushedBytes + (pagesize - 1))
    flushWriteBuffer layout st.volumeOffset (alignedSize / pagesize * pagesize) st.toWriteState
  else .ok st.toWriteState

def closePeb (layout : VolumeLayout) (checkPeb : Bool → Mkfs Unit) (segType : Option MetaIndex)
    (openZones : Nat) : Mkfs Nat :=
  match layout.env.deviceType with
  | .blk | .mtd => .ok openZones
  | .max => .error .abort
  | .zns => do
    let needCloseZone := decide (segType = some .initialSnapshot)
    checkPeb needCloseZone
    .ok (if needCloseZone then Word.sub32 openZones 1 else openZones)

def writePeb (layout : VolumeLayout) (fuel : Nat) (checkPeb : Bool → Mkfs Unit) (a : SegsArray)
    (segIndex pebIndex : Nat) (w : WriteState) : Mkfs WriteState := do
  failIf (segIndex ≥ a.segsCapacity) .einval
  failIf (pebIndex ≥ (a.segs segIndex).pebsCount) .einval
  let w ← writeContent layout fuel (a.content (segIndex, pebIndex)) w
  let openZones ← closePeb layout checkPeb (a.segs segIndex).segType w.openZones
  .ok { w with openZones }

end Ssdfs
