import Mathlib.Data.Set.BooleanAlgebra
import Mathlib.Order.CompletePartialOrder
import Mathlib.Order.Interval.Set.Basic
import Ssdfs.Layout

namespace Ssdfs

def validateKeyCreationOptions (layout : VolumeLayout) : Mkfs Unit := do
  let fsSize := layout.env.fsSize.toNat
  let segSize := layout.segSize.toNat
  let eraseSize := layout.env.eraseSize.toNat
  let pageSize := layout.pageSize.bytes
  failIf (pageSize ≥ eraseSize) .einval
  failIf (eraseSize % pageSize ≠ 0) .einval
  failIf (segSize < eraseSize) .einval
  failIf (segSize % eraseSize ≠ 0) .einval
  failIf (fsSize ≤ segSize) .einval
  failIf (eraseSize = 131072 ∧ pageSize = 32768) .einval

def checkExtentBeforeWrite (layout : VolumeLayout) (pebId : Nat) (desc : ExtentDesc) :
    Mkfs Unit :=
  let fsSize := layout.env.fsSize.toNat
  let erasesize := layout.env.eraseSize.toNat
  let extentOffset := desc.offset.toNat
  let extentSize := desc.bytesCount.toNat
  if desc.buf.isNone then .ok ()
  else do
    let pebsMax ← quot Word.u64Max erasesize
    bugOn (pebsMax ≤ pebId)
    let pebStartOffset := Word.u64 (pebId * erasesize)
    failIf (pebStartOffset ≥ fsSize) .e2big
    bugOn (pebStartOffset ≥ Word.u64Max - extentOffset)
    failIf (Word.u64 (pebStartOffset + extentOffset) ≥ fsSize) .e2big
    bugOn (extentSize = 0)
    bugOn (Word.u64 (pebStartOffset + extentOffset) ≥ Word.u64Max - extentSize)
    failIf (Word.u64 (Word.u64 (pebStartOffset + extentOffset) + extentSize) > fsSize) .e2big
    failIf (Word.u64 (extentOffset + extentSize) > erasesize) .erange

def checkNextExtent (layout : VolumeLayout) (peb : PebContent) (i : ExtentIndex)
    (st : Nat × Nat) : Mkfs (Nat × Nat) :=
  let desc := peb.extents i
  let offset := desc.offset.toNat
  let bytesCount := desc.bytesCount.toNat
  if desc.buf.isNone then .ok st
  else do
    checkExtentBeforeWrite layout peb.pebId desc
    if st.1 = Word.u32Max ∧ st.2 = Word.u32Max then .ok (offset, bytesCount)
    else do
      let curOffset := Word.u32 (st.1 + st.2)
      failIf (curOffset > offset) .erange
      failIf (offset - curOffset ≥ layout.pageSize.bytes) .erange
      let payloadSize :=
        if curOffset ≠ offset then Word.u32 (st.2 + (offset - curOffset)) else st.2
      .ok (st.1, Word.u32 (payloadSize + bytesCount))

abbrev BlkBmap := Nat → Bool

def useBlk (curBlk : Nat) (bmap : BlkBmap) : Mkfs BlkBmap := do
  failIf (bmap curBlk = true) .einval
  .ok (Function.update bmap curBlk true)

def checkPebBeforeWrite (layout : VolumeLayout) (peb : PebContent) (bmap : BlkBmap) :
    Mkfs (BlkBmap × Nat) := do
  let pagesize := layout.pageSize.bytes
  let (startOffset, payloadSize) ←
    Checked.forEach (checkNextExtent layout peb) ExtentIndex.all (Word.u32Max, Word.u32Max)
  bugOn (startOffset = Word.u32Max)
  bugOn (payloadSize = Word.u32Max)
  bugOn (payloadSize = 0)
  let alignedOffset := startOffset / pagesize * pagesize
  bugOn (alignedOffset > startOffset)
  let alignedSize := Word.u32 (payloadSize + (startOffset - alignedOffset))
  let startBlk :=
    Word.u64 (Word.u64 (peb.pebId * layout.env.eraseSize.toNat) + alignedOffset) / pagesize
  let blks := Word.u32 (alignedSize + pagesize - 1) / pagesize
  let bmap ← Checked.forRange blks (fun i => useBlk (Word.u64 (startBlk + i))) bmap
  .ok (bmap, blks)

def checkSegmentBeforeWrite (layout : VolumeLayout) (seg : SegmentDesc) (bmap : BlkBmap) :
    Mkfs BlkBmap := do
  let segBlksCapacity := layout.segSize.toNat / layout.pageSize.bytes
  let (bmap, segBlks) ← Checked.forRange seg.pebsCount (fun j st => do
    let (bmap, blks) ← checkPebBeforeWrite layout (seg.pebs j) st.1
    .ok (bmap, Word.u64 (st.2 + blks))) (bmap, 0)
  failIf (segBlks > segBlksCapacity) .e2big
  .ok bmap

def checkLayoutBeforeWrite (layout : VolumeLayout) (a : SegsArray) : Mkfs Unit := do
  let _ ← Checked.forRange a.segsCount
    (fun i => checkSegmentBeforeWrite layout (a.segs i)) fun _ => false
  .ok ()

end Ssdfs
