import Ssdfs.LogTables.Define
import Ssdfs.Maptbl.Policy

/-! The mapping table's header in the superblock and the extents with its segments. -/

namespace Ssdfs

def maptblReservedExtents : Nat := 3

def emptyExtentType : UInt16 := 0
def segExtentType : UInt16 := 1
def pebExtentType : UInt16 := 2
def blkExtentType : UInt16 := 3

def maptblHasCopy : UInt16 := 1
def maptblMakeZlibCompr : UInt16 := 4
def maptblMakeLzoCompr : UInt16 := 8
def maptblMakeLz4Compr : UInt16 := 64
def maptblMakeZstdCompr : UInt16 := 128

structure MetaAreaExtent where
  startId : UInt64
  len : UInt32
  type : UInt16
  flags : UInt16
  deriving DecidableEq

inductive MaptblSeg
  | main
  | copy
  deriving Repr, DecidableEq

structure MaptblSbHeader where
  fragmentsCount : UInt32
  fragmentBytes : UInt32
  lastPebRecoverCno : UInt64
  lebsCount : UInt64
  pebsCount : UInt64
  fragmentsPerSeg : UInt16
  fragmentsPerPeb : UInt16
  flags : UInt16
  preErasePebs : UInt16
  lebsPerFragment : UInt16
  pebsPerFragment : UInt16
  pebsPerStripe : UInt16
  stripesPerFragment : UInt16
  extents : MaptblSeg → Nat → MetaAreaExtent

/-- The bytes that `memset` leaves. -/
def unsetExtent : MetaAreaExtent := ⟨0xFFFFFFFFFFFFFFFF, 0xFFFFFFFF, 0xFFFF, 0xFFFF⟩

/-- The run of segments that has been begun and not written yet; no number is yet in it while
`segId` is the greatest one. -/
structure ExtentsWalk where
  segId : Nat
  extentLen : Nat
  j : Nat
  extents : Nat → MetaAreaExtent

def segExtent (startId len : Nat) : MetaAreaExtent :=
  ⟨UInt64.ofNat startId, UInt32.ofNat len, segExtentType, 0⟩

def ExtentsWalk.put (w : ExtentsWalk) : Nat → MetaAreaExtent :=
  Function.update w.extents w.j (segExtent w.segId w.extentLen)

def ExtentsWalk.add (w : ExtentsWalk) (curSegId : Nat) : Mkfs ExtentsWalk :=
  if w.segId = Word.u64Max then .ok { w with segId := curSegId, extentLen := Word.u32 (w.extentLen + 1) }
  else if Word.u64 (w.segId + w.extentLen) ≠ curSegId then do
    bugOn (w.j + 1 ≥ maptblReservedExtents)
    .ok ⟨curSegId, 1, w.j + 1, w.put⟩
  else .ok { w with extentLen := Word.u32 (w.extentLen + 1) }

def ExtentsWalk.close (w : ExtentsWalk) : Mkfs (Nat → MetaAreaExtent) :=
  if w.extentLen ≠ 0 then do
    bugOn (w.segId = Word.u64Max)
    bugOn (w.j ≥ maptblReservedExtents)
    .ok w.put
  else .ok w.extents

section

variable (layout : VolumeLayout) (a : SegsArray)

def portionsPerSeg : Nat := Word.u32 (layout.pebsPerSeg * layout.maptbl.portionsPerFragment)

def segsPerCopy : Mkfs Nat :=
  quot (Word.u32 (layout.maptbl.portionsCount + portionsPerSeg layout - 1)) (portionsPerSeg layout)

def defineMaptblExtents (segChainType : MaptblSeg) (extents : Nat → MetaAreaExtent) :
    Mkfs (Nat → MetaAreaExtent) := do
  let segsPerCopy ← segsPerCopy layout
  let segIndex := (a.metaArray .pebMappingTable).startSegIndex +
    match segChainType with
    | .main => 0
    | .copy => segsPerCopy
  let cleared := fun i =>
    if i < maptblReservedExtents then { extents i with type := emptyExtentType } else extents i
  let walk ← Checked.forRange segsPerCopy
    (fun i (walk : ExtentsWalk) => walk.add (a.segs (segIndex + i)).segId) ⟨Word.u64Max, 0, 0, cleared⟩
  walk.close

def defineCopyExtents : Mkfs (Nat → MetaAreaExtent) :=
  if layout.maptbl.hasBackupCopy then defineMaptblExtents layout a .copy fun _ => unsetExtent
  else .ok fun _ => unsetExtent

def maptblCompressionFlag : Compression → Mkfs UInt16
  | .uncompressed => .ok 0
  | .zlib => .ok maptblMakeZlibCompr
  | .lzo => .ok maptblMakeLzoCompr
  | .lz4 => .ok maptblMakeLz4Compr
  | .zstd => .ok maptblMakeZstdCompr
  | .unknown => fail .erange

def initMaptblSbHeader (compression : Compression) (preErasedPebs : Nat) : Mkfs MaptblSbHeader := do
  let maptbl := layout.maptbl
  let pebsCount ← quot layout.env.fsSize.toNat layout.env.eraseSize.toNat
  let segsPerCopy ← segsPerCopy layout
  bugOn (portionsPerSeg layout ≥ Word.u16Max)
  let compressionFlag ← maptblCompressionFlag compression
  let flags := (if maptbl.hasBackupCopy then maptblHasCopy else 0) ||| compressionFlag
  let lebsPerPortion := min (Word.u16 maptbl.lebsPerPortion) (Word.u16 pebsCount)
  let pebsPerPortion := min (Word.u16 maptbl.pebsPerPortion) (Word.u16 pebsCount)
  let pebsPerStripe ← roundUpQuot pebsPerPortion maptbl.stripesPerPortion
  let segsCount := (a.metaArray .pebMappingTable).segsCount
  failIf (maptbl.hasBackupCopy ∧ Word.u32 (segsPerCopy * 2) ≠ segsCount) .erange
  -- A volume with a backup copy is not exempt from the second check.
  failIf (segsPerCopy ≠ segsCount) .erange
  let mainExtents ← defineMaptblExtents layout a .main fun _ => unsetExtent
  let copyExtents ← defineCopyExtents layout a
  .ok
    { fragmentsCount := UInt32.ofNat maptbl.portionsCount
      fragmentBytes := UInt32.ofNat maptbl.portionSize
      lastPebRecoverCno := UInt64.ofNat Word.u64Max
      lebsCount := UInt64.ofNat pebsCount
      pebsCount := UInt64.ofNat pebsCount
      fragmentsPerSeg := UInt16.ofNat (portionsPerSeg layout)
      fragmentsPerPeb := UInt16.ofNat maptbl.portionsPerFragment
      flags
      preErasePebs := UInt16.ofNat (min preErasedPebs Word.u16Max)
      lebsPerFragment := UInt16.ofNat lebsPerPortion
      pebsPerFragment := UInt16.ofNat pebsPerPortion
      pebsPerStripe := UInt16.ofNat pebsPerStripe
      stripesPerFragment := UInt16.ofNat maptbl.stripesPerPortion
      extents := fun
        | .main => mainExtents
        | .copy => copyExtents }

def maptblCheckSegsCount : Mkfs Unit := do
  let segsCount := (a.metaArray .pebMappingTable).segsCount
  let segs ← quot (Word.u32 (layout.maptbl.maptblPebs + layout.pebsPerSeg - 1)) layout.pebsPerSeg
  failIf (segsCount = 0 ∨ segsCount > segs) .erange

end

end Ssdfs
