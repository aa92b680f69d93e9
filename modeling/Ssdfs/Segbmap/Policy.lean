import Ssdfs.Layout

/-! The geometry of the segment bitmap and the headers of its fragments. -/

namespace Ssdfs

def segbmapSegsMax : Nat := 8
def segbmapFragmentHeaderSize : Nat := 32
def segbmapItemsPerByte : Nat := 2
def segbmapHdrMagic : UInt16 := 0x534D
def ushrtMax : Nat := 65535

def segBmapBytes (itemsCount : Nat) : Mkfs Nat := do
  let bytes := Word.u64 (itemsCount + segbmapItemsPerByte - 1) / segbmapItemsPerByte
  bugOn (bytes ≥ Word.u32Max)
  .ok bytes

def segBmapFragments (itemsCount pageSize : Nat) : Mkfs Nat := do
  let bytes ← segBmapBytes itemsCount
  let pages := Word.u32 (bytes + pageSize - 1) / pageSize
  let bytes := Word.u32 (bytes + pages * segbmapFragmentHeaderSize)
  let fragments := Word.u32 (bytes + pageSize - 1) / pageSize
  bugOn (fragments ≥ Word.u16Max)
  .ok fragments

def segbmapPayloadBytesPerFragment (fragmentSize : Nat) : Mkfs Nat := do
  bugOn (segbmapFragmentHeaderSize ≥ fragmentSize)
  .ok (fragmentSize - segbmapFragmentHeaderSize)

def segbmapItemsPerFragment (fragmentSize : Nat) : Mkfs Nat := do
  let payloadBytes ← segbmapPayloadBytesPerFragment fragmentSize
  let items := payloadBytes * segbmapItemsPerByte
  bugOn (items ≥ Word.u32Max)
  .ok items

def segbmapDefineFirstFragmentItem (fragmentIndex fragmentSize : Nat) : Mkfs Nat := do
  let items ← segbmapItemsPerFragment fragmentSize
  .ok (Word.u64 (fragmentIndex * items))

def VolumeLayout.segNums (layout : VolumeLayout) : Nat :=
  layout.env.fsSize.toNat / layout.segSize.toNat

structure SegbmapGeometry where
  bmapBytes : Nat
  fragmentsPerPeb : Nat
  pebsPerSeg : Nat
  segsPerChain : Nat
  fragmentsCount : Nat
  fragmentSize : Nat
  deriving Repr, DecidableEq

def roundUpQuot (a b : Nat) : Mkfs Nat := do
  let q ← quot a b
  let r ← rem a b
  .ok (if r ≠ 0 then q + 1 else q)

def segbmapSegs (fragments fragmentsPerSeg : Nat) : Mkfs Nat := do
  let segs ← quot (fragments + fragmentsPerSeg - 1) fragmentsPerSeg
  .ok (Word.u8 segs)

def correctedFragmentsPerPeb (layout : VolumeLayout) (fragments : Nat) : Nat :=
  let metadata := Word.u32 (layout.pageSize.bytes * 2)
  let payloadBytes := Word.sub32 layout.env.eraseSize.toNat metadata / 2
  let fragmentsPerPeb := Word.u16 (payloadBytes / layout.pageSize.bytes)
  min (if fragmentsPerPeb = 0 then 1 else fragmentsPerPeb) fragments

/-- `fragmentsPerPeb` is the value that the options ask for. -/
def segbmapMkfsAllocationPolicy (layout : VolumeLayout) (fragmentsPerPeb : UInt16) :
    Mkfs (SegbmapGeometry × Nat) := do
  let segNums ← quot layout.env.fsSize.toNat layout.segSize.toNat
  let bmapBytes ← segBmapBytes segNums
  let fragments ← segBmapFragments segNums pageCacheSize
  let pebsPerSeg ← quot layout.segSize.toNat layout.env.eraseSize.toNat
  let pebsPerSeg := Word.u16 pebsPerSeg
  let fragmentSize := layout.pageSize.bytes
  let requested := fragmentsPerPeb.toNat
  let segs ← segbmapSegs fragments (Word.u16 (requested * pebsPerSeg))
  let fragmentsPerPeb :=
    if layout.env.eraseSize.toNat < Word.u32 (requested * fragmentSize) ∨ segs > segbmapSegsMax then
      correctedFragmentsPerPeb layout fragments
    else requested
  let segs ← segbmapSegs fragments (Word.u16 (fragmentsPerPeb * pebsPerSeg))
  failIf (segs > segbmapSegsMax) .e2big
  let fragmentsPerSeg ← roundUpQuot fragments segs
  let fragmentsPerSeg := max (Word.u16 fragmentsPerSeg) 1
  let fragmentsPerPeb ← roundUpQuot fragmentsPerSeg pebsPerSeg
  let fragmentsPerPeb := max (Word.u16 fragmentsPerPeb) 1
  let pebsPerSeg ← roundUpQuot fragmentsPerSeg fragmentsPerPeb
  let pebsPerSeg := max (Word.u16 pebsPerSeg) 1
  .ok (⟨bmapBytes, fragmentsPerPeb, pebsPerSeg, segs, fragments, fragmentSize⟩,
    if layout.segbmap.hasBackupCopy then segs * 2 else segs)

structure SegbmapFragmentHeader where
  magic : UInt16
  segIndex : UInt16
  pebIndex : UInt16
  flags : UInt8
  startItem : UInt64
  sequenceId : UInt16
  fragmentBytes : UInt16
  totalSegs : UInt16
  cleanOrUsingSegs : UInt16
  usedOrDirtySegs : UInt16
  badSegs : UInt16
  deriving DecidableEq

structure SegbmapFragment where
  buffer : Nat
  offset : Nat
  hdr : SegbmapFragmentHeader
  deriving DecidableEq

def segbmapPrepareFragment (layout : VolumeLayout) (segbmap : SegbmapGeometry) (index : Nat) :
    Mkfs SegbmapFragment := do
  let fragments := segbmap.fragmentsCount
  failIf (index ≥ fragments) .einval
  let segNums ← quot layout.env.fsSize.toNat layout.segSize.toNat
  let fragmentsPerSeg := Word.u16 (segbmap.pebsPerSeg * segbmap.fragmentsPerPeb)
  let segIndex ← quot index fragmentsPerSeg
  let segIndex := Word.u16 segIndex
  let buffer ← quot index segbmap.fragmentsPerPeb
  -- The difference is not positive and its quotient is rounded towards zero.
  let pebIndex := Int.tdiv ((segIndex * fragmentsPerSeg : Nat) - (index : Int)) segbmap.fragmentsPerPeb
  let startItem ← segbmapDefineFirstFragmentItem index pageCacheSize
  failIf (startItem ≥ segNums) .erange
  let payloadBytes ← segbmapPayloadBytesPerFragment pageCacheSize
  let fragmentBytes := Word.sub64 (Word.u64 (segbmap.bmapBytes + fragments * segbmapFragmentHeaderSize))
    (index * (payloadBytes + segbmapFragmentHeaderSize))
  let fragmentBytes := min fragmentBytes pageCacheSize
  bugOn (fragmentBytes ≥ ushrtMax)
  let itemsPerFragment ← segbmapItemsPerFragment pageCacheSize
  let itemsPerFragment := min itemsPerFragment (segNums - startItem)
  bugOn (itemsPerFragment ≥ ushrtMax)
  .ok
    { buffer
      offset := index % segbmap.fragmentsPerPeb * segbmap.fragmentSize
      hdr :=
        { magic := segbmapHdrMagic
          segIndex := UInt16.ofNat segIndex
          pebIndex := UInt16.ofNat (pebIndex % 65536).toNat
          flags := 0
          startItem := UInt64.ofNat startItem
          sequenceId := UInt16.ofNat index
          fragmentBytes := UInt16.ofNat fragmentBytes
          totalSegs := UInt16.ofNat itemsPerFragment
          cleanOrUsingSegs := UInt16.ofNat itemsPerFragment
          usedOrDirtySegs := 0
          badSegs := 0 } }

end Ssdfs
