import Ssdfs.Blkbmap.SetArea
import Ssdfs.Lib.Blob
import Ssdfs.MaptblSb.Header
import Ssdfs.OffTable.Encode

/-! The block bitmap of a log: the blocks of the payload are marked, and the bitmap is split into
fragments that are compressed one by one. -/

namespace Ssdfs

structure BlockBitmapHeader where
  magic : Signature
  fragmentsCount : UInt16
  bytesCount : UInt32
  flags : UInt8
  type : UInt8
  deriving DecidableEq

def BlockBitmapHeader.wire : Wire BlockBitmapHeader :=
  (Signature.wire.pair <| Wire.u16.pair <| Wire.u32.pair <| Wire.u8.pair Wire.u8).iso
    (fun (a, b, c, d, e) => ⟨a, b, c, d, e⟩)
    (fun h => (h.magic, h.fragmentsCount, h.bytesCount, h.flags, h.type)) fun _ => rfl

structure BlockBitmapFragment where
  pebIndex : UInt16
  sequenceId : UInt8
  flagsAndType : UInt8
  lastFreeBlk : UInt32
  metadataBlks : UInt32
  invalidBlks : UInt32
  chainHdr : FragmentsChainHeader
  deriving DecidableEq

def BlockBitmapFragment.wire : Wire BlockBitmapFragment :=
  (Wire.u16.pair <| Wire.u8.pair <| Wire.u8.pair <| Wire.u32.pair <| Wire.u32.pair <|
    Wire.u32.pair FragmentsChainHeader.wire).iso
    (fun (a, b, c, d, e, f, g) => ⟨a, b, c, d, e, f, g⟩)
    (fun h => (h.pebIndex, h.sequenceId, h.flagsAndType, h.lastFreeBlk, h.metadataBlks,
      h.invalidBlks, h.chainHdr)) fun _ => rfl

@[simp] theorem BlockBitmapHeader.wire_size : BlockBitmapHeader.wire.size = 16 := rfl
@[simp] theorem BlockBitmapFragment.wire_size : BlockBitmapFragment.wire.size = 32 := rfl

def blkBmapMagic : UInt16 := 0x424D
def blkBmapChainHdr : UInt8 := 0x9
def srcBlkBmap : UInt8 := 0

def blkBmapBackup : UInt8 := 1
def blkBmapCompressed : UInt8 := 2

def blkBmapHdrSize : Nat := 16
def blkBmapFragHdrSize : Nat := 32
def fragmentDescSize : Nat := 16

def blkBmapFragmentsChainMax : Nat := 64
def blkBmapFragmentSize : Nat := 4096
def minSizeCompressionThreshold : Nat := 64

def u8Max : Nat := 255

structure BlkbmapLayout where
  hasBackupCopy : Bool
  compression : Compression
  deriving Repr, DecidableEq

structure CompressionLibs where
  compress : Compression → List UInt8 → Nat → Except Errno (List UInt8)
  decompress : Compression → List UInt8 → Nat → Option (List UInt8)

def blkBmapBytes (itemsCount : Nat) : Nat :=
  Word.u32 (itemsCount + itemsPerByte blkStateBits - 1) / itemsPerByte blkStateBits

def blkBmapFragments (bmapBytes : Nat) : Nat :=
  Word.u32 (bmapBytes + blkBmapFragmentSize - 1) / blkBmapFragmentSize

def blkBmapOffset (fragmentsCount : Nat) : Nat :=
  Word.u32 (blkBmapHdrSize + blkBmapFragHdrSize + fragmentsCount * fragmentDescSize)

def blkBmapTypeOf : Compression → Mkfs UInt8
  | .uncompressed => .ok 0
  | .zlib => .ok 1
  | .lzo => .ok 2
  | .lz4 => .ok 3
  | .zstd => .ok 4
  | .unknown => .error .abort

def blkBmapFlagsOf (blkbmap : BlkbmapLayout) : UInt8 :=
  (if blkbmap.hasBackupCopy then blkBmapBackup else 0) |||
    match blkbmap.compression with
    | .uncompressed | .unknown => 0
    | .zlib | .lzo | .lz4 | .zstd => blkBmapCompressed

def fragmentBlobOf : Compression → UInt8
  | .uncompressed | .unknown => fragmentUncomprBlob
  | .zlib => 2
  | .lzo => 3
  | .lz4 => 15
  | .zstd => 19

structure BlkArea where
  start : Nat
  count : Nat
  state : Int
  deriving Repr, DecidableEq

/-- The areas of a PEB with `bytesCount` bytes of payload in `blksCount` blocks. -/
def blkAreas (layout : VolumeLayout) (bytesCount startLogicalBlk blksCount : Nat) :
    Mkfs (List BlkArea) := do
  let validBlks := Word.u32 (bytesCount / layout.pageSize.bytes)
  let preAllocatedBlks := Word.sub32 blksCount validBlks
  failIf (preAllocatedBlks > 1) .erange
  .ok ((if validBlks > 0 then [⟨startLogicalBlk, validBlks, blkValid⟩] else []) ++
    if preAllocatedBlks > 0 then
      [⟨Word.u32 (startLogicalBlk + validBlks), preAllocatedBlks, blkPreAllocated⟩]
    else [])

def setBlkAreas (bmap : Nat) (areas : List BlkArea) (buf : Buf) : Mkfs Buf :=
  Checked.forEach (fun area buf => blkbmapSetArea buf bmap area.start area.count area.state) areas buf

/-- What `ssdfs_zlib_compress` and its siblings share: nothing is stored that has not shrunk. -/
def ssdfsCompress (libs : CompressionLibs) (compression : Compression) (data : List UInt8)
    (limit : Nat) : Mkfs (List UInt8) :=
  match libs.compress compression data limit with
  | .error e => fail e
  | .ok out => do
    failIf (out.length ≥ data.length) .e2big
    .ok out

def compressFragment (libs : CompressionLibs) (compression : Compression) (data : List UInt8)
    (limit : Nat) : Mkfs (UInt8 × List UInt8) :=
  if data.length < minSizeCompressionThreshold then .ok (fragmentUncomprBlob, data)
  else
    match compression with
    | .uncompressed => .ok (fragmentUncomprBlob, data)
    | .unknown => .error .abort
    | .zlib | .lzo | .lz4 | .zstd => do
      let out ← ssdfsCompress libs compression data limit
      .ok (fragmentBlobOf compression, out)

section

variable (crc32 : List UInt8 → UInt32) (libs : CompressionLibs) (layout : VolumeLayout)
  (blkbmap : BlkbmapLayout)

/-- As `fragmentDescriptorInit`, with the fragment itself in a buffer of its own. -/
def fragmentDescriptorInitFrom (src : Buf) (buf : Buf)
    (desc fragment offset comprSize uncomprSize sequenceId : Nat) (type flags : UInt8) : Mkfs Buf := do
  failIf (comprSize = 0 ∨ uncomprSize = 0 ∨ comprSize > uncomprSize) .einval
  failIf (type < fragmentUncomprBlob ∨ type > blk2offDescZstd) .einval
  failIf (flags &&& ~~~fragmentDescFlagsMask ≠ 0) .einval
  let old ← buf.get Errno FragmentDesc.wire desc
  let bytes ← src.bytes Errno fragment uncomprSize
  buf.put Errno FragmentDesc.wire desc
    { offset := UInt32.ofNat offset
      comprSize := UInt16.ofNat comprSize
      uncomprSize := UInt16.ofNat uncomprSize
      checksum := if flags &&& fragmentHasCsum ≠ 0 then crc32 bytes else old.checksum
      sequenceId := UInt8.ofNat sequenceId
      magic := fragmentDescMagic
      type
      flags }

structure BlkbmapState where
  buf : Buf
  fragmentOffset : Nat
  writtenBmapBytes : Nat
  writtenComprBytes : Nat

/-- Fragment `i` of the bitmap, whose `bmapBytes` bytes stand at `bmapOffset` in `bitmap`. -/
def preCommitFragment (bitmap : Buf) (bmapOffset bmapBytes allocationSize i : Nat)
    (st : BlkbmapState) : Mkfs BlkbmapState := do
  let descOffset := blkBmapHdrSize + blkBmapFragHdrSize + i * fragmentDescSize
  let fragment := bmapOffset + i * blkBmapFragmentSize
  bugOn (bmapBytes ≤ st.writtenBmapBytes)
  let fragmentSize := min (bmapBytes - st.writtenBmapBytes) blkBmapFragmentSize
  bugOn (fragmentSize ≥ Word.u16Max)
  bugOn (i ≥ u8Max)
  let data ← bitmap.bytes Errno fragment fragmentSize
  let (type, compr) ← compressFragment libs blkbmap.compression data
    (Word.sub32 allocationSize st.writtenComprBytes)
  let buf ← st.buf.putBytes Errno (bmapOffset + st.writtenComprBytes) compr
  let buf ← fragmentDescriptorInitFrom crc32 bitmap buf descOffset fragment st.fragmentOffset
    (Word.u16 compr.length) (Word.u16 fragmentSize) (Word.u8 i) type fragmentHasCsum
  .ok
    { buf
      fragmentOffset := Word.u32 (st.fragmentOffset + compr.length)
      writtenBmapBytes := Word.u32 (st.writtenBmapBytes + fragmentSize)
      writtenComprBytes := Word.u32 (st.writtenComprBytes + compr.length) }

structure BlkbmapExtent where
  buf : Buf
  bytesCount : Nat
  state : Compression

def preCommitBlockBitmap (extent : ExtentDesc) (pebIndex bytesCount : Nat)
    (startLogicalBlk : UInt32) (blksCount : UInt16) : Mkfs BlkbmapExtent := do
  bugOn (extent.buf.isSome = true)
  bugOn (layout.pageSize.bytes = 0)
  bugOn (layout.pageSize.bytes > layout.env.eraseSize.toNat)
  failIf (blksCount.toNat > layout.pagesPerPeb) .einval
  let bmapBytes := blkBmapBytes layout.pagesPerPeb
  let fragmentsCount := blkBmapFragments bmapBytes
  bugOn (fragmentsCount ≥ Word.u16Max)
  bugOn (fragmentsCount > blkBmapFragmentsChainMax)
  let allocationSize := Word.u32 (bmapBytes + blkBmapHdrSize + blkBmapFragHdrSize +
    fragmentsCount * fragmentDescSize)
  let type ← blkBmapTypeOf blkbmap.compression
  let hdr : BlockBitmapHeader :=
    { magic := ⟨superMagic, blkBmapMagic, majorRevision, minorRevision⟩
      fragmentsCount := 1
      bytesCount := 0
      flags := blkBmapFlagsOf blkbmap
      type }
  let bmapOffset := blkBmapOffset fragmentsCount
  let areas ← blkAreas layout bytesCount startLogicalBlk.toNat blksCount.toNat
  let bitmap ← setBlkAreas bmapOffset areas (Buf.zero allocationSize)
  let fragHdr : BlockBitmapFragment :=
    { pebIndex := UInt16.ofNat pebIndex
      sequenceId := 0
      flagsAndType := srcBlkBmap
      lastFreeBlk := blksCount.toUInt32
      metadataBlks := 0
      invalidBlks := 0
      chainHdr :=
        { comprBytes := 0
          uncomprBytes := UInt32.ofNat bmapBytes
          fragmentsCount := UInt16.ofNat fragmentsCount
          descSize := UInt16.ofNat fragmentDescSize
          magic := chainHdrMagic
          type := blkBmapChainHdr
          flags := 0 } }
  let st ← Checked.forRange fragmentsCount
    (preCommitFragment crc32 libs blkbmap bitmap bmapOffset bmapBytes allocationSize)
    ⟨Buf.zero allocationSize, bmapOffset, 0, 0⟩
  let writtenBytes := Word.u32 (bmapOffset + st.writtenComprBytes)
  -- the sizes are known only behind the loop
  let buf ← st.buf.put Errno BlockBitmapHeader.wire 0
    { hdr with bytesCount := UInt32.ofNat writtenBytes }
  let buf ← buf.put Errno BlockBitmapFragment.wire blkBmapHdrSize
    { fragHdr with chainHdr.comprBytes := UInt32.ofNat st.writtenComprBytes }
  .ok ⟨buf, writtenBytes, blkbmap.compression⟩

end

end Ssdfs
