import Ssdfs.BlkDesc.Decode
import Ssdfs.Device.LogHeaders
import Ssdfs.Lib.Cursor

namespace Ssdfs

open Memory

inductive ContentState
  | unknown
  | initialized
  | processed
  deriving Repr, DecidableEq

structure RawContentIterator where
  state : ContentState
  portionOffset : Nat
  portionSize : Nat
  fragmentIndex : Int
  fragmentSize : Nat
  itemOffset : Nat
  itemSize : Nat
  deriving Repr, DecidableEq

def createContentIterator : RawContentIterator where
  state := .unknown
  portionOffset := Word.u32Max
  portionSize := 0
  fragmentIndex := -1
  fragmentSize := 0
  itemOffset := Word.u32Max
  itemSize := 0

def contentIteratorIncrement (iter : RawContentIterator) : RawContentIterator × Option Errno :=
  match iter.state with
  | .processed => (iter, some .enodata)
  | .unknown => (iter, some .einval)
  | .initialized =>
    if Word.u32 (iter.itemOffset + iter.itemSize) > iter.fragmentSize then (iter, some .erange)
    else
      let iter := { iter with itemOffset := Word.u32 (iter.itemOffset + iter.itemSize) }
      if iter.itemOffset ≥ iter.fragmentSize then
        ({ iter with state := .processed }, some .enodata)
      else (iter, none)

/-- The block descriptors' area of a log: its place, the position that has been reached in it, the
table of the current portion, the current fragment and the bytes of the area. -/
structure RawAreaEnvironment where
  offset : Nat
  size : Nat
  iter : RawContentIterator
  blkDescHdr : AreaBlockTable
  uncompressed : Option Buf
  buffer : Option Buf

structure AreaDescriptor where
  offset : UInt32
  size : UInt32

def area2bufferSize : Nat := 4096

def createRawBuffer (buf : Option Buf) (bufSize : Nat) : Option Buf :=
  match buf with
  | none => if bufSize = 0 then none else some (Buf.zero bufSize)
  | some b =>
    if bufSize = 0 then none
    else if b.size < bufSize then some (Buf.zero bufSize)
    else some b

def emptyAreaBlockTable : AreaBlockTable where
  chainHdr := ⟨0, 0, 0, 0, 0, 0, 0⟩
  blk _ := ⟨0, 0, 0, 0, 0, 0, 0, 0⟩

def createRawAreaEnvironment (env : RawAreaEnvironment) (areaOffset areaSize rawBufferSize : Nat) :
    RawAreaEnvironment where
  offset := areaOffset
  size := areaSize
  iter := createContentIterator
  blkDescHdr := emptyAreaBlockTable
  uncompressed := createRawBuffer env.uncompressed 0
  buffer := createRawBuffer env.buffer rawBufferSize

def rawSize : Option Buf → Nat
  | none => 0
  | some b => b.size

def prepareRawBuffer (buf : Option Buf) (bufSize : Nat) : Buf :=
  match buf with
  | none => Buf.zero bufSize
  | some b => if bufSize > b.size then Buf.zero bufSize else Buf.zero b.size

structure PebEnvironment where
  id : UInt64
  pebSize : UInt32

def readAreaContent (dev : Buf) (peb : PebEnvironment) (areaOffset size : Nat) (buf : Buf) :
    Mkfs Buf := do
  let offset := Word.u64 (Word.u64 (peb.id.toNat * peb.pebSize.toNat) + areaOffset)
  let bytes ← deviceRead dev offset size
  buf.copy Errno 0 ⟨size, bytes⟩ 0 size

theorem readAreaContent_inside {dev buf : Buf} {peb : PebEnvironment} {areaOffset n : Nat}
    (hn : n ≤ buf.size)
    (hdev : Word.u64 (Word.u64 (peb.id.toNat * peb.pebSize.toNat) + areaOffset) + n ≤ dev.size) :
    ∃ b, readAreaContent dev peb areaOffset n buf = .ok b ∧ b.size = buf.size ∧ ∀ x < n, b.data x =
      dev.data (Word.u64 (Word.u64 (peb.id.toNat * peb.pebSize.toNat) + areaOffset) + x) := by
  unfold readAreaContent
  simp only
  rw [deviceRead_inside hdev, Checked.ok_bind]
  obtain ⟨b, hb, hsize, hbytes, -⟩ := @Buf.copy_ok Errno buf ⟨n, _⟩ 0 0 n (by omega) (by simp)
  refine ⟨b, hb, hsize, fun x hx => ?_⟩
  have hbyte := hbytes x hx
  simp only [Nat.zero_add] at hbyte
  exact hbyte

def prefetchBlkDescTable (dev : Buf) (peb : PebEnvironment) (desc : AreaDescriptor)
    (env : RawAreaEnvironment) : Mkfs RawAreaEnvironment := do
  let areaBuf := prepareRawBuffer env.buffer desc.size.toNat
  let areaBuf ← readAreaContent dev peb desc.offset.toNat desc.size.toNat areaBuf
  .ok { env with buffer := some areaBuf }

def openBlkDescArea (dev : Buf) (peb : PebEnvironment) (desc : AreaDescriptor)
    (env : RawAreaEnvironment) : Mkfs RawAreaEnvironment := do
  let env := createRawAreaEnvironment env desc.offset.toNat desc.size.toNat area2bufferSize
  failIf (env.offset ≥ peb.pebSize.toNat ∨ env.size = 0) .erange
  prefetchBlkDescTable dev peb desc env

def readPortionHeader (buffer : Buf) (offset : Nat) (env : RawAreaEnvironment) :
    Mkfs RawAreaEnvironment := do
  let blkDescHdr ← buffer.get Errno AreaBlockTable.wire offset
  .ok { env with blkDescHdr }

def blkDescChainHdrs : List UInt8 := [0x3, 0x4, 0x5, 0xA, 0xC]
def dataBlkDescCompressed : List UInt8 := [6, 7, 16, 20]

section

variable (crc32 : List UInt8 → UInt32)
  (decompress : UInt8 → Buf → Nat → Nat → Buf → Nat → Mkfs Buf)

/-- `decompress` stands for the decompressors, by the type of the fragment. -/
def uncompressFragment (fragDesc : FragmentDesc) (buffer dst : Buf) : Mkfs Buf :=
  let offset := fragDesc.offset.toNat
  let comprSize := fragDesc.comprSize.toNat
  if fragDesc.type = dataBlkDesc then dst.copy Errno 0 buffer offset comprSize
  else if fragDesc.type ∈ dataBlkDescCompressed then
    decompress fragDesc.type buffer offset comprSize dst fragDesc.uncomprSize.toNat
  else fail .erange

def checkFragmentCsum (fragDesc : FragmentDesc) (dst : Buf) : Mkfs Unit :=
  if fragDesc.flags &&& fragmentHasCsum ≠ 0 then do
    let bytes ← dst.bytes Errno 0 fragDesc.uncomprSize.toNat
    failIf (crc32 bytes ≠ fragDesc.checksum) .eio
  else .ok ()

def copyBlkDescFragment (buffer : Buf) (fragmentIndex : Nat) (env : RawAreaEnvironment) :
    Mkfs RawAreaEnvironment := do
  let chainHdr := env.blkDescHdr.chainHdr
  failIf (chainHdr.magic ≠ chainHdrMagic) .eio
  failIf (chainHdr.type ∉ blkDescChainHdrs) .erange
  if h : fragmentIndex < blkTableMax then do
    let fragDesc := env.blkDescHdr.blk ⟨fragmentIndex, h⟩
    failIf (fragDesc.magic ≠ fragmentDescMagic) .enodata
    failIf (Word.u32 (fragDesc.offset.toNat + fragDesc.comprSize.toNat) > buffer.size) .eio
    let dst := prepareRawBuffer env.uncompressed fragDesc.uncomprSize.toNat
    let dst ← uncompressFragment decompress fragDesc buffer dst
    checkFragmentCsum crc32 fragDesc dst
    .ok { env with
      iter := ⟨.initialized, areaBlockTableSize, chainHdr.uncomprBytes.toNat, fragmentIndex,
        fragDesc.uncomprSize.toNat, 0, blockDescriptorSize⟩
      uncompressed := some dst }
  else fail .erange

def firstValidFragment (buffer : Buf) (env : RawAreaEnvironment) :
    List Nat → Mkfs RawAreaEnvironment
  | [] => fail .enodata
  | i :: is =>
    match copyBlkDescFragment crc32 decompress buffer i env with
    | .error (.code .enodata) => firstValidFragment buffer env is
    | m => m

def extractValidBlkDescFragment (buffer : Buf) (startFragment : Nat) (env : RawAreaEnvironment) :
    Mkfs RawAreaEnvironment := do
  let chainHdr := env.blkDescHdr.chainHdr
  failIf (chainHdr.magic ≠ chainHdrMagic) .eio
  let fragmentsCount := chainHdr.fragmentsCount.toNat
  let fragmentsCount :=
    if fragmentsCount = 0 then fragmentsChainMax else min fragmentsCount fragmentsChainMax
  firstValidFragment crc32 decompress buffer env
    (List.range' startFragment (fragmentsCount - startFragment))

def prepareFirstContentBuffer (env : RawAreaEnvironment) : Mkfs RawAreaEnvironment :=
  match env.buffer with
  | none => fail .erange
  | some buffer => do
    let env ← readPortionHeader buffer 0 env
    extractValidBlkDescFragment crc32 decompress buffer 0 env

def extractNextFragment (buffer : Buf) (startFragment : Nat) (env : RawAreaEnvironment) :
    Mkfs RawAreaEnvironment :=
  match extractValidBlkDescFragment crc32 decompress buffer startFragment env with
  | .error (.code .enodata) => do
    let offset := Word.u32 (env.iter.portionOffset + env.iter.portionSize)
    let env ← readPortionHeader buffer offset env
    extractValidBlkDescFragment crc32 decompress buffer 0 env
  | m => m

def prepareNextContentBuffer (env : RawAreaEnvironment) : Mkfs RawAreaEnvironment :=
  match env.buffer with
  | none => fail .erange
  | some buffer => do
    let chainHdr := env.blkDescHdr.chainHdr
    failIf (chainHdr.magic ≠ chainHdrMagic) .eio
    let fragmentsCount := chainHdr.fragmentsCount.toNat
    let startFragment := (env.iter.fragmentIndex % 65536).toNat
    failIf (startFragment ≥ fragmentsCount) .erange
    let startFragment := Word.u16 (startFragment + 1)
    failIf (startFragment = fragmentsCount) .enodata
    extractNextFragment crc32 decompress buffer startFragment env

def prepareContentBuffer (env : RawAreaEnvironment) : Mkfs RawAreaEnvironment :=
  match env.iter.state with
  | .unknown => prepareFirstContentBuffer crc32 decompress env
  | .initialized => .ok env
  | .processed => prepareNextContentBuffer crc32 decompress env

def takeBlkDesc (env : RawAreaEnvironment) : Mkfs (BlockDescriptor × RawAreaEnvironment) := do
  failIf (env.iter.state ≠ .initialized) .erange
  match env.uncompressed with
  | none => fail .erange
  | some uncompressed => do
    failIf (env.iter.itemSize ≠ blockDescriptorSize) .erange
    failIf (Word.u32 (env.iter.itemOffset + env.iter.itemSize) > uncompressed.size) .erange
    let blkDesc ← uncompressed.get Errno BlockDescriptor.wire env.iter.itemOffset
    .ok (blkDesc, { env with iter := (contentIteratorIncrement env.iter).1 })

def getNextBlkDesc (env : RawAreaEnvironment) : Mkfs (BlockDescriptor × RawAreaEnvironment) := do
  let env ← prepareContentBuffer crc32 decompress env
  takeBlkDesc env

end

end Ssdfs
