import Ssdfs.Lib.Report
import Ssdfs.OffTable.Format
import Ssdfs.Recover.BlkDesc

namespace Ssdfs

open Memory

def segHdrDescMax : Nat := 9

instance : NeZero segHdrDescMax := ⟨by decide⟩

def coldPayloadAreaIndex : Fin segHdrDescMax := 3
def warmPayloadAreaIndex : Fin segHdrDescMax := 4
def hotPayloadAreaIndex : Fin segHdrDescMax := 5
def blkDescAreaIndex : Fin segHdrDescMax := 6
def logFooterIndex : Fin segHdrDescMax := 8

structure RawDump where
  desc : Fin segHdrDescMax → RawAreaEnvironment
  content : Option Buf

def RawDump.setArea (dump : RawDump) (i : Fin segHdrDescMax) (env : RawAreaEnvironment) : RawDump :=
  { dump with desc := Function.update dump.desc i env }

@[simp] theorem RawDump.setArea_desc (dump : RawDump) (i : Fin segHdrDescMax)
    (env : RawAreaEnvironment) : (dump.setArea i env).desc i = env := Function.update_self ..

theorem RawDump.setArea_desc_of_ne {dump : RawDump} {i j : Fin segHdrDescMax} {env : RawAreaEnvironment}
    (h : j ≠ i) : (dump.setArea i env).desc j = dump.desc j := Function.update_of_ne h ..

def logDiffsArea : UInt8 := 2

def areaType2index (type : UInt8) : Mkfs (Fin segHdrDescMax) :=
  if type = logBlkDescArea then .ok blkDescAreaIndex
  else if type = logMainArea then .ok coldPayloadAreaIndex
  else if type = logDiffsArea then .ok warmPayloadAreaIndex
  else if type = logJournalArea then .ok hotPayloadAreaIndex
  else .error .abort

def isPagesizeValid (pagesize : Nat) : Bool :=
  pagesize ∈ [4096, 8192, 16384, 32768, 65536, 131072]

structure BlockStateDescriptor where
  cno : UInt64
  parentSnapshot : UInt64
  chainHdr : FragmentsChainHeader

def BlockStateDescriptor.wire : Wire BlockStateDescriptor :=
  (Wire.u64.pair <| Wire.u64.pair FragmentsChainHeader.wire).iso
    (fun (a, b, c) => ⟨a, b, c⟩) (fun d => (d.cno, d.parentSnapshot, d.chainHdr)) fun _ => rfl

@[simp] theorem BlockStateDescriptor.wire_size : BlockStateDescriptor.wire.size = 32 := rfl

def blockFragDesc (fragmentIndex : Nat) : Nat :=
  BlockStateDescriptor.wire.size + fragmentIndex * FragmentDesc.wire.size

def fragmentComprBlobs : List UInt8 := [2, 3, 15, 19]

def blkFragmentSize : Nat := 4096

section

variable (dev : Buf) (peb : PebEnvironment) (pageSize : Nat)

def readRawBlockState (blkState : BlkStateOffset) (dump : RawDump) : Mkfs (Report Errno RawDump) := do
  let areaIndex ← areaType2index blkState.logArea
  let areaEnv := dump.desc areaIndex
  let offset := Word.u64 (areaEnv.offset + blkState.byteOffset.toNat)
  if areaEnv.offset ≥ Word.u64Max ∨ offset ≥ Word.u64 (areaEnv.offset + areaEnv.size) then
    .ok (some .erange, dump)
  else do
    Checked.bugOn Errno (offset ≥ Word.u32Max)
    if isPagesizeValid pageSize then
      let areaBuf := prepareRawBuffer areaEnv.buffer pageSize
      let dump := dump.setArea areaIndex { areaEnv with buffer := some areaBuf }
      Report.attempt (readAreaContent dev peb offset pageSize areaBuf) dump fun areaBuf =>
        .ok (none, dump.setArea areaIndex { areaEnv with buffer := some areaBuf })
    else .ok (some .erange, dump)

end

section

variable (crc32 : List UInt8 → UInt32)
  (decompress : UInt8 → Buf → Nat → Nat → Buf → Nat → Mkfs Buf) (pageSize : Nat)

/-- The descriptor of a fragment, unless the block has no such fragment. -/
def findBlockFragment (blkState : BlkStateOffset) (fragmentIndex : Nat) (comprContent : Buf) :
    Mkfs (Option FragmentDesc) := do
  let blkStateDesc ← comprContent.get Errno BlockStateDescriptor.wire 0
  let chainHdr := blkStateDesc.chainHdr
  failIf (chainHdr.magic ≠ chainHdrMagic) .eio
  if fragmentIndex ≥ chainHdr.fragmentsCount.toNat then .ok none
  else do
    let fragDesc ← comprContent.get Errno FragmentDesc.wire (blockFragDesc fragmentIndex)
    failIf (fragDesc.magic ≠ fragmentDescMagic) .enodata
    failIf (fragDesc.offset < blkState.byteOffset) .eio
    let srcOffset := fragDesc.offset.toNat - blkState.byteOffset.toNat
    failIf (fragDesc.comprSize.toNat > blkFragmentSize) .eio
    failIf (fragDesc.uncomprSize.toNat > blkFragmentSize) .eio
    failIf (Word.u32 (srcOffset + fragDesc.comprSize.toNat) > comprContent.size) .eio
    .ok (some fragDesc)

def uncompressBlockFragment (blkState : BlkStateOffset) (fragDesc : FragmentDesc)
    (comprContent uncomprContent : Buf) : Mkfs Buf :=
  let srcOffset := fragDesc.offset.toNat - blkState.byteOffset.toNat
  let uncomprSize := fragDesc.uncomprSize.toNat
  if fragDesc.type = fragmentUncomprBlob then
    uncomprContent.copy Errno 0 comprContent srcOffset uncomprSize
  else if fragDesc.type ∈ fragmentComprBlobs then
    decompress fragDesc.type comprContent srcOffset fragDesc.comprSize.toNat uncomprContent uncomprSize
  else fail .eio

def checkBlockFragmentCsum (fragDesc : FragmentDesc) (comprContent uncomprContent : Buf) :
    Mkfs Unit := do
  let firstDesc ← comprContent.get Errno FragmentDesc.wire (blockFragDesc 0)
  if firstDesc.flags &&& fragmentHasCsum ≠ 0 then do
    let bytes ← uncomprContent.bytes Errno 0 fragDesc.uncomprSize.toNat
    failIf (crc32 bytes ≠ firstDesc.checksum) .eio
  else .ok ()

def copyBlockFragment (fragmentIndex : Nat) (uncomprContent : Buf) (dump : RawDump) :
    Mkfs (Report Errno RawDump) := do
  let dstOffset := fragmentIndex * blkFragmentSize
  Checked.bugOn Errno (dstOffset ≥ Word.u32Max)
  match dump.content with
  | none => .error .abort
  | some content => do
    let content ← content.copy Errno dstOffset uncomprContent 0 blkFragmentSize
    .ok (none, { dump with content := some content })

def parseBlockFragment (blkState : BlkStateOffset) (fragmentIndex : Nat) (dump : RawDump) :
    Mkfs (Report Errno RawDump) :=
  if isPagesizeValid pageSize then do
    let areaIndex ← areaType2index blkState.logArea
    let areaEnv := dump.desc areaIndex
    match areaEnv.buffer with
    | none => .error .trap
    | some comprContent =>
      Report.attempt (findBlockFragment blkState fragmentIndex comprContent) dump fun
        | none => .ok (none, dump)
        | some fragDesc =>
          let uncomprContent := prepareRawBuffer areaEnv.uncompressed blkFragmentSize
          let dump := dump.setArea areaIndex { areaEnv with uncompressed := some uncomprContent }
          Report.attempt (uncompressBlockFragment decompress blkState fragDesc comprContent
              uncomprContent) dump fun uncomprContent =>
            let dump := dump.setArea areaIndex { areaEnv with uncompressed := some uncomprContent }
            Report.attempt (checkBlockFragmentCsum crc32 fragDesc comprContent uncomprContent) dump
              fun _ => copyBlockFragment fragmentIndex uncomprContent dump
  else .ok (some .erange, dump)

def copyMainBlock (comprContent : Option Buf) (dump : RawDump) : Mkfs (Report Errno RawDump) :=
  match comprContent, dump.content with
  | some comprContent, some content => do
    let content ← content.copy Errno 0 comprContent 0 pageSize
    .ok (none, { dump with content := some content })
  | _, _ => .error .abort

def parseAndDecompressBlockState (blkState : BlkStateOffset) (dump : RawDump) :
    Mkfs (Report Errno RawDump) := do
  let areaIndex ← areaType2index blkState.logArea
  if isPagesizeValid pageSize then
    let dump := { dump with content := some (prepareRawBuffer dump.content pageSize) }
    if blkState.logArea = logMainArea then
      copyMainBlock pageSize (dump.desc areaIndex).buffer dump
    else if blkState.logArea = logDiffsArea ∨ blkState.logArea = logJournalArea then
      let fragmentsPerBlock := pageSize / blkFragmentSize
      if fragmentsPerBlock = 0 then .ok (some .erange, dump)
      else
        Report.each (parseBlockFragment crc32 decompress pageSize blkState)
          (List.range fragmentsPerBlock) dump
    else .ok (some .erange, dump)
  else .ok (some .erange, dump)

end

section

variable (crc32 : List UInt8 → UInt32)
  (decompress : UInt8 → Buf → Nat → Nat → Buf → Nat → Mkfs Buf) (dev : Buf) (peb : PebEnvironment)
  (pageSize : Nat)

/-- The deltas that may follow the first state of a block are not supported. -/
def readBlockState (index : Nat) (blkState : BlkStateOffset) (dump : RawDump) :
    Mkfs (Report Errno RawDump) :=
  if index = 0 then
    Report.andThen (readRawBlockState dev peb pageSize blkState dump)
      (parseAndDecompressBlockState crc32 decompress pageSize blkState)
  else .ok (some .eopnotsupp, dump)

def isBlkStateInvalid (blkState : BlkStateOffset) : Bool :=
  blkState.logStartPage.toNat ≥ Word.u16Max || blkState.logArea.toNat ≥ 255 ||
    blkState.pebMigrationId.toNat ≥ 255 || blkState.byteOffset.toNat ≥ Word.u32Max

def extractBlockStates (blkDesc : BlockDescriptor) :
    List (Fin blkStateOffMax) → Option Errno → RawDump → Mkfs (Report Errno RawDump)
  | [], err, dump => .ok (err, dump)
  | i :: is, err, dump =>
    if isBlkStateInvalid (blkDesc.state i) then .ok (err, dump)
    else
      Report.andThen (readBlockState crc32 decompress dev peb pageSize i (blkDesc.state i) dump)
        (extractBlockStates blkDesc is none)

def extractBlockState (blkDesc : BlockDescriptor) (dump : RawDump) : Mkfs (Report Errno RawDump) :=
  extractBlockStates crc32 decompress dev peb pageSize blkDesc (List.finRange blkStateOffMax)
    (some .enodata) dump

end

end Ssdfs
