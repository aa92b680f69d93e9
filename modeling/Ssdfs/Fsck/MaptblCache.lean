import Ssdfs.Fsck.SbChain

namespace Ssdfs

open Memory

inductive CacheCompression
  | zlib
  | lzo
  | lz4
  | zstd
  deriving Repr, DecidableEq

def CacheCompression.of (flags : UInt16) : Option CacheCompression :=
  if flags &&& 1 ≠ 0 then some zlib
  else if flags &&& 2 ≠ 0 then some lzo
  else if flags &&& 4 ≠ 0 then some lz4
  else if flags &&& 8 ≠ 0 then some zstd
  else none

structure FoundCache where
  hdr : MaptblCacheRecord
  data : Buf
  bytesCount : Nat

def isSsdfsFsckAreaValid (desc : MetadataDescriptorRecord) : Bool :=
  desc.size ≠ 0 ∧ desc.size ≠ 0xFFFFFFFF ∧ desc.offset ≠ 0 ∧ desc.offset ≠ 0xFFFFFFFF

section

variable (read : Nat → Nat → Search Bytes) (decompress : CacheCompression → Buf → Nat → Nat → Search Buf)

def readMappingTableCache (pebId pebSize : Nat) (desc : MetadataDescriptorRecord) : Search Buf := do
  let content ← read (Word.u64 (Word.u64 (pebId * pebSize) + desc.offset.toNat)) desc.size.toNat
  .ok ⟨desc.size.toNat, content⟩

def uncompressCache (hdr : MaptblCacheRecord) (area : Buf) (uncomprSize : Nat) : Search (Buf × Nat) :=
  let data : Buf := ⟨area.size - maptblCacheHdrSize, fun i => area.data (maptblCacheHdrSize + i)⟩
  match CacheCompression.of hdr.flags with
  | some compression => do
    let uncomprData ← decompress compression data area.size uncomprSize
    .ok (uncomprData, uncomprSize)
  | none => do
    let bytesCount := area.size - maptblCacheHdrSize
    let uncomprData ← (Buf.zero uncomprSize).copy SearchResult 0 area maptblCacheHdrSize bytesCount
    .ok (uncomprData, bytesCount)

def isMappingTableCacheFound (eraseSize : Nat) (sbSegsFound : Bool) (known : Option FoundCache)
    (log : FoundLog) : Search FoundCache :=
  if ¬sbSegsFound then Search.failure
  else
    let desc := MetadataDescriptorRecord.wire.read log.header (SegHdr.descOffset .maptblCache)
    if ¬isSsdfsFsckAreaValid desc then Search.notFound
    else do
      Search.bugOn known.isSome
      let area ← readMappingTableCache read log.pebId eraseSize desc
      let hdr ← area.get SearchResult MaptblCacheRecord.wire 0
      let uncomprSize := hdr.bytesCount.toNat
      if uncomprSize < area.size then Search.notFound
      else do
        let (data, bytesCount) ← uncompressCache decompress hdr area uncomprSize
        .ok ⟨hdr, data, bytesCount⟩

end

/-- Looks at the items from `i` on; the bytes behind `bytesCount` are not looked at. -/
def findCachedLeb (data : Buf) (bytesCount lebId : Nat) : Nat → Nat → Nat → Search Nat
  | 0, _, _ => .ok Word.u64Max
  | rest + 1, i, processedBytes => do
    let curLebId ← data.load SearchResult 8 (16 * i)
    let processedBytes := Word.u16 (processedBytes + 8)
    if processedBytes ≥ bytesCount then .ok Word.u64Max
    else do
      let curPebId ← data.load SearchResult 8 (16 * i + 8)
      if curLebId = lebId then .ok curPebId
      else
        let processedBytes := Word.u16 (processedBytes + 8)
        if processedBytes ≥ bytesCount then .ok Word.u64Max
        else findCachedLeb data bytesCount lebId rest (i + 1) processedBytes

/-- `SSDFS_FSCK_SEARCH_RESULT_FAILURE`, which the conversion returns as if it were a PEB. -/
def searchResultFailure : Nat := 3

/-- The first and the last LEB of the header are taken as 16 bits. -/
def maptblCacheConvertLeb2peb (cache : Option FoundCache) (lebId : Nat) : Search Nat :=
  match cache with
  | none => .ok searchResultFailure
  | some cache =>
    let bytesCount := cache.hdr.bytesCount.toNat
    let startLeb := Word.u16 cache.hdr.startLeb.toNat
    let endLeb := Word.u16 cache.hdr.endLeb.toNat
    if lebId < startLeb ∨ lebId > endLeb then .ok Word.u64Max
    else if bytesCount < 8 then .ok Word.u64Max
    else findCachedLeb cache.data bytesCount lebId cache.hdr.itemsCount.toNat 0 0

end Ssdfs
