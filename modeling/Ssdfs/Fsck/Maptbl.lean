import Ssdfs.Fsck.LogPairs
import Ssdfs.MaptblSb.Header

namespace Ssdfs

/-- How a search ends that does not succeed. -/
inductive SearchResult
  | notFound
  | failure
  deriving Repr, DecidableEq

abbrev Search (α : Type) := Checked SearchResult α

namespace Search

def notFound {α : Type} : Search α := .error (.code .notFound)

def failure {α : Type} : Search α := .error (.code .failure)

def bugOn (c : Prop) [Decidable c] : Search Unit := Checked.bugOn SearchResult c

def quot (a b : Nat) : Search Nat := Checked.quot SearchResult a b

/-- Goes on where nothing was found. -/
def orNotFound (m : Search Unit) : Search Unit :=
  match m with
  | .error (.code .notFound) => .ok ()
  | m => m

end Search

structure FsckEnvironment where
  segSize : UInt32
  fsSize : UInt64
  eraseSize : UInt32
  sbSegsFound : Bool

/-- The cache of the mapping table and the reads of the volume. -/
structure FsckDevice where
  convertLeb2peb : Nat → Nat
  findMetadataSegment : Nat → Search Unit
  findLastFullLog : Nat → Search Unit
  findLastPartialLog : Nat → Search Unit

def MaptblSeg.copyIndex : MaptblSeg → Nat
  | .main => mainLog
  | .copy => copyLog

/-- `visited` is the trace of the segments that have been looked for. -/
structure MaptblDetection where
  segsCount : Nat
  foundSegs : Nat
  extentsCount : Nat
  array : LogsArray
  visited : List (MaptblSeg × Nat)

section

variable (env : FsckEnvironment) (dev : FsckDevice) (hdr : MaptblSbHeader)

def fsckLebsPerSeg : Search Nat := do
  let lebsPerSeg ← Search.quot env.segSize.toNat env.eraseSize.toNat
  Search.bugOn (lebsPerSeg = 0)
  .ok lebsPerSeg

/-- The segments and the extents that have been counted. An invalid extent is skipped only behind
a valid one. -/
def countExtent (lebsPerSeg : Nat) (extent : MetaAreaExtent) (counts : Nat × Nat) :
    Search (Nat × Nat) :=
  let (segsCount, extentsCount) := counts
  if extent.type = emptyExtentType then .ok counts
  else if extent.type = segExtentType then
    .ok (Word.u16 (segsCount + extent.len.toNat), Word.u32 (extentsCount + 1))
  else if extent.type = pebExtentType then do
    Search.bugOn (extent.len.toNat % lebsPerSeg ≠ 0)
    .ok (Word.u16 (segsCount + extent.len.toNat / lebsPerSeg), Word.u32 (extentsCount + 1))
  else if extent.type = blkExtentType then Search.notFound
  else if extentsCount > 0 then .ok counts
  else Search.notFound

def MaptblSbHeader.slots : List MetaAreaExtent :=
  (List.range maptblReservedExtents).flatMap fun i => [hdr.extents .main i, hdr.extents .copy i]

def allocateMaptblLogsArray : Search MaptblDetection := do
  if ¬env.sbSegsFound then Search.failure
  else do
    let lebsPerSeg ← fsckLebsPerSeg env
    let (segsCount, extentsCount) ← Checked.forEach (countExtent lebsPerSeg) hdr.slots (0, 0)
    let volumeSegs ← Search.quot env.fsSize.toNat env.segSize.toNat
    let threshold := Word.u64 (volumeSegs * 25) / 100
    if segsCount = 0 ∨ segsCount > threshold then Search.notFound
    else if extentsCount = 0 ∨ extentsCount > maptblReservedExtents then Search.notFound
    else do
      let lebsCount := Word.u32 (segsCount * lebsPerSeg)
      Search.bugOn (lebsCount = 0)
      Search.bugOn (lebsCount > Word.u64 (threshold * lebsPerSeg))
      .ok ⟨segsCount, 0, extentsCount, LogsArray.allocate lebsCount, []⟩

/-- A log search that finds nothing is no failure. -/
def findMaptblLogs (pebId : Nat) : Search Unit := do
  dev.findMetadataSegment pebId
  Search.orNotFound (dev.findLastFullLog pebId)
  Search.orNotFound (dev.findLastPartialLog pebId)

def findMaptblPeb (chain : MaptblSeg) (lebId : Nat) (st : MaptblDetection) : Search MaptblDetection :=
  if lebId ≥ Word.u64Max then Search.notFound
  else
    let pebId := dev.convertLeb2peb lebId
    if pebId ≥ Word.u64Max then Search.notFound
    else do
      findMaptblLogs dev pebId
      .ok { st with array := st.array.store chain.copyIndex pebId }

def findMaptblSegment (chain : MaptblSeg) (segId : Nat) (st : MaptblDetection) :
    Search MaptblDetection :=
  if segId ≥ Word.u64Max then Search.notFound
  else do
    let lebsPerSeg ← fsckLebsPerSeg env
    let startLebId := Word.u64 (segId * lebsPerSeg)
    Checked.forRange lebsPerSeg (fun i (st : MaptblDetection) =>
      let pebId := dev.convertLeb2peb (Word.u64 (startLebId + i))
      if pebId ≥ Word.u64Max then Search.notFound
      else do
        findMaptblLogs dev pebId
        .ok { st with array := st.array.store chain.copyIndex pebId })
      { st with visited := st.visited ++ [(chain, segId)] }

def findExtentItems (chain : MaptblSeg) (extent : MetaAreaExtent) (st : MaptblDetection) :
    Search MaptblDetection := do
  let startId := extent.startId.toNat
  let len := extent.len.toNat
  if extent.type = segExtentType then do
    let st ← Checked.forRange len (fun i => findMaptblSegment env dev chain (Word.u64 (startId + i))) st
    .ok { st with foundSegs := Word.u32 (st.foundSegs + len) }
  else do
    let lebsPerSeg ← fsckLebsPerSeg env
    let st ← Checked.forRange len (fun i => findMaptblPeb dev chain (Word.u64 (startId + i))) st
    Search.bugOn (len % lebsPerSeg ≠ 0)
    .ok { st with foundSegs := Word.u32 (st.foundSegs + len / lebsPerSeg) }

def isItemsExtent (extent : MetaAreaExtent) : Bool :=
  extent.type = segExtentType ∨ extent.type = pebExtentType

def findMaptblExtent (extentIndex : Nat) (st : MaptblDetection) : Search MaptblDetection := do
  let _ ← fsckLebsPerSeg env
  if extentIndex ≥ maptblReservedExtents then Search.failure
  else do
    let extent := hdr.extents .main extentIndex
    if ¬isItemsExtent extent then Search.notFound
    else do
      let st ← findExtentItems env dev .main extent st
      let extent := hdr.extents .copy extentIndex
      if isItemsExtent extent then findExtentItems env dev .copy extent st
      else if extent.type = blkExtentType ∨ hdr.flags &&& maptblHasCopy ≠ 0 then Search.notFound
      else .ok st

def isMappingTableFound : Search MaptblDetection := do
  let st ← allocateMaptblLogsArray env hdr
  if st.extentsCount = 0 ∨ st.extentsCount > maptblReservedExtents then Search.failure
  else Checked.forRange st.extentsCount (findMaptblExtent env dev hdr) st

end

end Ssdfs
