import Ssdfs.Fsck.Maptbl
import Ssdfs.HandOut.SbHeader

namespace Ssdfs

structure SegbmapDetection where
  segsCount : Nat
  segbmapSbHdr : SegbmapSbHeader
  array : LogsArray

section

variable (env : FsckEnvironment) (dev : FsckDevice) (hdr : SegbmapSbHeader)

def allocateSegbmapLogsArray : Search SegbmapDetection := do
  if ¬env.sbSegsFound then Search.failure
  else if hdr.segsCount = 0 ∨ hdr.segsCount > segbmapSegsMax then Search.notFound
  else do
    let lebsPerSeg ← fsckLebsPerSeg env
    let lebsCount := Word.u32 (hdr.segsCount * lebsPerSeg)
    Search.bugOn (lebsCount = 0)
    Search.bugOn (lebsCount > Word.u32 (segbmapSegsMax * lebsPerSeg))
    .ok ⟨hdr.segsCount, hdr, LogsArray.allocate lebsCount⟩

def findSegbmapPeb (pebId : Nat) : Search Unit := findMaptblLogs dev pebId

/-- One LEB, with the fragments before it. Behind the last fragment nothing is left to do. -/
def findSegbmapLeb (fragmentsPerSeg fragmentsPerPeb startLebId copyIndex i : Nat)
    (st : Nat × SegbmapDetection) : Search (Nat × SegbmapDetection) :=
  let (processedFragments, segbmap) := st
  if processedFragments ≥ fragmentsPerSeg then .ok st
  else
    let pebId := dev.convertLeb2peb (Word.u64 (startLebId + i))
    if pebId ≥ Word.u64Max then Search.notFound
    else do
      findSegbmapPeb dev pebId
      .ok (Word.u16 (processedFragments + fragmentsPerPeb),
        { segbmap with array := segbmap.array.store copyIndex pebId })

/-- The segment of one chain. Without a copy nothing is looked for in its place. -/
def findSegbmapChainSegment (segIndex copyIndex : Nat) (segbmap : SegbmapDetection) :
    Search SegbmapDetection :=
  let hdr := segbmap.segbmapSbHdr
  if segbmap.segsCount = 0 ∨ segbmap.segsCount > segbmapSegsMax then Search.failure
  else if segIndex ≥ segbmap.segsCount then Search.failure
  else if copyIndex ≥ logsNumberMax then Search.failure
  else if copyIndex = copyLog ∧ ¬hdr.hasCopy then .ok segbmap
  else
    let segId := hdr.segs segIndex copyIndex
    if segId ≥ Word.u64Max then Search.notFound
    else if hdr.fragmentsPerSeg = 0 ∨ hdr.fragmentsPerSeg ≥ ushrtMax then Search.notFound
    else if hdr.fragmentsPerPeb = 0 ∨ hdr.fragmentsPerPeb ≥ ushrtMax then Search.notFound
    else do
      let lebsPerSeg ← fsckLebsPerSeg env
      if hdr.fragmentsPerSeg % hdr.fragmentsPerPeb ≠ 0 ∨
          hdr.fragmentsPerSeg / hdr.fragmentsPerPeb > lebsPerSeg then Search.notFound
      else do
        let startLebId := Word.u64 (segId * lebsPerSeg)
        let (_, segbmap) ← Checked.forRange lebsPerSeg
          (findSegbmapLeb dev hdr.fragmentsPerSeg hdr.fragmentsPerPeb startLebId copyIndex) (0, segbmap)
        .ok segbmap

def findSegbmapSegment (segIndex : Nat) (segbmap : SegbmapDetection) : Search SegbmapDetection := do
  let segbmap ← findSegbmapChainSegment env dev segIndex mainLog segbmap
  let segbmap ← findSegbmapChainSegment env dev segIndex copyLog segbmap
  .ok { segbmap with array := segbmap.array.countPair }

/-- The search of `is_segment_bitmap_found`, with the logs that it stores. -/
def isSegmentBitmapLogsFound : Search SegbmapDetection := do
  let segbmap ← allocateSegbmapLogsArray env hdr
  if segbmap.segsCount = 0 ∨ segbmap.segsCount ≥ Word.u32Max then Search.failure
  else Checked.forRange segbmap.segsCount (findSegbmapSegment env dev) segbmap

end

end Ssdfs
