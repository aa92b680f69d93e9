import Ssdfs.Write.Placed

/-! Placing the extents of a log one by one, and counting the pages of the log. -/

namespace Ssdfs

def segmentHeaderSize : Nat := 2048
def reservedVbrSize : Nat := 1024

def ExtentIndex.rank : ExtentIndex → Nat
  | .segHeader => 0
  | .blockBitmap => 1
  | .offsetTable => 2
  | .blockDescriptors => 3
  | .maptblCache => 4
  | .logPayload => 5
  | .logFooter => 6
  | .blockBitmapBackup => 7
  | .offsetTableBackup => 8

namespace PebContent

def size (peb : PebContent) (k : ExtentIndex) : Nat := (peb.extents k).bytesCount.toNat

def setOffset (peb : PebContent) (k : ExtentIndex) (offset : Nat) : PebContent :=
  { peb with extents :=
      Function.update peb.extents k { peb.extents k with offset := UInt32.ofNat offset } }

def setSize (peb : PebContent) (k : ExtentIndex) (bytesCount : UInt32) : PebContent :=
  { peb with extents := Function.update peb.extents k { peb.extents k with bytesCount } }

def blank (lebId pebId : Nat) : PebContent := ⟨lebId, pebId, fun _ => ⟨none, 0, 0⟩⟩

end PebContent

/-- The segments of the initial snapshot and of the superblock are laid out in pages of 4 KiB. -/
def logPageSize (layout : VolumeLayout) : SegType → Nat
  | .sb | .initialSnapshot => pageCacheSize
  | _ => layout.pageSize.bytes

def roundUp32 (pageSize offset : Nat) : Nat :=
  Word.u32 (offset + (pageSize - 1)) / pageSize * pageSize

/-- The offset of an extent behind the header at `header`, if the extents have the given
sizes. -/
def startOffset (pageSize header : Nat) (size : ExtentIndex → Nat) (k : ExtentIndex) : Nat :=
  let inlineCapacity := pageSize - segmentHeaderSize
  let i := k.rank
  let offset := header
  let offset := if i ≥ 4 then Word.u32 (offset + size .blockDescriptors) else offset
  let offset := if i ≥ 3 then Word.u32 (offset + size .offsetTable) else offset
  let offset := if i ≥ 2 then Word.u32 (offset + size .blockBitmap) else offset
  let offset := if i ≥ 1 then Word.u32 (offset + size .segHeader) else offset
  if i < 4 then offset
  else
    let offset := roundUp32 pageSize offset
    let offset :=
      if i ≥ 6 then roundUp32 pageSize (Word.u32 (offset + size .logPayload)) else offset
    let offset :=
      if i ≥ 5 then
        roundUp32 pageSize
          (if size .maptblCache > inlineCapacity then Word.u32 (offset + size .maptblCache)
          else offset)
      else offset
    if i < 7 then offset
    else
      let offset := if i ≥ 8 then Word.u32 (offset + size .blockBitmapBackup) else offset
      roundUp32 pageSize (Word.u32 (offset + size .logFooter))

def setExtentStartOffset (layout : VolumeLayout) (segType : SegType) (peb : PebContent)
    (k : ExtentIndex) : PebContent :=
  peb.setOffset k (startOffset (logPageSize layout segType) (peb.start .segHeader) peb.size k)

def logBytesCount (pageSize : Nat) (size : ExtentIndex → Nat) : Nat :=
  let inlineCapacity := pageSize - segmentHeaderSize
  let bytesCount := Word.u32 (size .segHeader + size .blockBitmap)
  let bytesCount := Word.u32 (bytesCount + size .offsetTable)
  let bytesCount := Word.u32 (bytesCount + size .blockDescriptors)
  let bytesCount :=
    if size .maptblCache > inlineCapacity then roundUp32 pageSize bytesCount else bytesCount
  let bytesCount := roundUp32 pageSize (Word.u32 (bytesCount + size .maptblCache))
  let bytesCount := roundUp32 pageSize (Word.u32 (bytesCount + size .logPayload))
  let bytesCount := Word.u32 (bytesCount + size .logFooter)
  let bytesCount := Word.u32 (bytesCount + size .blockBitmapBackup)
  roundUp32 pageSize (Word.u32 (bytesCount + size .offsetTableBackup))

def calculateLogPages (layout : VolumeLayout) (segType : SegType) (peb : PebContent) :
    Mkfs Nat := do
  let pageSize := logPageSize layout segType
  let bytesCount := logBytesCount pageSize peb.size
  bugOn (bytesCount > layout.env.eraseSize.toNat)
  .ok (bytesCount / pageSize)

def placeExtent (layout : VolumeLayout) (segType : SegType) (sizes : ExtentIndex → UInt32)
    (peb : PebContent) (k : ExtentIndex) : PebContent :=
  (setExtentStartOffset layout segType peb k).setSize k (sizes k)

def tableItems (blkbmapBackup blk2offBackup : Bool) : List ExtentIndex :=
  [.segHeader, .blockBitmap, .offsetTable, .blockDescriptors, .logPayload, .logFooter] ++
    (if blkbmapBackup then [.blockBitmapBackup] else []) ++
    (if blk2offBackup then [.offsetTableBackup] else [])

def segbmapMkfsDefineLayout (layout : VolumeLayout) (blkbmapBackup blk2offBackup : Bool)
    (sizes : ExtentIndex → UInt32) (peb : PebContent) : PebContent :=
  (tableItems blkbmapBackup blk2offBackup).foldl (placeExtent layout .segbmap sizes) peb

def maptblMkfsDefineLayout (layout : VolumeLayout) (blkbmapBackup blk2offBackup : Bool)
    (sizes : ExtentIndex → UInt32) (peb : PebContent) : PebContent :=
  (tableItems blkbmapBackup blk2offBackup).foldl (placeExtent layout .maptbl sizes) peb

def sbMkfsDefineLayout (layout : VolumeLayout) (sizes : ExtentIndex → UInt32) (peb : PebContent) :
    PebContent :=
  let inlineCapacity := layout.pageSize.bytes - segmentHeaderSize
  let peb := placeExtent layout .sb sizes peb .segHeader
  let peb := placeExtent layout .sb sizes peb .maptblCache
  let peb :=
    if peb.size .maptblCache ≤ inlineCapacity then
      peb.setOffset .maptblCache (Word.u32 (peb.finish .segHeader))
    else peb
  placeExtent layout .sb sizes peb .logFooter

def snapMkfsDefineLayout (layout : VolumeLayout) (sizes : ExtentIndex → UInt32)
    (peb : PebContent) : PebContent :=
  let peb := setExtentStartOffset layout .initialSnapshot peb .segHeader
  let peb := peb.setOffset .segHeader (Word.u32 (peb.start .segHeader + reservedVbrSize))
  let peb := peb.setSize .segHeader (sizes .segHeader)
  placeExtent layout .initialSnapshot sizes peb .logFooter

def defineLayout (layout : VolumeLayout) (blkbmapBackup blk2offBackup : Bool)
    (metaIndex : MetaIndex) (sizes : ExtentIndex → UInt32) (peb : PebContent) : PebContent :=
  match metaIndex with
  | .initialSnapshot => snapMkfsDefineLayout layout sizes peb
  | .superblock => sbMkfsDefineLayout layout sizes peb
  | .segbmap => segbmapMkfsDefineLayout layout blkbmapBackup blk2offBackup sizes peb
  | .pebMappingTable => maptblMkfsDefineLayout layout blkbmapBackup blk2offBackup sizes peb
  | .userData => peb

end Ssdfs
