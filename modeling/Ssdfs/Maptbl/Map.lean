import Ssdfs.Lib.Bitmap
import Ssdfs.Maptbl.Lookup
import Ssdfs.MaptblCache.Cache

/-! Mapping the LEBs of the metadata segments to PEBs. -/

namespace Ssdfs

def bitsPerLong : Nat := 64

def Tables.lebFragment (t : Tables) (slot : LebtblSlot) : LebTableFragment :=
  (t slot.fragmentIndex slot.portionIndex).lebtbl slot.mempageIndex

def getPebtblFragment (layout : VolumeLayout) (t : Tables)
    (fragmentIndex portionIndex stripeIndex : Nat) : Mkfs PebTableFragment :=
  if stripeIndex < layout.maptbl.stripesPerPortion then
    .ok ((t fragmentIndex portionIndex).pebtbl stripeIndex)
  else .error .stray

def findUnusedPeb (hdr : PebTableFragment) : Nat :=
  let pebIndex := Bitmap.firstClear bitsPerLong hdr.usedBmap hdr.pebsCount
  if pebIndex ≥ hdr.pebsCount then Word.u16Max else pebIndex

/-- The PEB type of a segment that may not belong to any metadata structure. -/
def metaPebType (metaIndex : Option MetaIndex) : PebType :=
  match metaIndex with
  | some metaIndex => seg2pebType (meta2segType metaIndex)
  | none => seg2pebType .unknown

def checkPebtbl (hdr : PebTableFragment) (pebIndex : Nat) : Mkfs Unit := do
  bugOn (hdr.magic ≠ pebTableMagic)
  bugOn (hdr.lastSelectedPeb ≥ hdr.pebsCount)
  bugOn (pebIndex ≥ hdr.pebsCount)
  bugOn (hdr.bytesCount ≠ pebTableFragmentHeaderSize + hdr.pebsCount * pebDescriptorSize)
  bugOn ((hdr.desc pebIndex).state ≠ .unknown)
  bugOn ((hdr.desc pebIndex).type ≠ .unknown)

def PebTableFragment.setDesc (hdr : PebTableFragment) (pebIndex : Nat) (type : PebType)
    (state : PebState) : PebTableFragment :=
  { hdr with desc := Function.update hdr.desc pebIndex { hdr.desc pebIndex with type, state } }

def PebTableFragment.use (hdr : PebTableFragment) (pebIndex : Nat) (type : PebType) :
    PebTableFragment :=
  { hdr.setDesc pebIndex type .using with
    usedBmap := Function.update hdr.usedBmap pebIndex true }

def PebTableFragment.preErase (hdr : PebTableFragment) (pebIndex : Nat) : PebTableFragment :=
  { hdr.setDesc pebIndex .unknown .preErase with
    dirtyBmap := Function.update hdr.dirtyBmap pebIndex true }

def definePebAsUsed (pebIndex : Nat) (metaIndex : Option MetaIndex) (hdr : PebTableFragment) :
    Mkfs PebTableFragment := do
  bugOn (metaPebType metaIndex = .unknown ∨ metaPebType metaIndex = .max)
  checkPebtbl hdr pebIndex
  .ok (hdr.use pebIndex (metaPebType metaIndex))

def definePebAsPreErased (pebIndex : Nat) (hdr : PebTableFragment) : Mkfs PebTableFragment := do
  checkPebtbl hdr pebIndex
  .ok (hdr.preErase pebIndex)

def definePebIndexInPortion (stripeIndex itemIndex : Nat) : Mkfs Nat := do
  let pebIndex := Word.u32 (Word.u32 (pebDescPerFragment pageCacheSize * stripeIndex) + itemIndex)
  bugOn (pebIndex ≥ Word.u16Max)
  .ok pebIndex

def LebTableFragment.map (hdr : LebTableFragment) (lebDescIndex physicalIndex : Nat) :
    LebTableFragment :=
  { hdr with
    desc := Function.update hdr.desc lebDescIndex ⟨physicalIndex, Word.u16Max⟩
    mappedLebs := Word.u16 (hdr.mappedLebs + 1) }

def defineLebAsMapped (lebDescIndex physicalIndex : Nat) (hdr : LebTableFragment) :
    Mkfs LebTableFragment := do
  bugOn (hdr.magic ≠ lebTableMagic)
  bugOn (hdr.lebsCount = 0)
  bugOn (hdr.mappedLebs > hdr.lebsCount)
  bugOn (hdr.migratingLebs > hdr.lebsCount)
  bugOn (hdr.mappedLebs + hdr.migratingLebs > hdr.lebsCount)
  bugOn (hdr.bytesCount ≠ lebTableFragmentHeaderSize + hdr.lebsCount * lebDescriptorSize)
  .ok (hdr.map lebDescIndex physicalIndex)

def getStripeIndex (layout : VolumeLayout) (hdr : LebTableFragment) (lebId : Nat) : Mkfs Nat := do
  let stripesPerPortion := layout.maptbl.stripesPerPortion
  let pebsPerSeg := layout.pebsPerSeg
  let lebIndex ← rem lebId pebsPerSeg
  if stripesPerPortion = 1 then
    .ok (Word.u16 (Word.sub64 lebId hdr.startLeb / pebDescPerFragment pageCacheSize))
  else if pebsPerSeg > stripesPerPortion then do
    let lebIndexPerStripe ←
      quot (Word.u32 (pebsPerSeg + stripesPerPortion - 1)) stripesPerPortion
    let stripeIndex ← quot lebIndex lebIndexPerStripe
    bugOn (stripeIndex ≥ Word.u16Max)
    .ok stripeIndex
  else do
    bugOn (pebsPerSeg ≥ Word.u16Max)
    quot lebIndex pebsPerSeg

def checkedLebtblFragment (layout : VolumeLayout) (t : Tables) (lebId : Nat) :
    Mkfs LebtblSlot := do
  let slot ← getLebtblFragment layout lebId
  let hdr := t.lebFragment slot
  bugOn (hdr.magic ≠ lebTableMagic)
  bugOn (lebId < hdr.startLeb)
  bugOn (lebId ≥ Word.u64 (hdr.startLeb + hdr.lebsCount))
  .ok slot

/-- The result of a full stripe is the invalid PEB, and nothing is changed. -/
def mapLeb2peb (layout : VolumeLayout) (t : Tables) (lebId : Nat) (metaIndex : Option MetaIndex) :
    Mkfs (Tables × Nat) := do
  let slot ← checkedLebtblFragment layout t lebId
  let f := slot.fragmentIndex
  let p := slot.portionIndex
  let stripeIndex ← getStripeIndex layout (t.lebFragment slot) lebId
  let pebtbl ← getPebtblFragment layout t f p stripeIndex
  bugOn (pebtbl.magic ≠ pebTableMagic)
  let pebIndex := findUnusedPeb pebtbl
  if pebIndex = Word.u16Max then .ok (t, Word.u64Max)
  else do
    let pebtbl' ← definePebAsUsed pebIndex metaIndex pebtbl
    let t := t.setPebtbl f p stripeIndex pebtbl'
    let physicalIndex ← definePebIndexInPortion stripeIndex pebIndex
    let lebtbl ← defineLebAsMapped slot.lebDescIndex physicalIndex (t.lebFragment slot)
    .ok (t.setLebtbl f p slot.mempageIndex lebtbl, Word.u64 (pebtbl.startPeb + pebIndex))

structure MapState where
  tables : Tables
  cache : MaptblCache
  segs : SegsArray

namespace SegsArray

def lebAt (a : SegsArray) (site : Nat × Nat) : Nat := ((a.segs site.1).pebs site.2).lebId
def pebAt (a : SegsArray) (site : Nat × Nat) : Nat := ((a.segs site.1).pebs site.2).pebId

def setPebId (a : SegsArray) (site : Nat × Nat) (pebId : Nat) : SegsArray :=
  let seg := a.segs site.1
  a.setSeg site.1 { seg with pebs := Function.update seg.pebs site.2 { seg.pebs site.2 with pebId } }

end SegsArray

def mapSite (layout : VolumeLayout) (site : Nat × Nat) (st : MapState) :
    Mkfs MapState :=
  let lebId := st.segs.lebAt site
  if lebId = Word.u64Max then .ok st
  else do
    let (tables, pebId) ← mapLeb2peb layout st.tables lebId (st.segs.segs site.1).segType
    failIf (pebId = Word.u64Max) .erange
    let cache ← cacheLeb2pebPair layout.pageSize st.cache lebId pebId
    .ok ⟨tables, cache, st.segs.setPebId site pebId⟩

def mapSegmentLebs2pebs (layout : VolumeLayout) (segIndex : Nat) (st : MapState) :
    Mkfs MapState :=
  Checked.forRange (st.segs.segs segIndex).pebsCapacity
    (fun i => mapSite layout (segIndex, i)) st

def mapAllocatedLebs2pebs (layout : VolumeLayout) (st : MapState) : Mkfs MapState :=
  Checked.forEach (fun metaIndex st =>
    let desc := st.segs.metaArray metaIndex
    Checked.forRange desc.segsCount
      (fun j => mapSegmentLebs2pebs layout (desc.startSegIndex + j)) st) MetaIndex.all st

end Ssdfs
