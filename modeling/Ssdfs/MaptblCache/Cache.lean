import Ssdfs.MaptblCache.Fragment

/-! The chain of cache fragments and the insertion of a mapping into it. -/

namespace Ssdfs

structure MaptblCache where
  fragments : Nat → MaptblCacheFragment
  fragmentsCount : Nat
  bytesCount : Nat

def MaptblCache.set (c : MaptblCache) (index : Nat) (fragment : MaptblCacheFragment)
    (bytesCount : Nat) : MaptblCache :=
  { c with fragments := Function.update c.fragments index fragment, bytesCount }

def lebsInSegs (a : SegsArray) : Nat :=
  ((List.range a.segsCapacity).map fun i =>
    ((List.range (a.segs i).pebsCapacity).filter fun j =>
      ((a.segs i).pebs j).lebId ≠ Word.u64Max).length).sum

def maptblCachePrepareFragment (page : PageSize) (sequenceId : Nat) : Mkfs MaptblCacheFragment := do
  let area ← (Buf.zero (page.bytes - maptblCacheHdrSize)).store Errno 4 0
    maptblCachePebStateMagic
  .ok
    { hdr :=
        { magicKey := maptblCacheMagic
          sequenceId
          flags := 0
          itemsCount := 0
          bytesCount := Word.u16 (maptblCacheHdrSize + pebStateSize)
          startLeb := Word.u64Max
          endLeb := Word.u64Max }
      area }

def maptblCacheMkfsPrepare (page : PageSize) (a : SegsArray) : Mkfs MaptblCache := do
  let lebsCount := Word.u32 (lebsInSegs a)
  let pairs := leb2pebPairPerFragment page.bytes
  let fragmentsCount := Word.u32 (lebsCount + pairs - 1) / pairs
  bugOn (fragmentsCount ≥ Word.u16Max)
  let fragments ← Checked.fill fragmentsCount
    (fun i _ => maptblCachePrepareFragment page (Word.u16 i))
    (fun _ => ⟨⟨0, 0, 0, 0, 0, 0, 0⟩, Buf.zero (page.bytes - maptblCacheHdrSize)⟩)
  .ok ⟨fragments, fragmentsCount, 0⟩

/-- Scans the `rest` fragments from index `i` on. -/
def findFragmentFrom (itemsPerFragment : Nat) (c : MaptblCache) (lebId : Nat) :
    Nat → Nat → Mkfs Nat
  | 0, i => .ok i
  | rest + 1, i => do
    let hdr := (c.fragments i).hdr
    bugOn (hdr.magicKey ≠ maptblCacheMagic)
    if hdr.startLeb = Word.u64Max then .ok i
    else if lebId ≥ hdr.startLeb ∧ lebId ≤ hdr.endLeb then .ok i
    else if lebId > hdr.endLeb ∧ hdr.itemsCount < itemsPerFragment then .ok i
    else findFragmentFrom itemsPerFragment c lebId rest (i + 1)

def findFragmentIndex (itemsPerFragment : Nat) (c : MaptblCache) (lebId : Nat) : Mkfs Nat := do
  bugOn (lebId = Word.u64Max)
  findFragmentFrom itemsPerFragment c lebId c.fragmentsCount 0

/-- Adds an item to the fragment `index`, and the item that it pushes out to the next one, as
long as there are fragments. -/
def addFrom (itemsPerFragment : Nat) : Nat → Nat → CacheItem → MaptblCache → Mkfs MaptblCache
  | 0, _, _, _ => .error .abort
  | rest + 1, index, item, c => do
    let (fragment, bytesCount, moving) ←
      addLeb2pebPair itemsPerFragment (c.fragments index) c.bytesCount item
    let c := c.set index fragment bytesCount
    match moving with
    | none => .ok c
    | some item => addFrom itemsPerFragment rest (index + 1) item c

def usingState : MaptblCachePebState where
  consistency := pebStateConsistent
  state := maptblUsingPebState
  flags := 0
  sharedPebIndex := 0xFF

def cacheLeb2pebPair (page : PageSize) (c : MaptblCache) (lebId pebId : Nat) :
    Mkfs MaptblCache := do
  bugOn (lebId = Word.u64Max)
  bugOn (pebId = Word.u64Max)
  let itemsPerFragment := leb2pebPairPerFragment page.bytes
  let index ← findFragmentIndex itemsPerFragment c lebId
  addFrom itemsPerFragment (c.fragmentsCount - index) index ⟨⟨lebId, pebId⟩, usingState⟩ c

end Ssdfs
