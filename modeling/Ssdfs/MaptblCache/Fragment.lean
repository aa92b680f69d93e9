import Ssdfs.Layout
import Ssdfs.Lib.Memory

namespace Ssdfs

def maptblCacheHdrSize : Nat := 32
def leb2pebPairSize : Nat := 16
def pebStateSize : Nat := 4
def maptblCacheMagic : Nat := 0x4D63
def maptblCachePebStateMagic : Nat := 0x4D635053

def leb2pebPairPerFragment (fragmentSize : Nat) : Nat :=
  (fragmentSize - maptblCacheHdrSize - pebStateSize) / (leb2pebPairSize + pebStateSize)

structure MaptblCacheHeader where
  magicKey : Nat
  sequenceId : Nat
  flags : Nat
  itemsCount : Nat
  bytesCount : Nat
  startLeb : Nat
  endLeb : Nat
  deriving Repr, DecidableEq

/-- `area` is the page behind the header. -/
structure MaptblCacheFragment where
  hdr : MaptblCacheHeader
  area : Buf

structure Leb2pebPair where
  lebId : Nat
  pebId : Nat
  deriving Repr, DecidableEq

structure MaptblCachePebState where
  consistency : UInt8
  state : UInt8
  flags : UInt8
  sharedPebIndex : UInt8
  deriving Repr, DecidableEq

namespace MaptblCachePebState

def word (s : MaptblCachePebState) : Nat :=
  s.consistency.toNat + 256 * (s.state.toNat + 256 * (s.flags.toNat +
    256 * s.sharedPebIndex.toNat))

def ofWord (w : Nat) : MaptblCachePebState where
  consistency := UInt8.ofNat w
  state := UInt8.ofNat (w / 256)
  flags := UInt8.ofNat (w / 256 / 256)
  sharedPebIndex := UInt8.ofNat (w / 256 / 256 / 256)

theorem word_lt (s : MaptblCachePebState) : s.word < 256 ^ 4 := by
  have h1 := s.consistency.toNat_lt
  have h2 := s.state.toNat_lt
  have h3 := s.flags.toNat_lt
  have h4 := s.sharedPebIndex.toNat_lt
  unfold word
  omega

@[simp] theorem ofWord_word (s : MaptblCachePebState) : ofWord s.word = s := by
  have h1 := s.consistency.toNat_lt
  have h2 := s.state.toNat_lt
  have h3 := s.flags.toNat_lt
  have h4 := s.sharedPebIndex.toNat_lt
  obtain ⟨c, t, f, i⟩ := s
  simp only [ofWord, word, mk.injEq]
  refine ⟨?_, ?_, ?_, ?_⟩ <;>
    · apply UInt8.toNat_inj.1
      rw [UInt8.toNat_ofNat']
      simp only at h1 h2 h3 h4
      omega

end MaptblCachePebState

def pebStateConsistent : UInt8 := 1
def maptblUsingPebState : UInt8 := 3

structure CacheItem where
  pair : Leb2pebPair
  state : MaptblCachePebState
  deriving Repr, DecidableEq

def maptblCacheAreaSize (hdr : MaptblCacheHeader) : Mkfs (Nat × Nat) := do
  let thresholdSize := maptblCacheHdrSize + pebStateSize
  failIf (hdr.bytesCount < thresholdSize) .erange
  failIf (hdr.bytesCount = thresholdSize) .enodata
  let capacity := (hdr.bytesCount - thresholdSize) / (leb2pebPairSize + pebStateSize)
  failIf (hdr.itemsCount > capacity) .erange
  .ok (capacity * leb2pebPairSize, pebStateSize + capacity * pebStateSize)

def areaSizeOrEmpty (hdr : MaptblCacheHeader) : Mkfs (Nat × Nat) :=
  match maptblCacheAreaSize hdr with
  | .error (.code .enodata) => .ok (0, pebStateSize)
  | r => r

def pebStateAreaSize (hdr : MaptblCacheHeader) : Mkfs Nat := do
  let sizes ← areaSizeOrEmpty hdr
  .ok sizes.2

def pebStateArea (fragment : MaptblCacheFragment) : Mkfs Nat := do
  let sizes ← areaSizeOrEmpty fragment.hdr
  let magic ← fragment.area.load Errno 4 sizes.1
  failIf (magic ≠ maptblCachePebStateMagic) .erange
  .ok sizes.1

def firstPebState (fragment : MaptblCacheFragment) : Mkfs Nat := do
  let start ← pebStateArea fragment
  .ok (start + pebStateSize)

def loadPair (area : Buf) (off : Nat) : Mkfs Leb2pebPair := do
  let lebId ← area.load Errno 8 off
  let pebId ← area.load Errno 8 (off + 8)
  .ok ⟨lebId, pebId⟩

def storePair (area : Buf) (off : Nat) (pair : Leb2pebPair) : Mkfs Buf := do
  let area ← area.store Errno 8 off pair.lebId
  area.store Errno 8 (off + 8) pair.pebId

def loadState (area : Buf) (off : Nat) : Mkfs MaptblCachePebState := do
  let w ← area.load Errno 4 off
  .ok (.ofWord w)

structure Room where
  area : Buf
  pebStates : Nat
  moving : Option CacheItem

def makeRoom (itemsPerFragment : Nat) (fragment : MaptblCacheFragment) : Mkfs Room := do
  let itemsCount := fragment.hdr.itemsCount
  let pebStates ← firstPebState fragment
  if itemsCount = itemsPerFragment then do
    let pair ← loadPair fragment.area (leb2pebPairSize * (itemsCount - 1))
    let state ← loadState fragment.area (pebStates + pebStateSize * (itemsCount - 1))
    .ok ⟨fragment.area, pebStates, some ⟨pair, state⟩⟩
  else do
    let area ← pebStateArea fragment
    let areaSize ← pebStateAreaSize fragment.hdr
    if areaSize > 0 then do
      let moved ← fragment.area.move Errno (area + leb2pebPairSize) area areaSize
      .ok ⟨moved, area + pebStateSize + leb2pebPairSize, none⟩
    else .ok ⟨fragment.area, pebStates, none⟩

/-- The place of a LEB among the first `n` pairs, looked for from the last one. -/
def findItemIndex (area : Buf) (lebId : Nat) : Nat → Mkfs Nat
  | 0 => .ok 0
  | n + 1 => do
    let curLebId ← area.load Errno 8 (leb2pebPairSize * n)
    bugOn (curLebId = Word.u64Max)
    if curLebId ≤ lebId then .ok (n + 1) else findItemIndex area lebId n

def shiftItems (itemsPerFragment itemsCount itemIndex pebStates : Nat) (area : Buf) : Mkfs Buf :=
  if itemIndex < itemsCount then do
    let movingItems :=
      if itemsCount = itemsPerFragment then itemsCount - 1 - itemIndex
      else itemsCount - itemIndex
    let area ← area.move Errno (leb2pebPairSize * (itemIndex + 1)) (leb2pebPairSize * itemIndex)
      (leb2pebPairSize * movingItems)
    area.move Errno (pebStates + pebStateSize * (itemIndex + 1))
      (pebStates + pebStateSize * itemIndex) (pebStateSize * movingItems)
  else .ok area

def addLeb2pebPair (itemsPerFragment : Nat) (fragment : MaptblCacheFragment) (cacheBytes : Nat)
    (item : CacheItem) : Mkfs (MaptblCacheFragment × Nat × Option CacheItem) := do
  let itemsCount := fragment.hdr.itemsCount
  bugOn (itemsCount > itemsPerFragment)
  let room ← makeRoom itemsPerFragment fragment
  let itemIndex ← findItemIndex room.area item.pair.lebId itemsCount
  let area ← shiftItems itemsPerFragment itemsCount itemIndex room.pebStates room.area
  let area ← storePair area (leb2pebPairSize * itemIndex) item.pair
  let area ← area.store Errno 4 (room.pebStates + pebStateSize * itemIndex) item.state.word
  let startLeb ← area.load Errno 8 0
  let endLeb ← area.load Errno 8 (leb2pebPairSize * itemsCount)
  let cacheBytes :=
    if itemsCount = 0 then Word.u32 (cacheBytes + (maptblCacheHdrSize + pebStateSize))
    else cacheBytes
  let itemsCount := Word.u16 (itemsCount + 1)
  let bytesCount := Word.u16 (maptblCacheHdrSize + pebStateSize +
    itemsCount * (leb2pebPairSize + pebStateSize))
  .ok ({ hdr := { fragment.hdr with itemsCount, bytesCount, startLeb, endLeb }, area },
    Word.u32 (cacheBytes + (leb2pebPairSize + pebStateSize)), room.moving)

end Ssdfs
