import Ssdfs.OffTable.Run

namespace Ssdfs

open Memory

def blk2offExtentDescZlib : UInt8 := 9
def blk2offExtentDescLzo : UInt8 := 10
def blk2offDescZlib : UInt8 := 12
def blk2offDescLzo : UInt8 := 13

structure OffTableDump where
  parsedBytes : Nat
  nextFragmentExist : Bool
  extents : List TranslationExtent
  offsets : List (Nat × PhysOffsetDescriptor)

section

variable (decompress : UInt8 → Buf → Nat → Nat → Buf → Nat → Mkfs Buf) (areaBuf : Buf)

/-- A fragment that cannot be decompressed is passed over, and only the LZO one is counted. Its data
is taken from the start of the area. -/
def parseExtentsFragment (frag : FragmentDesc) (st : OffTableDump) : Mkfs OffTableDump :=
  let comprSize := frag.comprSize.toNat
  let uncomprSize := frag.uncomprSize.toNat
  let parsedBytes := Word.u32 (st.parsedBytes + comprSize)
  if frag.type = blk2offExtentDesc then do
    let extents ← areaBuf.getArray Errno TranslationExtent.wire st.parsedBytes
      (comprSize / translationExtentSize)
    .ok { st with parsedBytes, extents := st.extents ++ extents }
  else
    let start := if frag.type = blk2offExtentDescLzo then 0 else st.parsedBytes
    match decompress frag.type areaBuf start comprSize (Buf.zero uncomprSize) uncomprSize with
    | .error (.code _) =>
      .ok (if frag.type = blk2offExtentDescLzo then { st with parsedBytes } else st)
    | .error e => .error e
    | .ok data => do
      let extents ← data.getArray Errno TranslationExtent.wire 0 (uncomprSize / translationExtentSize)
      .ok { st with parsedBytes, extents := st.extents ++ extents }

def parsePotTable (fragment : Buf) (offset uncomprSize : Nat) :
    Mkfs (List (Nat × PhysOffsetDescriptor)) := do
  let potTable ← fragment.get Errno PhysOffsetTableHeader.wire offset
  let idCount := potTable.idCount.toNat
  failIf (uncomprSize < potTable.byteSize.toNat) .einval
  failIf (uncomprSize < physOffDescSize * idCount) .erange
  let offsets ← fragment.getArray Errno PhysOffsetDescriptor.wire (offset + physOffTblHdrSize) idCount
  .ok (offsets.mapIdx fun i d => (potTable.startId.toNat + i, d))

def blk2offFragmentData (frag : FragmentDesc) (parsedBytes : Nat) : Mkfs (Buf × Nat) :=
  let uncomprSize := frag.uncomprSize.toNat
  if frag.type = blk2offDesc then .ok (areaBuf, parsedBytes)
  else do
    let data ← decompress frag.type areaBuf parsedBytes frag.comprSize.toNat (Buf.zero uncomprSize)
      uncomprSize
    .ok (data, 0)

def parseBlk2offTableFragment (frag : FragmentDesc) (st : OffTableDump) : Mkfs OffTableDump := do
  failIf (st.parsedBytes > areaBuf.size) .e2big
  let comprSize := frag.comprSize.toNat
  failIf (Word.sub32 areaBuf.size st.parsedBytes < comprSize) .einval
  let (fragment, offset) ← blk2offFragmentData decompress areaBuf frag st.parsedBytes
  failIf (comprSize < physOffTblHdrSize) .einval
  let offsets ← parsePotTable fragment offset frag.uncomprSize.toNat
  .ok { st with
    parsedBytes := Word.u32 (st.parsedBytes + comprSize)
    offsets := st.offsets ++ offsets }

def dumpSlot (portion i : Nat) (st : OffTableDump) : Mkfs OffTableDump := do
  let frag ← areaBuf.get Errno FragmentDesc.wire (portion + fragmentSlotsOffset + i * 16)
  if frag.type = blk2offExtentDesc ∨ frag.type = blk2offExtentDescZlib ∨
      frag.type = blk2offExtentDescLzo then
    parseExtentsFragment decompress areaBuf frag st
  else if frag.type = blk2offDesc ∨ frag.type = blk2offDescZlib ∨ frag.type = blk2offDescLzo then
    parseBlk2offTableFragment decompress areaBuf frag st
  else if frag.type = nextTableDesc then
    .ok { st with parsedBytes := frag.offset.toNat, nextFragmentExist := true }
  else .ok st

def dumpPortions : Nat → OffTableDump → Mkfs OffTableDump
  | 0, _ => .error .fuel
  | fuel + 1, st => do
    failIf (st.parsedBytes > areaBuf.size) .e2big
    let portion := st.parsedBytes
    let chainHdr ← areaBuf.get Errno FragmentsChainHeader.wire (portion + chainHdrOffset)
    let _ ← areaBuf.getArray Errno FragmentDesc.wire (portion + fragmentSlotsOffset)
      chainHdr.fragmentsCount.toNat
    let st ← Checked.forRange chainHdr.fragmentsCount.toNat (dumpSlot decompress areaBuf portion)
      { st with parsedBytes := Word.u32 (portion + blk2offTblHdrSize), nextFragmentExist := false }
    if st.nextFragmentExist then dumpPortions fuel st else .ok st

/-- `fuel` bounds the number of portions. -/
def parseBlk2offTable (fuel : Nat) : Mkfs OffTableDump := do
  failIf (areaBuf.size < blk2offTblHdrSize) .einval
  let st ← dumpPortions decompress areaBuf fuel ⟨0, false, [], []⟩
  failIf (areaBuf.size < st.parsedBytes) .erange
  .ok st

end

end Ssdfs
