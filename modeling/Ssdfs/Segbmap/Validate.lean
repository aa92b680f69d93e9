import Ssdfs.Segbmap.Bitmap

namespace Ssdfs

def defineLebId (layout : VolumeLayout) (desc : SegmentDesc) : Mkfs SegmentDesc :=
  let startLebId :=
    if layout.lebsPerPebIndex = 1 then Word.u64 (desc.segId * desc.pebsCapacity) else desc.segId
  let pebsCapacity :=
    match desc.segType with
    | some .initialSnapshot => 1
    | some .segbmap => layout.segbmap.pebsPerSeg
    | _ => desc.pebsCapacity
  if desc.pebsCapacity < pebsCapacity then .error .stray
  else .ok { desc with
    pebs := fun i =>
      let lebId :=
        if i < pebsCapacity then Word.u64 (startLebId + Word.u32 (i * layout.lebsPerPebIndex.toNat))
        else if i < desc.pebsCapacity then Word.u64Max
        else (desc.pebs i).lebId
      { desc.pebs i with lebId } }

def defineLebIds (layout : VolumeLayout) (a : SegsArray) : Mkfs SegsArray :=
  Checked.forRange a.segsCapacity (fun i a => do
    let seg ← defineLebId layout (a.segs i)
    .ok (a.setSeg i seg)) a

section

variable (layout : VolumeLayout) (segbmap : SegbmapGeometry)

def segbmapPebBufferSize : Nat := Word.u64 (segbmap.fragmentSize * segbmap.fragmentsPerPeb)

def segbmapWriteFragment (i : Nat) (buffers : Nat → Buf) : Mkfs (Nat → Buf) := do
  let f ← segbmapPrepareFragment layout segbmap i
  if f.buffer ≥ segbmap.segsPerChain * segbmap.pebsPerSeg then .error .stray
  else do
    let buf ← (buffers f.buffer).put Errno SegbmapFragmentHeader.wire f.offset f.hdr
    .ok (Function.update buffers f.buffer buf)

def segbmapMkfsPrepare : Mkfs (Nat → Buf) :=
  Checked.forRange segbmap.fragmentsCount (segbmapWriteFragment layout segbmap)
    fun _ => Buf.zero (segbmapPebBufferSize segbmap)

def tryFragment (fragmentIndex : Nat) (buf : Buf) : Mkfs (Buf × Option Nat) := do
  let nsegs ← quot layout.env.fsSize.toNat layout.segSize.toNat
  let fragment := fragmentIndex * segbmap.fragmentSize
  let hdr ← buf.get Errno SegbmapFragmentHeader.wire fragment
  setFirstCleanItemInFragment buf (fragment + segbmapFragmentHeaderSize) hdr 0 nsegs pageCacheSize
    segReserved

/-- Tries at most `rest` fragments from `fragmentIndex` on. Whatever error code the search comes
back with, nothing was found and the next fragment is tried. -/
def tryFragments : Nat → Nat → Buf → Mkfs (Buf × Nat)
  | 0, _, _ => fail .erange
  | rest + 1, fragmentIndex, buf =>
    match tryFragment layout segbmap fragmentIndex buf with
    | .ok (buf, some foundSeg) => .ok (buf, foundSeg)
    | .ok (buf, none) => tryFragments rest (fragmentIndex + 1) buf
    | .error (.code _) => tryFragments rest (fragmentIndex + 1) buf
    | .error e => .error e

/-- `buf` is the first PEB's buffer: no other one is searched. -/
def defineSegId (buf : Buf) (desc : SegmentDesc) : Mkfs (Buf × SegmentDesc) := do
  let (buf, foundSeg) ← tryFragments layout segbmap (max segbmap.fragmentsPerPeb 1) 0 buf
  let desc ← defineLebId layout { desc with segId := foundSeg }
  .ok (buf, desc)

def defineSeg (i : Nat) (st : Buf × SegsArray) : Mkfs (Buf × SegsArray) :=
  let desc := st.2.segs i
  match desc.segType with
  | none => fail .erange
  | some .userData => .ok st
  | some _ => do
    let (buf, desc) ← defineSegId layout segbmap st.1 desc
    .ok (buf, st.2.setSeg i desc)

def segbmapMkfsValidate (buf : Buf) (a : SegsArray) : Mkfs (Buf × SegsArray) :=
  Checked.forRange a.segsCapacity (defineSeg layout segbmap) (buf, a)

end

end Ssdfs
