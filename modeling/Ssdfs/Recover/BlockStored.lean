import Ssdfs.Lib.Blob
import Ssdfs.Recover.BlkDescRun
import Ssdfs.Recover.BlockState

namespace Ssdfs

open Memory

def zlibBlobs : List UInt8 := [2, 6]

def decompressInto (inflate : UInt8 → List UInt8 → Nat → Mkfs (List UInt8)) (type : UInt8) (src : Buf)
    (offset srclen : Nat) (dst : Buf) (destlen : Nat) : Mkfs Buf := do
  let data ← src.bytes Errno offset srclen
  let out ← inflate type data destlen
  let dst ← dst.putBytes Errno 0 out
  failIf (type ∉ zlibBlobs ∧ out.length ≠ destlen) .efault
  .ok dst

/-- What a compressor has packed is unpacked into just as much room. -/
def Undoes (compress : UInt8 → List UInt8 → List UInt8)
    (inflate : UInt8 → List UInt8 → Nat → Mkfs (List UInt8)) : Prop :=
  ∀ type content, inflate type (compress type content) content.length = .ok content

structure StoredFragment where
  content : List UInt8
  type : UInt8
  place : Nat
  checksum : UInt32
  sequenceId : UInt8
  flags : UInt8

namespace StoredFragment

variable (crc32 : List UInt8 → UInt32) (compress : UInt8 → List UInt8 → List UInt8)

def stored (f : StoredFragment) : List UInt8 :=
  if f.type = fragmentUncomprBlob then f.content else compress f.type f.content

def desc (byteOffset : Nat) (f : StoredFragment) : FragmentDesc where
  offset := UInt32.ofNat (byteOffset + f.place)
  comprSize := UInt16.ofNat (f.stored compress).length
  uncomprSize := UInt16.ofNat f.content.length
  checksum := f.checksum
  sequenceId := f.sequenceId
  magic := fragmentDescMagic
  type := f.type
  flags := f.flags

/-- The content has the checksum that the descriptor of `g` records for its own. -/
def Matches (g f : StoredFragment) : Prop :=
  g.flags &&& fragmentHasCsum ≠ 0 → crc32 f.content = g.checksum

def Taken (size : Nat) (f : StoredFragment) : Prop :=
  (f.stored compress).length ≤ blkFragmentSize ∧ f.place + (f.stored compress).length ≤ size

end StoredFragment

/-- Fragment `i` of a block lies among the bytes `block` of its area. -/
structure FragmentStored (compress : UInt8 → List UInt8 → List UInt8) (byteOffset : Nat) (block : Buf)
    (i : Nat) (f : StoredFragment) : Prop where
  desc : FragmentDesc.wire.read block.data (blockFragDesc i) = f.desc compress byteOffset
  type : f.type = fragmentUncomprBlob ∨ f.type ∈ fragmentComprBlobs
  content : f.content.length ≤ blkFragmentSize
  short : (f.stored compress).length < 65536
  fits : f.place + (f.stored compress).length ≤ block.size
  bytes : slice block.data f.place (f.stored compress).length = f.stored compress

/-- The block state at `blkState` of its area has the bytes `block`, with a chain of fragments all of
which but the last are full. -/
structure BlockStored (compress : UInt8 → List UInt8 → List UInt8) (blkState : BlkStateOffset)
    (block : Buf) (frags : List StoredFragment) : Prop where
  area : blkState.logArea = logDiffsArea ∨ blkState.logArea = logJournalArea
  limit : blkState.byteOffset.toNat + block.size < 4294967296
  magic : (BlockStateDescriptor.wire.read block.data 0).chainHdr.magic = chainHdrMagic
  count : (BlockStateDescriptor.wire.read block.data 0).chainHdr.fragmentsCount.toNat = frags.length
  table : blockFragDesc frags.length ≤ block.size
  fragments : ∀ i (h : i < frags.length),
    FragmentStored compress blkState.byteOffset.toNat block i frags[i]
  full : ∀ i (h : i + 1 < frags.length), frags[i].content.length = blkFragmentSize

/-- The buffer has as many bytes of the block state as a page. -/
structure BlockRead (pageSize : Nat) (block b : Buf) : Prop where
  size : b.size = pageSize
  bytes : ∀ x < block.size, x < pageSize → b.data x = block.data x

section

variable {crc32 : List UInt8 → UInt32} {compress : UInt8 → List UInt8 → List UInt8}
  {inflate : UInt8 → List UInt8 → Nat → Mkfs (List UInt8)} {blkState : BlkStateOffset}
  {block b dst : Buf} {frags : List StoredFragment} {f g : StoredFragment} {pageSize i : Nat}

theorem failIf_guarded {c : Prop} [Decidable c] {e : Errno} :
    Checked.Guarded (failIf c e) (¬c) fun _ => True where
  succeeds hc := ⟨(), failIf_of_not hc, trivial⟩
  refuses hc := ⟨e, if_pos (not_not.1 hc)⟩

theorem pagesize_le (h : isPagesizeValid pageSize = true) :
    4096 ≤ pageSize ∧ pageSize ≤ 131072 := by
  unfold isPagesizeValid at h
  simp only [List.mem_cons, List.not_mem_nil, or_false, decide_eq_true_eq] at h
  omega

theorem blockFragDesc_end (i : Nat) :
    blockFragDesc i + FragmentDesc.wire.size = blockFragDesc (i + 1) := by
  unfold blockFragDesc
  rw [FragmentDesc.wire_size]
  omega

theorem blockFragDesc_le {k : Nat} (h : k ≤ pageSize / blkFragmentSize) (hpage : isPagesizeValid pageSize = true) :
    blockFragDesc k ≤ pageSize := by
  have hle := pagesize_le hpage
  unfold blkFragmentSize at h
  unfold blockFragDesc
  rw [BlockStateDescriptor.wire_size, FragmentDesc.wire_size]
  omega

theorem BlockRead.read {α : Type} {w : Wire α} {off : Nat} (h : BlockRead pageSize block b)
    (hblock : off + w.size ≤ block.size) (hpage : off + w.size ≤ pageSize) :
    b.get Errno w off = .ok (w.read block.data off) := by
  rw [Buf.get_ok (by rw [h.size]; exact hpage)]
  exact congrArg Except.ok (w.read_congr fun x hx => h.bytes _ (by omega) (by omega))

theorem BlockStored.offset (h : FragmentStored compress blkState.byteOffset.toNat block i f)
    (hlimit : blkState.byteOffset.toNat + block.size < 4294967296) :
    (f.desc compress blkState.byteOffset.toNat).offset.toNat =
      blkState.byteOffset.toNat + f.place := by
  have hfits := h.fits
  exact UInt32.toNat_ofNat_of_lt' (show _ < 4294967296 by omega)

theorem FragmentStored.comprSize {off : Nat} (h : FragmentStored compress off block i f) :
    (f.desc compress off).comprSize.toNat = (f.stored compress).length :=
  UInt16.toNat_ofNat_of_lt' h.short

theorem FragmentStored.uncomprSize {off : Nat} (h : FragmentStored compress off block i f) :
    (f.desc compress off).uncomprSize.toNat = f.content.length := by
  have hcontent := h.content
  unfold blkFragmentSize at hcontent
  exact UInt16.toNat_ofNat_of_lt' (show _ < 65536 by omega)

theorem findBlockFragment_guarded (hstored : BlockStored compress blkState block frags)
    (hread : BlockRead pageSize block b) (hpage : isPagesizeValid pageSize = true)
    (hcount : frags.length ≤ pageSize / blkFragmentSize) (hi : i < frags.length) :
    Checked.Guarded (findBlockFragment blkState i b) (frags[i].Taken compress pageSize) fun r =>
      r = some (frags[i].desc compress blkState.byteOffset.toNat) := by
  have hfragment := hstored.fragments i hi
  have hoffset := BlockStored.offset hfragment hstored.limit
  have hcompr := hfragment.comprSize
  have huncompr := hfragment.uncomprSize
  have hcontent := hfragment.content
  have hfits := hfragment.fits
  have htable := hstored.table
  have hlimit := hstored.limit
  have hplace := @blockFragDesc_le pageSize frags.length hcount hpage
  have hend : blockFragDesc (i + 1) ≤ blockFragDesc frags.length :=
    Nat.add_le_add_left (Nat.mul_le_mul_right _ hi) _
  have hstart : 32 ≤ blockFragDesc frags.length := Nat.le_add_right ..
  unfold findBlockFragment
  rw [hread.read (by rw [BlockStateDescriptor.wire_size]; omega)
    (by rw [BlockStateDescriptor.wire_size]; omega), Checked.ok_bind]
  simp only
  rw [failIf_of_not (not_not.2 hstored.magic), Checked.ok_bind, hstored.count,
    if_neg (Nat.not_le.2 hi), hread.read (by rw [blockFragDesc_end]; omega)
      (by rw [blockFragDesc_end]; omega), Checked.ok_bind, hfragment.desc]
  have hmagic : ¬(frags[i].desc compress blkState.byteOffset.toNat).magic ≠ fragmentDescMagic :=
    fun h => h rfl
  have hbehind : ¬(frags[i].desc compress blkState.byteOffset.toNat).offset < blkState.byteOffset := by
    rw [UInt32.lt_iff_toNat_lt]
    omega
  rw [failIf_of_not hmagic, Checked.ok_bind, failIf_of_not hbehind, Checked.ok_bind, hoffset, hcompr, huncompr, Nat.add_sub_cancel_left,
    Word.u32_of_lt (by omega), hread.size]
  refine (failIf_guarded.bind (D := frags[i].place + (frags[i].stored compress).length ≤ pageSize)
    fun _ _ _ => ?_).congr (and_congr Nat.not_lt.symm Iff.rfl) fun r hr => hr
  rw [failIf_of_not (Nat.not_lt.2 hcontent), Checked.ok_bind]
  refine (failIf_guarded.bind (D := True) fun _ _ _ => ?_).congr
    (by rw [and_true, gt_iff_lt, Nat.not_lt]) fun r hr => hr
  exact .ok rfl

theorem prepareRawBuffer_data {buf : Option Buf} {n : Nat} :
    (prepareRawBuffer buf n).data = fun _ => 0 := by
  unfold prepareRawBuffer
  split
  · rfl
  · split <;> rfl

theorem slice_read {off len : Nat} (hread : BlockRead pageSize block b) (hblock : off + len ≤ block.size)
    (hpage : off + len ≤ pageSize) : slice b.data off len = slice block.data off len :=
  slice_congr fun x hx => hread.bytes _ (by omega) (by omega)

theorem uncompressBlockFragment_ok (hundo : Undoes compress inflate)
    (hfragment : FragmentStored compress blkState.byteOffset.toNat block i f)
    (hlimit : blkState.byteOffset.toNat + block.size < 4294967296)
    (hread : BlockRead pageSize block b) (htaken : f.Taken compress pageSize)
    (hroom : blkFragmentSize ≤ dst.size) (hzero : dst.data = fun _ => 0) :
    ∃ u, uncompressBlockFragment (decompressInto inflate) blkState
        (f.desc compress blkState.byteOffset.toNat) b dst = .ok u ∧ u.size = dst.size ∧
      ∀ x, u.data x = f.content.getD x 0 := by
  have hcontent := hfragment.content
  have hslice := (slice_read hread hfragment.fits htaken.2).trans hfragment.bytes
  have hplace : f.place + (f.stored compress).length ≤ b.size := by
    rw [hread.size]
    exact htaken.2
  unfold uncompressBlockFragment
  simp only
  rw [BlockStored.offset hfragment hlimit, Nat.add_sub_cancel_left, hfragment.comprSize,
    hfragment.uncomprSize]
  have htype : (f.desc compress blkState.byteOffset.toNat).type = f.type := rfl
  rw [htype]
  by_cases hblob : f.type = fragmentUncomprBlob
  · have hstored : f.stored compress = f.content := if_pos hblob
    rw [hstored] at hslice hplace
    obtain ⟨u, hu, hsize, hdata, hrest⟩ := @Buf.copy_ok Errno dst b 0 f.place f.content.length
      (by omega) hplace
    rw [if_pos hblob]
    refine ⟨u, hu, hsize, fun x => ?_⟩
    rcases Nat.lt_or_ge x f.content.length with hx | hx
    · have hbyte := hdata x hx
      rw [Nat.zero_add] at hbyte
      rw [hbyte, List.getD_eq_getElem?_getD, ← hslice, getElem?_slice hx]
      rfl
    · rw [hrest x (.inr (by omega)), hzero, List.getD_eq_default _ _ hx]
  · have hstored : f.stored compress = compress f.type f.content := if_neg hblob
    rw [if_neg hblob, if_pos (hfragment.type.resolve_left hblob)]
    unfold decompressInto
    rw [Buf.bytes_ok hplace, Checked.ok_bind, hslice, hstored, hundo, Checked.ok_bind,
      Buf.putBytes_ok (by omega), Checked.ok_bind, failIf_of_not fun h => h.2 rfl]
    refine ⟨_, rfl, rfl, fun x => ?_⟩
    unfold storeBytes
    simp only
    rw [if_pos (Nat.zero_le x), hzero, Nat.sub_zero]

theorem checkBlockFragmentCsum_guarded
    (hfragment : FragmentStored compress blkState.byteOffset.toNat block i f)
    (hfirst : FragmentStored compress blkState.byteOffset.toNat block 0 g)
    (hread : BlockRead pageSize block b) (hblock : blockFragDesc 1 ≤ block.size)
    (hpage : blockFragDesc 1 ≤ pageSize) (hroom : blkFragmentSize ≤ dst.size)
    (hdata : ∀ x, dst.data x = f.content.getD x 0) :
    Checked.Guarded (checkBlockFragmentCsum crc32 (f.desc compress blkState.byteOffset.toNat) b dst)
      (g.Matches crc32 f) fun _ => True := by
  have hcontent := hfragment.content
  have hslice : slice dst.data 0 f.content.length = f.content := by
    refine List.ext_getElem? fun x => ?_
    rcases Nat.lt_or_ge x f.content.length with hx | hx
    · rw [getElem?_slice hx, Nat.zero_add, hdata, List.getD_eq_getElem _ _ hx,
        List.getElem?_eq_getElem hx]
    · rw [List.getElem?_eq_none hx, List.getElem?_eq_none (by rwa [length_slice])]
  unfold checkBlockFragmentCsum StoredFragment.Matches
  rw [hread.read (by rw [blockFragDesc_end]; exact hblock) (by rw [blockFragDesc_end]; exact hpage),
    Checked.ok_bind, hfirst.desc, hfragment.uncomprSize]
  have hflags : (g.desc compress blkState.byteOffset.toNat).flags = g.flags := rfl
  have hcsum : (g.desc compress blkState.byteOffset.toNat).checksum = g.checksum := rfl
  rw [hflags, hcsum]
  by_cases hcheck : g.flags &&& fragmentHasCsum ≠ 0
  · rw [if_pos hcheck, Buf.bytes_ok (by omega), Checked.ok_bind, hslice]
    exact failIf_guarded.congr (by rw [not_not]; exact forall_prop_of_true hcheck) fun _ h => h
  · rw [if_neg hcheck]
    exact (Checked.Guarded.ok trivial).congr (iff_true_intro fun h => absurd h hcheck) fun _ h => h

end

end Ssdfs
