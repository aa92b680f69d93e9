import Ssdfs.Commit.SegHeader
import Ssdfs.Lib.Strided

namespace Ssdfs

open Memory

def describedAreas : List ExtentIndex :=
  [.blockBitmap, .offsetTable, .blockDescriptors, .logPayload, .maptblCache]

def checkedBytes : ExtentIndex → Bytes → Bytes
  | .offsetTable, buf => clearCsum buf recordCheckOffset
  | _, buf => buf

/-- The checksum is that of the first `check.bytes` bytes of the area. -/
structure AreaVerifies (crc32 : UInt32 → List UInt8 → UInt32) (k : ExtentIndex) (extent : ExtentDesc)
    (desc : MetadataDescriptorRecord) : Prop where
  offset : desc.offset = extent.offset
  size : desc.size = extent.bytesCount
  within : desc.check.bytes.toNat ≤ desc.size.toNat
  csum : ∃ buf, extent.buf = some buf ∧ desc.check.csum =
    ssdfsCrc32Le crc32 (slice (checkedBytes k buf) 0 desc.check.bytes.toNat)

def HeaderVerifies (crc32 : UInt32 → List UInt8 → UInt32) (peb : PebContent) : Prop :=
  ∃ hdr, (peb.extents .segHeader).buf = some hdr ∧ ∀ k ∈ describedAreas,
    0 < (peb.extents k).bytesCount.toNat →
      AreaVerifies crc32 k (peb.extents k)
        (MetadataDescriptorRecord.wire.read hdr (SegHdr.descOffset k))

def sealTables (crc32 : UInt32 → List UInt8 → UInt32) (peb : PebContent) : Mkfs PebContent :=
  if 0 < (peb.extents .offsetTable).bytesCount.toNat then commitOffsetTable crc32 .offsetTable peb
  else .ok peb

def commitTables (crc32 : UInt32 → List UInt8 → UInt32) (layout : VolumeLayout)
    (src : CommitSource) (segType : Option MetaIndex) (blksCount : Nat) (peb : PebContent) :
    Mkfs PebContent := do
  let peb ← sealTables crc32 peb
  commitSegmentHeader crc32 layout src segType blksCount peb

def PebContent.bytes (peb : PebContent) (k : ExtentIndex) : Bytes :=
  (peb.extents k).buf.getD fun _ => 0

structure SameShape (page n : Nat) (peb peb' : PebContent) : Prop where
  offset : ∀ k, (peb'.extents k).offset = (peb.extents k).offset
  bytesCount : ∀ k, (peb'.extents k).bytesCount = (peb.extents k).bytesCount
  present : ∀ k, (peb'.extents k).buf.isSome = (peb.extents k).buf.isSome
  used : ∀ i < n, cacheUsed page (peb'.bytes .maptblCache) i =
    cacheUsed page (peb.bytes .maptblCache) i

/-- The headers of the two tables are inside their areas, the bytes of the block descriptors can be
counted in 16 bits, and the fragments of the cache leave no room between them. -/
structure DescriptorsCover (page n : Nat) (peb : PebContent) : Prop where
  blockBitmap : 0 < (peb.extents .blockBitmap).bytesCount.toNat →
    blkBmapHdrSize ≤ (peb.extents .blockBitmap).bytesCount.toNat
  offsetTable : 0 < (peb.extents .offsetTable).bytesCount.toNat →
    blk2offTblHdrSize ≤ (peb.extents .offsetTable).bytesCount.toNat
  blockDescriptors : (peb.extents .blockDescriptors).bytesCount.toNat < 65536
  maptblCache : 0 < (peb.extents .maptblCache).bytesCount.toNat →
    ∑ i ∈ Finset.range n, cacheUsed page (peb.bytes .maptblCache) i ≤
      (peb.extents .maptblCache).bytesCount.toNat ∧
    ∀ i, i + 1 < n → cacheUsed page (peb.bytes .maptblCache) i = page

/-- When the checksum over an area of `size` bytes is found again. -/
def AreaPasses (crc32 : UInt32 → List UInt8 → UInt32) (page n : Nat) (size : Nat) (buf : Bytes) :
    ExtentIndex → Prop
  | .blockBitmap => blkBmapHdrSize ≤ size
  | .offsetTable => blk2offTblHdrSize ≤ size
  | .blockDescriptors =>
    crc32 0 ((List.range (size % 65536)).map buf) = crc32 0 ((List.range size).map buf)
  | .maptblCache =>
    ∑ i ∈ Finset.range n, cacheUsed page buf i ≤ size ∧
      crc32 0 ((Strided.places page (cacheUsed page buf) n).map buf) =
        crc32 0 ((List.range (∑ i ∈ Finset.range n, cacheUsed page buf i)).map buf)
  | _ => True

section

variable {crc32 : UInt32 → List UInt8 → UInt32} {layout : VolumeLayout} {src : CommitSource}
  {segType : Option MetaIndex} {peb peb' peb₁ : PebContent} {extent : ExtentDesc} {page n : Nat}
  {blksCount : Nat} {hdr buf : Bytes} {k : ExtentIndex} {desc : MetadataDescriptor}
  {check : Bytes → MetadataCheck} {size : Nat}

theorem slice_zero (buf : Bytes) (len : Nat) : slice buf 0 len = (List.range len).map buf :=
  List.map_congr_left fun i _ => by rw [Nat.zero_add]

theorem contents_eq_ok {data : Bytes} : extent.contents = .ok data ↔ extent.buf = some data := by
  unfold ExtentDesc.contents
  split
  case h_1 b hb =>
    rw [hb]
    exact ⟨fun h => congrArg some (Except.ok.inj h), fun h => congrArg Except.ok (Option.some.inj h)⟩
  case h_2 hb =>
    rw [hb]
    exact ⟨fun h => (nomatch h), fun h => (nomatch h)⟩

def ExtentDesc.Placed (layout : VolumeLayout) (extent : ExtentDesc) : Prop :=
  ¬(extent.bytesCount = 0 ∨ extent.bytesCount.toNat ≥ layout.env.eraseSize.toNat) ∧
    ¬(extent.offset = 0 ∨ extent.offset.toNat ≥ layout.env.eraseSize.toNat)

theorem prepareDescriptor_eq_ok : prepareDescriptor layout extent check = .ok desc ↔
    extent.Placed layout ∧ ∃ buf, extent.buf = some buf ∧
      desc = ⟨extent.offset.toNat, extent.bytesCount.toNat, check buf⟩ := by
  unfold prepareDescriptor ExtentDesc.Placed
  simp only
  rw [bugOn_bind_eq_ok, bugOn_bind_eq_ok, Checked.bind_eq_ok, and_assoc]
  simp only [contents_eq_ok, Except.ok.injEq, eq_comm]

theorem foldl_fragments (hcrc : RunningChecksum crc32) (used : Nat → Nat) :
    (List.range n).foldl (fun (csum, bytesCount) i =>
        (crc32 csum (slice buf (i * page) (used i)), Word.u32 (bytesCount + used i))) (0, 0) =
      (crc32 0 ((Strided.places page used n).map buf), Word.u32 (∑ i ∈ Finset.range n, used i)) := by
  induction n with
  | zero => exact Prod.ext (hcrc.nil 0).symm rfl
  | succ n ih =>
    rw [List.range_succ, List.foldl_append, ih, Strided.places_succ, List.map_append, hcrc.append,
      Finset.sum_range_succ, List.map_map]
    exact Prod.ext rfl (u32_add_u32 ..)

theorem cacheUsed_lt (page : Nat) (buf : Bytes) (i : Nat) : cacheUsed page buf i < 65536 :=
  UInt16.toNat_lt _

theorem sum_cacheUsed_lt (hn : n < Word.u16Max) :
    ∑ i ∈ Finset.range n, cacheUsed page buf i < 4294967296 := by
  have hsum := Finset.sum_le_card_nsmul (Finset.range n) (cacheUsed page buf) 65535
    fun i _ => Nat.le_of_lt_succ (cacheUsed_lt page buf i)
  rw [Finset.card_range] at hsum
  exact Nat.lt_of_le_of_lt hsum (Nat.lt_of_lt_of_le (Nat.mul_lt_mul_of_pos_right hn (by decide))
    (by decide))

theorem prepareMaptblCache_eq_ok (hcrc : RunningChecksum crc32)
    (hn : src.cache.fragmentsCount < Word.u16Max) :
    prepareMaptblCacheMetadataDescriptor crc32 layout src.cache extent = .ok desc ↔
      extent.Placed layout ∧ ∃ buf, extent.buf = some buf ∧
        extent.bytesCount.toNat < Word.u16Max ∧
        ∑ i ∈ Finset.range src.cache.fragmentsCount, cacheUsed layout.pageSize.bytes buf i <
          Word.u16Max ∧
        desc = ⟨extent.offset.toNat, extent.bytesCount.toNat,
          ∑ i ∈ Finset.range src.cache.fragmentsCount, cacheUsed layout.pageSize.bytes buf i, crc32Flag,
          ~~~crc32 0 ((Strided.places layout.pageSize.bytes (cacheUsed layout.pageSize.bytes buf)
            src.cache.fragmentsCount).map buf)⟩ := by
  unfold prepareMaptblCacheMetadataDescriptor ExtentDesc.Placed
  simp only
  rw [bugOn_bind_eq_ok, bugOn_bind_eq_ok, Checked.bind_eq_ok, and_assoc]
  refine and_congr_right fun _ => and_congr_right fun _ => exists_congr fun data => ?_
  rw [contents_eq_ok, bugOn_bind_eq_ok, Nat.not_le]
  refine and_congr_right fun _ => and_congr_right fun _ => ?_
  have hfold := @foldl_fragments crc32 layout.pageSize.bytes src.cache.fragmentsCount data hcrc
    (cacheUsed layout.pageSize.bytes data)
  unfold cacheUsed at hfold ⊢
  rw [hfold]
  have hsum := @sum_cacheUsed_lt layout.pageSize.bytes _ data hn
  unfold cacheUsed at hsum
  simp only
  rw [Word.u32_of_lt hsum, bugOn_bind_eq_ok, Nat.not_le]
  refine and_congr_right fun hlt => ?_
  rw [Word.u16_of_lt (Nat.lt_trans hlt (by decide)), Except.ok.injEq, eq_comm]

theorem areaVerifies_iff {c : MetadataCheck} (hbuf : extent.buf = some buf)
    (hbytes : c.bytes < 65536) :
    AreaVerifies crc32 k extent
        (MetadataDescriptor.record ⟨extent.offset.toNat, extent.bytesCount.toNat, c⟩) ↔
      c.bytes ≤ extent.bytesCount.toNat ∧
        c.csum = ssdfsCrc32Le crc32 (slice (checkedBytes k buf) 0 c.bytes) := by
  have hoffset : (MetadataDescriptor.record ⟨extent.offset.toNat, extent.bytesCount.toNat, c⟩).offset =
      extent.offset := UInt32.ofNat_toNat
  have hsize : (MetadataDescriptor.record ⟨extent.offset.toNat, extent.bytesCount.toNat, c⟩).size =
      extent.bytesCount := UInt32.ofNat_toNat
  have hcheck : (MetadataDescriptor.record
      ⟨extent.offset.toNat, extent.bytesCount.toNat, c⟩).check.bytes.toNat = c.bytes :=
    UInt16.toNat_ofNat_of_lt' hbytes
  constructor
  · rintro ⟨-, -, hwithin, data, hdata, hcsum⟩
    obtain rfl := Option.some.inj (hbuf.symm.trans hdata)
    rw [hcheck, hsize] at hwithin
    rw [hcheck] at hcsum
    exact ⟨hwithin, hcsum⟩
  · rintro ⟨hwithin, hcsum⟩
    refine ⟨hoffset, hsize, ?_, buf, hbuf, ?_⟩
    · rw [hcheck, hsize]
      exact hwithin
    · rw [hcheck]
      exact hcsum

theorem prepare_areaVerifies_iff (hcrc : RunningChecksum crc32)
    (hn : src.cache.fragmentsCount < Word.u16Max) (hk : k ∈ describedAreas)
    (hsealed : k = .offsetTable →
      ∃ data, buf = sealRecord crc32 data recordCheckOffset blk2offTblHdrSize)
    (hbuf : extent.buf = some buf)
    (h : prepareMetadataDescriptor crc32 layout src segType extent k = .ok desc) :
    AreaVerifies crc32 k extent desc.record ↔
      AreaPasses crc32 layout.pageSize.bytes src.cache.fragmentsCount extent.bytesCount.toNat buf k := by
  have hlt : extent.bytesCount.toNat < 4294967296 := UInt32.toNat_lt _
  simp only [describedAreas, List.mem_cons, List.not_mem_nil, or_false] at hk
  rcases hk with rfl | rfl | rfl | rfl | rfl
  · obtain ⟨-, data, hdata, rfl⟩ := prepareDescriptor_eq_ok.1 h
    obtain rfl := Option.some.inj (hbuf.symm.trans hdata)
    rw [areaVerifies_iff hbuf (show blkBmapHdrSize % 65536 < 65536 by decide)]
    exact ⟨And.left, fun hle => ⟨hle, rfl⟩⟩
  · obtain ⟨-, data, hdata, rfl⟩ := prepareDescriptor_eq_ok.1 h
    obtain rfl := Option.some.inj (hbuf.symm.trans hdata)
    obtain ⟨data, rfl⟩ := hsealed rfl
    rw [areaVerifies_iff hbuf (UInt16.toNat_lt _), check_sealRecord]
    refine ⟨And.left, fun hle => ⟨hle, ?_⟩⟩
    exact congrArg (fun m => ssdfsCrc32Le crc32 (slice m 0 blk2offTblHdrSize))
      (clearCsum_sealRecord ..).symm
  · obtain ⟨-, data, hdata, rfl⟩ := prepareDescriptor_eq_ok.1 h
    obtain rfl := Option.some.inj (hbuf.symm.trans hdata)
    rw [areaVerifies_iff hbuf (Nat.mod_lt _ (by decide))]
    unfold crc32Check ssdfsCrc32Le AreaPasses checkedBytes Word.u16
    simp only [slice_zero]
    rw [UInt32.not_inj, eq_comm]
    exact and_iff_right (Nat.mod_le ..)
  · obtain ⟨-, data, hdata, rfl⟩ := prepareDescriptor_eq_ok.1 h
    obtain rfl := Option.some.inj (hbuf.symm.trans hdata)
    have hle : Word.u16 (min extent.bytesCount.toNat pageCacheSize) ≤ extent.bytesCount.toNat :=
      Nat.le_trans (Word.u16_le _) (Nat.min_le_left ..)
    rw [areaVerifies_iff hbuf (Nat.mod_lt _ (by decide))]
    exact ⟨fun _ => trivial, fun _ => ⟨hle, rfl⟩⟩
  · obtain ⟨-, h⟩ := bugOn_bind_eq_ok.1 h
    obtain ⟨-, data, hdata, -, hsum, rfl⟩ := (prepareMaptblCache_eq_ok hcrc hn).1 h
    obtain rfl := Option.some.inj (hbuf.symm.trans hdata)
    rw [areaVerifies_iff hbuf (Nat.lt_trans hsum (by decide))]
    unfold ssdfsCrc32Le AreaPasses checkedBytes
    simp only [slice_zero]
    rw [UInt32.not_inj]

theorem prepare_congr (hcrc : RunningChecksum crc32) (hn : src.cache.fragmentsCount < Word.u16Max)
    {extent' : ExtentDesc} (hk : k ∈ SegHdr.areas) (hoffset : extent'.offset = extent.offset)
    (hbytes : extent'.bytesCount = extent.bytesCount)
    (hbuf : extent.buf = some buf) {buf' : Bytes} (hbuf' : extent'.buf = some buf')
    (hused : k = .maptblCache → ∀ i < src.cache.fragmentsCount,
      cacheUsed layout.pageSize.bytes buf' i = cacheUsed layout.pageSize.bytes buf i)
    (h : prepareMetadataDescriptor crc32 layout src segType extent k = .ok desc) :
    ∃ desc', prepareMetadataDescriptor crc32 layout src segType extent' k = .ok desc' := by
  have hplaced : extent'.Placed layout ↔ extent.Placed layout := by
    unfold ExtentDesc.Placed
    rw [hoffset, hbytes]
  have hgeneral : ∀ {check check'}, prepareDescriptor layout extent check = .ok desc →
      ∃ desc', prepareDescriptor layout extent' check' = .ok desc' := fun h =>
    ⟨_, prepareDescriptor_eq_ok.2 ⟨hplaced.2 (prepareDescriptor_eq_ok.1 h).1, buf', hbuf', rfl⟩⟩
  simp only [SegHdr.areas, List.mem_cons, List.not_mem_nil, or_false] at hk
  rcases hk with rfl | rfl | rfl | rfl | rfl | rfl
  · exact hgeneral h
  · exact hgeneral h
  · exact hgeneral h
  · obtain ⟨htype, h⟩ := bugOn_bind_eq_ok.1 h
    obtain ⟨hok, data, hdata, hlt, hsum, -⟩ := (prepareMaptblCache_eq_ok hcrc hn).1 h
    obtain rfl := Option.some.inj (hbuf.symm.trans hdata)
    have hsum' := Finset.sum_congr rfl fun i hi => hused rfl i (Finset.mem_range.1 hi)
    rw [← hsum'] at hsum
    exact ⟨_, bugOn_bind_eq_ok.2 ⟨htype, (prepareMaptblCache_eq_ok hcrc hn).2
      ⟨hplaced.2 hok, buf', hbuf', hbytes ▸ hlt, hsum, rfl⟩⟩⟩
  · exact hgeneral h
  · exact hgeneral h

end

end Ssdfs
