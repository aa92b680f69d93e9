import Ssdfs.Blkbmap.Encode
import Ssdfs.Commit.Check
import Ssdfs.Log.Pages

namespace Ssdfs

open Memory

structure CommitSource where
  vh : Bytes
  vs : Bytes
  uuid : Bytes
  createTimestamp : UInt64
  createCno : UInt64
  calculatedOpenZones : UInt32
  sbLogPages : UInt16
  segbmapLogPages : UInt16
  maptblLogPages : UInt16
  cache : MaptblCache
  blkbmapBackup : Bool
  blk2offBackup : Bool

def segmentHdrMagic : UInt16 := 0x5348

namespace SegHdr

def checkOffset : Nat := 8
def logPagesOffset : Nat := 0x410
def segFlagsOffset : Nat := 0x414
def descArrayOffset : Nat := 0x418

def descIndex : ExtentIndex → Nat
  | .offsetTable => 2
  | .logPayload => 3
  | .blockDescriptors => 6
  | .maptblCache => 7
  | .logFooter => 8
  | _ => 0

def descOffset (k : ExtentIndex) : Nat :=
  descArrayOffset + descIndex k * MetadataDescriptorRecord.wire.size

def isPartial : UInt32 := 256
def partialHeaderInsteadFooter : UInt32 := 1024

def flag (segFlags : UInt32) : ExtentIndex → UInt32
  | .blockBitmap => 1
  | .offsetTable => 2
  | .logPayload => 4
  | .blockDescriptors => 32
  | .maptblCache => 64
  | .logFooter => if segFlags &&& isPartial ≠ 0 then partialHeaderInsteadFooter else 128
  | _ => 0

def areas : List ExtentIndex :=
  [.blockBitmap, .offsetTable, .blockDescriptors, .maptblCache, .logPayload, .logFooter]

end SegHdr

def recordCheckOffset : Nat := 8

def PebContent.setBuf (peb : PebContent) (k : ExtentIndex) (buf : Bytes) : PebContent :=
  { peb with extents := Function.update peb.extents k { peb.extents k with buf := some buf } }

section

variable (crc32 : UInt32 → List UInt8 → UInt32) (layout : VolumeLayout)

/-- The check over the first `len` bytes of an area, of which 16 bits of `bytes` are recorded. -/
def crc32Check (buf : Bytes) (bytes len : Nat) : MetadataCheck :=
  ⟨Word.u16 bytes, crc32Flag, ssdfsCrc32Le crc32 (slice buf 0 len)⟩

def prepareDescriptor (extent : ExtentDesc) (check : Bytes → MetadataCheck) :
    Mkfs MetadataDescriptor := do
  let eraseSize := layout.env.eraseSize.toNat
  bugOn (extent.bytesCount = 0 ∨ extent.bytesCount.toNat ≥ eraseSize)
  bugOn (extent.offset = 0 ∨ extent.offset.toNat ≥ eraseSize)
  let buf ← extent.contents
  .ok ⟨extent.offset.toNat, extent.bytesCount.toNat, check buf⟩

def prepareBlkbmapMetadataDescriptor (extent : ExtentDesc) : Mkfs MetadataDescriptor :=
  prepareDescriptor layout extent fun buf => crc32Check crc32 buf blkBmapHdrSize blkBmapHdrSize

def prepareOffsetTableMetadataDescriptor (extent : ExtentDesc) : Mkfs MetadataDescriptor :=
  prepareDescriptor layout extent fun buf =>
    (MetadataCheckRecord.wire.read buf recordCheckOffset).check

def prepareBlkDescTableMetadataDescriptor (extent : ExtentDesc) : Mkfs MetadataDescriptor :=
  prepareDescriptor layout extent fun buf =>
    crc32Check crc32 buf extent.bytesCount.toNat extent.bytesCount.toNat

def preparePayloadMetadataDescriptor (extent : ExtentDesc) : Mkfs MetadataDescriptor :=
  prepareDescriptor layout extent fun buf =>
    let bytes := min extent.bytesCount.toNat pageCacheSize
    crc32Check crc32 buf bytes (Word.u16 bytes)

def prepareFooterMetadataDescriptor (extent : ExtentDesc) : Mkfs MetadataDescriptor :=
  prepareDescriptor layout extent fun buf =>
    (MetadataCheckRecord.wire.read buf recordCheckOffset).check

variable (src : CommitSource)

def prepareMetadataDescriptor (segType : Option MetaIndex) (extent : ExtentDesc) :
    ExtentIndex → Mkfs MetadataDescriptor
  | .blockBitmap => prepareBlkbmapMetadataDescriptor crc32 layout extent
  | .offsetTable => prepareOffsetTableMetadataDescriptor layout extent
  | .blockDescriptors => prepareBlkDescTableMetadataDescriptor crc32 layout extent
  | .maptblCache => do
    bugOn (segType ≠ some .superblock)
    prepareMaptblCacheMetadataDescriptor crc32 layout src.cache extent
  | .logPayload => preparePayloadMetadataDescriptor crc32 layout extent
  | _ => prepareFooterMetadataDescriptor layout extent

def committedLogPages (segType : Option MetaIndex) (blksCount : Nat) : Mkfs (Nat × Bool) := do
  let checked (logPages : Nat) : Mkfs Nat := do
    let logPages := min logPages logMaxPages
    bugOn (logPages = 0)
    bugOn (logPages ≥ Word.u16Max)
    .ok logPages
  match segType with
  | some .initialSnapshot => do
    let logPages ← checked blksCount
    .ok (logPages, false)
  | some .superblock => do
    let logPages ← checked src.sbLogPages.toNat
    .ok (logPages, false)
  | some .segbmap => do
    let logPages ← checked src.segbmapLogPages.toNat
    .ok (logPages, logPages ≠ blksCount)
  | some .pebMappingTable => do
    let logPages ← checked src.maptblLogPages.toNat
    .ok (logPages, logPages ≠ blksCount)
  | _ => .ok (min layout.pagesPerPeb logMaxPages, false)

def commitDescriptor (segType : Option MetaIndex) (peb : PebContent) (k : ExtentIndex)
    (st : Bytes × UInt32) : Mkfs (Bytes × UInt32) :=
  let extent := peb.extents k
  if extent.bytesCount.toNat > 0 then do
    let desc ← prepareMetadataDescriptor crc32 layout src segType extent k
    .ok (MetadataDescriptorRecord.wire.write st.1 (SegHdr.descOffset k) desc.record,
      st.2 ||| SegHdr.flag st.2 k)
  else .ok st

def commitSegmentHeader (segType : Option MetaIndex) (blksCount : Nat) (peb : PebContent) :
    Mkfs PebContent := do
  let hdr ← (peb.extents .segHeader).contents
  bugOn (blksCount ≥ ushrtMax)
  let (logPages, less) ← committedLogPages layout src segType blksCount
  let hdr := Wire.u16.write hdr SegHdr.logPagesOffset (UInt16.ofNat logPages)
  let (hdr, segFlags) ← Checked.forEach (commitDescriptor crc32 layout src segType peb)
    SegHdr.areas (hdr, if less then SegHdr.isPartial else 0)
  let hdr := Wire.u32.write hdr SegHdr.segFlagsOffset segFlags
  .ok (peb.setBuf .segHeader (sealRecord crc32 hdr SegHdr.checkOffset segmentHeaderSize))

/-- `__commit_offset_table` seals the header of the table. -/
def commitOffsetTable (k : ExtentIndex) (peb : PebContent) : Mkfs PebContent := do
  let buf ← (peb.extents k).contents
  .ok (peb.setBuf k (sealRecord crc32 buf recordCheckOffset blk2offTblHdrSize))

end

section

variable {crc32 : UInt32 → List UInt8 → UInt32} {layout : VolumeLayout} {src : CommitSource}
  {segType : Option MetaIndex} {peb peb' : PebContent} {blksCount : Nat} {hdr : Bytes}
  {k : ExtentIndex} {st st' : Bytes × UInt32}

theorem descOffset_disjoint {j : ExtentIndex} (hk : k ∈ SegHdr.areas) (hj : j ∈ SegHdr.areas)
    (hne : j ≠ k) : SegHdr.descOffset k + 16 ≤ SegHdr.descOffset j ∨
      SegHdr.descOffset j + 16 ≤ SegHdr.descOffset k := by
  have h : ∀ k ∈ SegHdr.areas, ∀ j ∈ SegHdr.areas, j ≠ k →
      SegHdr.descOffset k + 16 ≤ SegHdr.descOffset j ∨
        SegHdr.descOffset j + 16 ≤ SegHdr.descOffset k := by decide
  exact h k hk j hj hne

theorem descOffset_ge (k : ExtentIndex) : 0x418 ≤ SegHdr.descOffset k := Nat.le_add_right ..

/-- The descriptors of `ks` are those that the areas are described with. -/
def Described (crc32 : UInt32 → List UInt8 → UInt32) (layout : VolumeLayout) (src : CommitSource)
    (segType : Option MetaIndex) (peb : PebContent) (hdr : Bytes) (ks : List ExtentIndex) : Prop :=
  ∀ k ∈ ks, 0 < (peb.extents k).bytesCount.toNat → ∃ desc,
    prepareMetadataDescriptor crc32 layout src segType (peb.extents k) k = .ok desc ∧
      MetadataDescriptorRecord.wire.read hdr (SegHdr.descOffset k) = desc.record

theorem Described.congr {hdr' : Bytes} {ks : List ExtentIndex}
    (h : Described crc32 layout src segType peb hdr ks)
    (hsame : ∀ k ∈ ks, MetadataDescriptorRecord.wire.read hdr' (SegHdr.descOffset k) =
      MetadataDescriptorRecord.wire.read hdr (SegHdr.descOffset k)) :
    Described crc32 layout src segType peb hdr' ks := by
  intro k hk hpos
  rw [hsame k hk]
  exact h k hk hpos

theorem Described.step {ks : List ExtentIndex} (h : Described crc32 layout src segType peb st.1 ks)
    (hks : ∀ j ∈ ks, j ∈ SegHdr.areas ∧ j ≠ k) (hk : k ∈ SegHdr.areas)
    (hstep : commitDescriptor crc32 layout src segType peb k st = .ok st') :
    Described crc32 layout src segType peb st'.1 (ks ++ [k]) := by
  unfold commitDescriptor at hstep
  simp only at hstep
  split at hstep
  case isTrue =>
    obtain ⟨desc, hdesc, hstep⟩ := Checked.bind_eq_ok.1 hstep
    cases hstep
    intro j hj hpos
    rcases List.mem_append.1 hj with hj | hj
    · have hdisjoint := descOffset_disjoint (hks j hj).1 hk (hks j hj).2.symm
      simp only
      rw [Wire.read_write_of_disjoint _ _ (by simpa using hdisjoint)]
      exact h j hj hpos
    · obtain rfl := List.mem_singleton.1 hj
      exact ⟨desc, hdesc, MetadataDescriptorRecord.wire.read_write ..⟩
  case isFalse hzero =>
    cases hstep
    intro j hj hpos
    rcases List.mem_append.1 hj with hj | hj
    · exact h j hj hpos
    · obtain rfl := List.mem_singleton.1 hj
      exact absurd hpos hzero

theorem forEach_commitDescriptor
    (h : Checked.forEach (commitDescriptor crc32 layout src segType peb) SegHdr.areas st = .ok st') :
    Described crc32 layout src segType peb st'.1 SegHdr.areas := by
  have h0 : [] <+: SegHdr.areas → Described crc32 layout src segType peb st.1 [] :=
    fun _ k hk => absurd hk List.not_mem_nil
  refine Checked.forEach_ind (fun ks (st : Bytes × UInt32) => ks <+: SegHdr.areas →
    Described crc32 layout src segType peb st.1 ks) h h0 (fun ks k t t' ht hstep hks => ?_)
    (List.prefix_refl _)
  -- a part of the list in front of an area has neither that area nor any other one twice
  have hnodup : (ks ++ [k]).Nodup := hks.sublist.nodup (by decide)
  have hhead : ks <+: SegHdr.areas := (List.prefix_append ks [k]).trans hks
  refine (ht hhead).step (fun j hj => ⟨hhead.subset hj, ?_⟩) (hks.subset (by simp)) hstep
  rintro rfl
  exact (List.nodup_append.1 hnodup).2.2 j hj j (List.mem_singleton.2 rfl) rfl

theorem commitSegmentHeader_described
    (h : commitSegmentHeader crc32 layout src segType blksCount peb = .ok peb') :
    ∃ hdr, peb' = peb.setBuf .segHeader hdr ∧
      Described crc32 layout src segType peb hdr SegHdr.areas := by
  obtain ⟨buf, -, h⟩ := Checked.bind_eq_ok.1 h
  obtain ⟨-, h⟩ := bugOn_bind_eq_ok.1 h
  obtain ⟨⟨logPages, less⟩, -, h⟩ := Checked.bind_eq_ok.1 h
  obtain ⟨⟨hdr, segFlags⟩, hloop, h⟩ := Checked.bind_eq_ok.1 h
  cases h
  refine ⟨_, rfl, ?_⟩
  have hdescribed := forEach_commitDescriptor hloop
  refine hdescribed.congr fun k hk => ?_
  have hge := descOffset_ge k
  have hcheck : SegHdr.checkOffset + 8 ≤ SegHdr.descOffset k := Nat.le_trans (by decide) hge
  have hflags : SegHdr.segFlagsOffset + Wire.u32.size ≤ SegHdr.descOffset k :=
    Nat.le_trans (by decide) hge
  rw [read_sealRecord _ (.inr hcheck), Wire.read_write_of_disjoint _ _ (.inr hflags)]

end

end Ssdfs
