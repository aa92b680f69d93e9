import Ssdfs.Device.LogHeaders
import Ssdfs.Mkfs.CommitRun
import Ssdfs.Mkfs.Segments

namespace Ssdfs

open Memory

structure LogPlace where
  segType : UInt16
  segId : UInt64
  lebId : UInt64
  pebId : UInt64
  deriving DecidableEq

def SegHdr.place (hdr : Bytes) : LogPlace :=
  ⟨Wire.u16.read hdr segTypeOffset, Wire.u64.read hdr segIdOffset, Wire.u64.read hdr lebIdOffset,
    Wire.u64.read hdr pebIdOffset⟩

def MetaIndex.logType : MetaIndex → SegType
  | .initialSnapshot => .initialSnapshot
  | .superblock => .sb
  | .segbmap => .segbmap
  | .pebMappingTable => .maptbl
  | .userData => .userData

/-- The header has the volume header of the source but for the magic key and the check, and it names
the log. -/
structure NamesLog (src : CommitSource) (place : LogPlace) (hdr : Bytes) : Prop where
  key : Wire.u16.read hdr magicKeyOffset = segmentHdrMagic
  volume : ∀ i < 1024, i < 4 ∨ 6 ≤ i → i < 8 ∨ 16 ≤ i → hdr i = src.vh i
  timestamp : Wire.u64.read hdr SegHdr.timestampOffset = src.createTimestamp
  cno : Wire.u64.read hdr SegHdr.cnoOffset = src.createCno
  place : SegHdr.place hdr = place

structure SealedHeader (crc32 : UInt32 → List UInt8 → UInt32) (src : CommitSource) (place : LogPlace)
    (hdr : Bytes) : Prop extends NamesLog src place hdr where
  csum : isCsumValid crc32 hdr SegHdr.checkOffset segmentHeaderSize = true

section

variable {crc32 : UInt32 → List UInt8 → UInt32} {layout : VolumeLayout} {src : CommitSource}
  {place : LogPlace} {hdr hdr' buf : Bytes} {off bufSize : Nat} {peb peb' : PebContent}

theorem isCsumValid_congr (hoff : off + 8 ≤ bufSize) (h : ∀ i < bufSize, hdr' i = hdr i) :
    isCsumValid crc32 hdr' off bufSize = isCsumValid crc32 hdr off bufSize := by
  have hcheck : MetadataCheckRecord.wire.read hdr' off = MetadataCheckRecord.wire.read hdr off :=
    MetadataCheckRecord.wire.read_congr fun i hi => h _ (by
      rw [MetadataCheckRecord.wire_size] at hi
      omega)
  unfold isCsumValid ssdfsCalculateCsum
  simp only [hcheck]
  by_cases hfits : (MetadataCheckRecord.wire.read hdr off).bytes.toNat > bufSize
  · rw [failIf, if_pos hfits]
    rfl
  · have hslice : slice (clearCsum hdr' off) 0 (MetadataCheckRecord.wire.read hdr off).bytes.toNat =
        slice (clearCsum hdr off) 0 (MetadataCheckRecord.wire.read hdr off).bytes.toNat := by
      apply slice_congr
      intro i hi
      unfold clearCsum
      change poke hdr' 4 (off + 4) _ (0 + i) = poke hdr 4 (off + 4) _ (0 + i)
      unfold poke
      rw [h (0 + i) (by omega)]
    rw [hslice]

theorem NamesLog.congr (h : NamesLog src place hdr) (hsame : ∀ i < 2048, hdr' i = hdr i) :
    NamesLog src place hdr' where
  key := (Wire.u16.read_congr fun i hi =>
    hsame _ (Nat.lt_trans (Nat.add_lt_add_left hi _) (by decide))).trans h.key
  volume i hi hkey hcheck := (hsame i (by omega)).trans (h.volume i hi hkey hcheck)
  timestamp := (Wire.u64.read_congr fun i hi =>
    hsame _ (Nat.lt_trans (Nat.add_lt_add_left hi _) (by decide))).trans h.timestamp
  cno := (Wire.u64.read_congr fun i hi =>
    hsame _ (Nat.lt_trans (Nat.add_lt_add_left hi _) (by decide))).trans h.cno
  place := by
    rw [← h.place]
    have hlt : ∀ {α : Type} (w : Wire α) {off : Nat}, off + w.size < 2048 →
        w.read hdr' off = w.read hdr off :=
      fun w off hoff => w.read_congr fun i hi => hsame _ (by omega)
    unfold SegHdr.place
    rw [hlt Wire.u16 (by decide), hlt Wire.u64 (by decide), hlt Wire.u64 (by decide),
      hlt Wire.u64 (by decide)]

theorem SealedHeader.congr (h : SealedHeader crc32 src place hdr) (hsame : ∀ i < 2048, hdr' i = hdr i) :
    SealedHeader crc32 src place hdr' where
  toNamesLog := h.toNamesLog.congr hsame
  csum := (isCsumValid_congr (by decide) hsame).trans h.csum

theorem SealedHeader.valid (h : SealedHeader crc32 src place hdr)
    (hmagic : peek src.vh 4 0 = superMagic.toNat) : isValidSegmentHeader crc32 hdr = true := by
  have hcommon : peek hdr 4 0 = superMagic.toNat :=
    (peek_congr fun i hi => h.volume _ (by omega) (.inl (by omega)) (.inl (by omega))).trans hmagic
  have hkey : peek hdr 2 4 = segmentHdrMagic.toNat := by
    have hread : UInt16.ofNat (peek hdr 2 4) = segmentHdrMagic := h.key
    rw [← hread, UInt16.toNat_ofNat_of_lt' (peek_lt hdr 2 4)]
  unfold isValidSegmentHeader isSsdfsSegmentHeader hasMagic
  rw [h.csum, Bool.and_true]
  exact decide_eq_true ⟨hcommon, hkey⟩

theorem not_valid_of_zeros (h : ∀ i < 2048, hdr i = 0) : isValidSegmentHeader crc32 hdr = false := by
  have hzeros : peek hdr 4 0 = peek (fun _ => 0) 4 0 := peek_congr fun i hi => h _ (by omega)
  have hmagic : isSsdfsSegmentHeader hdr = false := by
    unfold isSsdfsSegmentHeader hasMagic
    rw [hzeros]
    rfl
  unfold isValidSegmentHeader
  rw [hmagic, Bool.false_and]

def logPlace (segType : SegType) (seg : SegmentDesc) (peb : PebContent) : LogPlace :=
  ⟨segType.code, UInt64.ofNat seg.segId, UInt64.ofNat peb.lebId, UInt64.ofNat peb.pebId⟩

theorem preCommitSegmentHeader_names {segType : SegType} {a : SegsArray} {segIndex pebIndex : Nat}
    (h : preCommitSegmentHeader src segType a segIndex pebIndex peb = .ok peb') :
    ∃ hdr, peb' = peb.setBuf .segHeader hdr ∧
      NamesLog src (logPlace segType (a.segs segIndex) peb) hdr := by
  obtain ⟨-, h⟩ := failIf_bind_eq_ok.1 h
  obtain ⟨-, h⟩ := failIf_bind_eq_ok.1 h
  obtain ⟨buf, -, h⟩ := Checked.bind_eq_ok.1 h
  cases h
  refine ⟨_, rfl, ?_, fun i hi hkey _ => ?_, ?_, ?_, ?_⟩
  · simp (disch := decide) only [Wire.read_write_of_disjoint, Wire.read_write]
  · have hbefore : ∀ {off}, 1024 ≤ off → i < off := fun hle => Nat.lt_of_lt_of_le hi hle
    have hapart : i < magicKeyOffset ∨ magicKeyOffset + Wire.u16.size ≤ i := hkey
    rw [Wire.u64.write_frame (.inl (hbefore (by decide))),
      Wire.u64.write_frame (.inl (hbefore (by decide))),
      Wire.u64.write_frame (.inl (hbefore (by decide))),
      Wire.u64.write_frame (.inl (hbefore (by decide))),
      Wire.u64.write_frame (.inl (hbefore (by decide))),
      Wire.u8.write_frame (.inl (hbefore (by decide))),
      Wire.u8.write_frame (.inl (hbefore (by decide))),
      Wire.u16.write_frame (.inl (hbefore (by decide))),
      Wire.u64.write_frame (.inl (hbefore (by decide))),
      Wire.u64.write_frame (.inl (hbefore (by decide))), Wire.u16.write_frame hapart]
    unfold copyRange
    rw [if_pos ⟨Nat.zero_le i, by omega⟩, Nat.zero_add, Nat.sub_zero]
  · simp (disch := decide) only [Wire.read_write_of_disjoint, Wire.read_write]
  · simp (disch := decide) only [Wire.read_write_of_disjoint, Wire.read_write]
  · unfold SegHdr.place logPlace
    simp (disch := decide) only [Wire.read_write_of_disjoint, Wire.read_write]

theorem commitDescriptor_frame {segType : Option MetaIndex} {st st' : Bytes × UInt32} {k : ExtentIndex}
    (h : commitDescriptor crc32 layout src segType peb k st = .ok st') {i : Nat}
    (hi : i < SegHdr.descArrayOffset ∨ SegHdr.pebMigrationIdOffset ≤ i) : st'.1 i = st.1 i := by
  have hlo : SegHdr.descArrayOffset ≤ SegHdr.descOffset k := Nat.le_add_right ..
  have hhi := descOffset_le k
  unfold commitDescriptor at h
  simp only at h
  split at h
  · obtain ⟨desc, -, h⟩ := Checked.bind_eq_ok.1 h
    cases h
    apply MetadataDescriptorRecord.wire.write_frame
    rw [MetadataDescriptorRecord.wire_size]
    omega
  · cases h
    rfl

theorem commitSegmentHeader_sealed {metaIndex : Option MetaIndex} {blks : Nat}
    (hbuf : (peb.extents .segHeader).buf = some hdr) (hnames : NamesLog src place hdr)
    (h : commitSegmentHeader crc32 layout src metaIndex blks peb = .ok peb') :
    ∃ hdr', peb' = peb.setBuf .segHeader hdr' ∧ SealedHeader crc32 src place hdr' := by
  obtain ⟨buf, hcontents, h⟩ := Checked.bind_eq_ok.1 h
  obtain rfl := Option.some.inj (hbuf.symm.trans (contents_eq_ok.1 hcontents))
  obtain ⟨-, h⟩ := bugOn_bind_eq_ok.1 h
  obtain ⟨⟨logPages, less⟩, -, h⟩ := Checked.bind_eq_ok.1 h
  obtain ⟨⟨hdr₁, segFlags⟩, hloop, h⟩ := Checked.bind_eq_ok.1 h
  cases h
  have hframe : ∀ i, i < SegHdr.checkOffset ∨ SegHdr.checkOffset + 8 ≤ i →
      i < SegHdr.logPagesOffset ∨ SegHdr.segTypeOffset ≤ i →
      i < SegHdr.segFlagsOffset ∨ SegHdr.pebMigrationIdOffset ≤ i →
      sealRecord crc32 (Wire.u32.write hdr₁ SegHdr.segFlagsOffset segFlags) SegHdr.checkOffset
        segmentHeaderSize i = hdr i := by
    intro i hcheck hpages hflags
    have hlast : i < SegHdr.descArrayOffset ∨ SegHdr.pebMigrationIdOffset ≤ i :=
      hflags.imp_left fun hlt => Nat.lt_trans hlt (by decide)
    have hdescs : hdr₁ i = Wire.u16.write hdr SegHdr.logPagesOffset (UInt16.ofNat logPages) i :=
      Checked.forEach_inv (fun st : Bytes × UInt32 => st.1 i =
        Wire.u16.write hdr SegHdr.logPagesOffset (UInt16.ofNat logPages) i) hloop rfl
        fun k st st' hst hstep => (commitDescriptor_frame hstep hlast).trans hst
    rw [sealRecord_frame hcheck, Wire.u32.write_frame (hflags.imp_right (Nat.le_trans (by decide))),
      hdescs, Wire.u16.write_frame (hpages.imp_right (Nat.le_trans (by decide)))]
  have hread : ∀ {α : Type} (w : Wire α) {off : Nat}, SegHdr.checkOffset + 8 ≤ off →
      off + w.size ≤ SegHdr.logPagesOffset ∨ SegHdr.segTypeOffset ≤ off →
      off + w.size ≤ SegHdr.segFlagsOffset ∨ SegHdr.pebMigrationIdOffset ≤ off →
      w.read (sealRecord crc32 (Wire.u32.write hdr₁ SegHdr.segFlagsOffset segFlags) SegHdr.checkOffset
        segmentHeaderSize) off = w.read hdr off := fun w off hcheck hpages hflags =>
    w.read_congr fun i hi => hframe _ (by omega) (by omega) (by omega)
  refine ⟨_, rfl, ⟨?_, fun i hi hkey hcheck => ?_, ?_, ?_, ?_⟩,
    isCsumValid_sealRecord (by decide) (Nat.le_refl _)⟩
  · rw [← hnames.key]
    apply Wire.u16.read_congr
    intro i hi
    have hlt : magicKeyOffset + i < SegHdr.checkOffset :=
      Nat.lt_trans (Nat.add_lt_add_left hi _) (by decide)
    exact hframe _ (.inl hlt) (.inl (Nat.lt_trans hlt (by decide))) (.inl (Nat.lt_trans hlt (by decide)))
  · rw [← hnames.volume i hi hkey hcheck]
    exact hframe i hcheck (.inl (Nat.lt_trans hi (by decide))) (.inl (Nat.lt_trans hi (by decide)))
  · rw [← hnames.timestamp]
    exact hread _ (by decide) (by decide) (by decide)
  · rw [← hnames.cno]
    exact hread _ (by decide) (by decide) (by decide)
  · rw [← hnames.place]
    unfold SegHdr.place
    rw [hread Wire.u16 (by decide) (by decide) (by decide),
      hread Wire.u64 (by decide) (by decide) (by decide),
      hread Wire.u64 (by decide) (by decide) (by decide),
      hread Wire.u64 (by decide) (by decide) (by decide)]

def PebContent.Sealed (crc32 : UInt32 → List UInt8 → UInt32) (src : CommitSource) (segType : SegType)
    (seg : SegmentDesc) (peb : PebContent) : Prop :=
  ∃ hdr, (peb.extents .segHeader).buf = some hdr ∧ SealedHeader crc32 src (logPlace segType seg peb) hdr

theorem commitHeaderLog_sealed {segType : SegType} {a : SegsArray} {segIndex : Nat}
    (h : commitHeaderLog crc32 layout src segType a segIndex peb = .ok peb') :
    peb'.Sealed crc32 src segType (a.segs segIndex) := by
  have hids := (commitHeaderLog_refilled h).ids
  obtain ⟨peb₁, hpre, h⟩ := Checked.bind_eq_ok.1 h
  obtain ⟨_, -, h⟩ := Checked.bind_eq_ok.1 h
  obtain ⟨blks, -, h⟩ := Checked.bind_eq_ok.1 h
  obtain ⟨peb₂, hfooter, hcommit⟩ := Checked.bind_eq_ok.1 h
  obtain ⟨hdr, rfl, hnames⟩ := preCommitSegmentHeader_names hpre
  have hkept : Rewritten [.logFooter] (peb.setBuf .segHeader hdr) peb₂ :=
    commitLogFooter_rewritten (by decide) hfooter
  have hbuf : (peb₂.extents .segHeader).buf = some hdr := by
    rw [hkept.keeps _ (by decide), PebContent.extents_setBuf_self]
  obtain ⟨hdr', rfl, hsealed⟩ := commitSegmentHeader_sealed hbuf hnames hcommit
  refine ⟨hdr', by rw [PebContent.extents_setBuf_self], ?_⟩
  unfold logPlace at hsealed ⊢
  rw [hids.1, hids.2]
  exact hsealed

theorem commitPeb_sealed {logs : MetaLogs} {a : SegsArray} {segIndex pebIndex : Nat}
    (h : commitPeb crc32 layout src logs a segIndex pebIndex peb = .ok peb') :
    peb'.Sealed crc32 src logs.segType (a.segs segIndex) := by
  have hids := (commitPeb_refilled h).ids
  obtain ⟨peb₆, hareas, h⟩ := Checked.bind_eq_ok.1 h
  obtain ⟨blks, -, h⟩ := Checked.bind_eq_ok.1 h
  obtain ⟨peb₇, hfooter, hcommit⟩ := Checked.bind_eq_ok.1 h
  obtain ⟨peb₁, hpre, hareas⟩ := Checked.bind_eq_ok.1 hareas
  obtain ⟨_, -, hareas⟩ := Checked.bind_eq_ok.1 hareas
  obtain ⟨payload, -, hareas⟩ := Checked.bind_eq_ok.1 hareas
  obtain ⟨_, -, hareas⟩ := Checked.bind_eq_ok.1 hareas
  obtain ⟨peb₂, hthreshold, hareas⟩ := Checked.bind_eq_ok.1 hareas
  obtain ⟨metadataBlks, -, hareas⟩ := Checked.bind_eq_ok.1 hareas
  obtain ⟨peb₃, hbitmap, hareas⟩ := Checked.bind_eq_ok.1 hareas
  obtain ⟨peb₄, htable, hareas⟩ := Checked.bind_eq_ok.1 hareas
  obtain ⟨peb₅, hbackup, htail⟩ := Checked.bind_eq_ok.1 hareas
  obtain ⟨hdr, rfl, hnames⟩ := preCommitSegmentHeader_names hpre
  have hkept : Rewritten [.logPayload, .blockBitmap, .offsetTable, .logFooter, .blockBitmapBackup,
      .offsetTableBackup] (peb.setBuf .segHeader hdr) peb₇ :=
    (((((((Rewritten.setBuf (by decide)).trans (defineMigrationThreshold_rewritten (by decide)
      hthreshold)).trans (commitBlockBitmap_ok (by decide) hbitmap).1).trans
        (commitOffsetTable_rewritten (by decide) htable)).trans
          (commitBlockBitmapBackup_ok (by decide) hbackup).1).trans
            (commitOffsetTableBackup_rewritten (by decide) htail)).trans
              (commitLogFooter_rewritten (by decide) hfooter))
  have hbuf : (peb₇.extents .segHeader).buf = some hdr := by
    rw [hkept.keeps _ (by decide), PebContent.extents_setBuf_self]
  obtain ⟨hdr', rfl, hsealed⟩ := commitSegmentHeader_sealed hbuf hnames hcommit
  refine ⟨hdr', by rw [PebContent.extents_setBuf_self], ?_⟩
  unfold logPlace at hsealed ⊢
  rw [hids.1, hids.2]
  exact hsealed

end

namespace SegsArray

variable {crc32 : UInt32 → List UInt8 → UInt32} {src : CommitSource} {a a' a'' : SegsArray}
  {site : Nat × Nat} {places places' : Set (Nat × Nat)}

def SealedAt (crc32 : UInt32 → List UInt8 → UInt32) (src : CommitSource) (a : SegsArray)
    (site : Nat × Nat) : Prop :=
  ∃ metaIndex, (a.segs site.1).segType = some metaIndex ∧
    (a.content site).Sealed crc32 src metaIndex.logType (a.segs site.1)

structure Seals (crc32 : UInt32 → List UInt8 → UInt32) (src : CommitSource) (places : Set (Nat × Nat))
    (a a' : SegsArray) : Prop extends Refills a a' where
  headers : ∀ site ∈ places, a'.SealedAt crc32 src site
  others : ∀ site ∉ places, a'.content site = a.content site

theorem SealedAt.congr (h : a.SealedAt crc32 src site) (hrefills : a.Refills a')
    (hsame : a'.content site = a.content site) : a'.SealedAt crc32 src site := by
  obtain ⟨metaIndex, htype, hdr, hbuf, hsealed⟩ := h
  obtain ⟨htype', hid, -⟩ := hrefills.segs site.1
  refine ⟨metaIndex, htype'.trans htype, hdr, by rw [hsame, hbuf], ?_⟩
  unfold logPlace at hsealed ⊢
  rw [hid, hsame]
  exact hsealed

namespace Seals

theorem refl : Seals crc32 src ∅ a a := ⟨.refl, fun _ hsite => hsite.elim, fun _ _ => rfl⟩

theorem setCount {n : Nat} : Seals crc32 src ∅ a { a with segsCount := n } :=
  ⟨.setCount, fun _ hsite => hsite.elim, fun _ _ => rfl⟩

theorem trans (h : Seals crc32 src places a a') (h' : Seals crc32 src places' a' a'') :
    Seals crc32 src (places ∪ places') a a'' where
  toRefills := h.toRefills.trans h'.toRefills
  headers site hsite := by
    by_cases hlast : site ∈ places'
    · exact h'.headers site hlast
    · exact (h.headers site (hsite.resolve_right hlast)).congr h'.toRefills (h'.others site hlast)
  others site hsite := by
    apply (h'.others site _).trans (h.others site _)
    · exact fun hlast => hsite (.inr hlast)
    · exact fun hfirst => hsite (.inl hfirst)

theorem finish {n : Nat} (h : Seals crc32 src places a a') :
    Seals crc32 src places a { a' with segsCount := n } :=
  Set.union_empty places ▸ h.trans setCount

theorem setPeb {i j : Nat} {metaIndex : MetaIndex} {peb : PebContent}
    (htype : (a.segs i).segType = some metaIndex) (hrefilled : Refilled ((a.segs i).pebs j) peb)
    (hsealed : peb.Sealed crc32 src metaIndex.logType (a.segs i)) :
    Seals crc32 src {(i, j)} a (a.setPeb i j peb) := by
  have hrefills : Refills a (a.setPeb i j peb) := .setPeb hrefilled
  have hhere : (a.setPeb i j peb).content (i, j) = peb := by
    unfold content SegsArray.setPeb setSeg
    simp only [Function.update_self]
  refine ⟨hrefills, fun site hsite => ?_, fun site hsite => ?_⟩
  · obtain rfl : site = (i, j) := hsite
    obtain ⟨hdr, hbuf, hheader⟩ := hsealed
    refine ⟨metaIndex, (hrefills.segs i).1.trans htype, hdr, by rw [hhere, hbuf], ?_⟩
    rw [hhere]
    unfold logPlace at hheader ⊢
    rw [(hrefills.segs i).2.1]
    exact hheader
  · unfold content SegsArray.setPeb setSeg
    simp only [Function.update_apply]
    split
    case isTrue hi =>
      have hj : site.2 ≠ j := fun hj => hsite (Prod.ext hi hj)
      rw [hi]
      exact Function.update_of_ne hj ..
    case isFalse => rfl

end Seals

end SegsArray

/-- The first `m` places of a table that has its segments from `start` on. -/
def tableSites (pebsPerSeg start m : Nat) : Set (Nat × Nat) :=
  {site | start ≤ site.1 ∧ site.2 < pebsPerSeg ∧ (site.1 - start) * pebsPerSeg + site.2 < m}

section

variable {pebsPerSeg start m i j : Nat}

@[simp] theorem mem_tableSites :
    (start + i, j) ∈ tableSites pebsPerSeg start m ↔ j < pebsPerSeg ∧ i * pebsPerSeg + j < m := by
  change start ≤ start + i ∧ j < pebsPerSeg ∧ (start + i - start) * pebsPerSeg + j < m ↔ _
  rw [Nat.add_sub_cancel_left]
  exact ⟨And.right, fun h => ⟨Nat.le_add_right start i, h⟩⟩

@[simp] theorem tableSites_zero : tableSites pebsPerSeg start 0 = ∅ := by
  ext site
  exact ⟨fun h => absurd h.2.2 (Nat.not_lt_zero _), False.elim⟩

theorem tableSites_succ (hj : j < pebsPerSeg) : tableSites pebsPerSeg start (i * pebsPerSeg + j + 1) =
    tableSites pebsPerSeg start (i * pebsPerSeg + j) ∪ {(start + i, j)} := by
  ext ⟨k, l⟩
  constructor
  · rintro ⟨hstart, hl, hlt⟩
    obtain ⟨i', rfl⟩ := Nat.exists_eq_add_of_le hstart
    simp only at hl hlt
    rw [Nat.add_sub_cancel_left] at hlt
    rcases Nat.lt_succ_iff_lt_or_eq.1 hlt with hbefore | hhere
    · exact .inl (mem_tableSites.2 ⟨hl, hbefore⟩)
    · obtain ⟨rfl, rfl⟩ := pebIndex_inj hj hl hhere
      exact .inr rfl
  · rintro (⟨hstart, hl, hlt⟩ | heq)
    · exact ⟨hstart, hl, Nat.lt_succ_of_lt hlt⟩
    · obtain ⟨rfl, rfl⟩ := Prod.mk.inj heq
      exact mem_tableSites.2 ⟨hj, Nat.lt_succ_self _⟩

theorem lt_of_mem_tableSites {n : Nat} {site : Nat × Nat}
    (h : site ∈ tableSites pebsPerSeg start (min (n * pebsPerSeg) m)) : site.1 < start + n := by
  obtain ⟨hstart, -, hlt⟩ := h
  by_contra hge
  have hle := Nat.mul_le_mul_right pebsPerSeg (by omega : n ≤ site.1 - start)
  omega

end

/-- The payloads of the first `m` PEBs of a table that has `n` segments from `start` on begin with the
magic, and no other ones. -/
def PayloadsMarked (magic : UInt16) (pebsPerSeg start n m : Nat) (a : SegsArray) : Prop :=
  ∀ i < n, ∀ j < pebsPerSeg, ∀ payload,
    (((a.segs (start + i)).pebs j).extents .logPayload).buf = some payload →
      (Wire.u16.read payload 0 = magic ↔ i * pebsPerSeg + j < m)

section

variable {crc32 : UInt32 → List UInt8 → UInt32} {layout : VolumeLayout} {src : CommitSource}
  {options : LogOptions} {a a' : SegsArray} {logs : MetaLogs} {segIndex pebIndex : Nat}
  {c c' : Creation} {g : SegbmapGeometry} {start n m i j k q : Nat} {places : Set (Nat × Nat)}
  {st st' : SegsArray × Nat}

theorem PayloadsMarked.congr {magic : UInt16} {pebsPerSeg : Nat} (h : PayloadsMarked magic pebsPerSeg start n m a)
    (hseals : a.Seals crc32 src places a') (hapart : ∀ i < n, ∀ j, (start + i, j) ∉ places) :
    PayloadsMarked magic pebsPerSeg start n m a' := by
  intro i hi j hj payload hpayload
  have hsame : (a'.segs (start + i)).pebs j = (a.segs (start + i)).pebs j :=
    hseals.others (start + i, j) (hapart i hi j)
  rw [hsame] at hpayload
  exact h i hi j hj payload hpayload

/-- The loops over a table of which `m` PEBs have the magic have come to PEB `q`. -/
structure CommittingTable (crc32 : UInt32 → List UInt8 → UInt32) (src : CommitSource)
    (pebsPerSeg start m : Nat) (a : SegsArray) (q : Nat) (st : SegsArray × Nat) : Prop where
  index : st.2 = min q m
  seals : a.Seals crc32 src (tableSites pebsPerSeg start (min q m)) st.1

theorem CommittingTable.skip {pebsPerSeg q' : Nat} (h : CommittingTable crc32 src pebsPerSeg start m a q st)
    (hm : m ≤ q) (hle : q ≤ q') : CommittingTable crc32 src pebsPerSeg start m a q' st := by
  have hmin : min q' m = min q m := by omega
  exact ⟨h.index.trans hmin.symm, hmin ▸ h.seals⟩

theorem CommittingTable.step (h : CommittingTable crc32 src logs.pebsPerSeg start m a
      (i * logs.pebsPerSeg + j) st) (hlogs : logs.segType = logs.metaIndex.logType)
    (htype : (a.segs (start + i)).segType = some logs.metaIndex) (hj : j < logs.pebsPerSeg)
    (hm : i * logs.pebsPerSeg + j < m) {peb : PebContent}
    (hpeb : commitPeb crc32 layout src logs st.1 (start + i) j ((st.1.segs (start + i)).pebs j) =
      .ok peb) :
    CommittingTable crc32 src logs.pebsPerSeg start m a (i * logs.pebsPerSeg + (j + 1))
      (st.1.setPeb (start + i) j peb, st.2 + 1) := by
  have hindex := h.index
  have hseals := h.seals
  rw [Nat.min_eq_left (Nat.le_of_lt hm)] at hindex hseals
  have hnext : min (i * logs.pebsPerSeg + (j + 1)) m = i * logs.pebsPerSeg + j + 1 :=
    Nat.min_eq_left hm
  refine ⟨(congrArg (· + 1) hindex).trans hnext.symm, ?_⟩
  rw [hnext, tableSites_succ hj]
  apply hseals.trans
  exact SegsArray.Seals.setPeb ((hseals.segs _).1.trans htype) (commitPeb_refilled hpeb)
    (hlogs ▸ commitPeb_sealed hpeb)

theorem commitPebs_seals {rest : Nat} (hlogs : logs.segType = logs.metaIndex.logType)
    (htype : (a.segs (start + i)).segType = some logs.metaIndex)
    (hmarked : PayloadsMarked logs.magic logs.pebsPerSeg start n m a) (hm : m ≤ logs.fragmentsCount)
    (hi : i < n) (hrest : j + rest = logs.pebsPerSeg)
    (h : CommittingTable crc32 src logs.pebsPerSeg start m a (i * logs.pebsPerSeg + j) st)
    (hrun : commitPebs crc32 layout src logs (start + i) rest j st = .ok st') :
    CommittingTable crc32 src logs.pebsPerSeg start m a ((i + 1) * logs.pebsPerSeg) st' := by
  rw [Nat.succ_mul]
  induction rest generalizing j st with
  | zero =>
    cases hrun
    obtain rfl : j = logs.pebsPerSeg := hrest
    exact h
  | succ rest ih =>
    have hindex := h.index
    have hj : j < logs.pebsPerSeg := by omega
    unfold commitPebs at hrun
    split at hrun
    case isTrue hdone =>
      cases hrun
      exact h.skip (by omega) (by omega)
    case isFalse =>
      obtain ⟨-, hrun⟩ := bugOn_bind_eq_ok.1 hrun
      obtain ⟨payload, hpayload, hrun⟩ := Checked.bind_eq_ok.1 hrun
      have hsame : (st.1.segs (start + i)).pebs j = (a.segs (start + i)).pebs j := by
        apply h.seals.others (start + i, j)
        intro hin
        exact absurd (mem_tableSites.1 hin).2 (by omega)
      rw [hsame] at hpayload
      have hmagic := hmarked i hi j hj payload (contents_eq_ok.1 hpayload)
      split at hrun
      case isTrue hnone =>
        cases hrun
        have hbehind := mt hmagic.2 hnone
        exact h.skip (Nat.not_lt.1 hbehind) (by omega)
      case isFalse hfound =>
        obtain ⟨peb, hpeb, hrun⟩ := Checked.bind_eq_ok.1 hrun
        exact ih (by omega) (h.step hlogs htype hj (hmagic.1 (Decidable.not_not.1 hfound)) hpeb) hrun

theorem metaMkfsCommit_seals (hlogs : logs.segType = logs.metaIndex.logType)
    (hplaces : (a.metaArray logs.metaIndex).startSegIndex = start ∧
      (a.metaArray logs.metaIndex).segsCount = n)
    (htypes : ∀ i < n, (a.segs (start + i)).segType = some logs.metaIndex)
    (hmarked : PayloadsMarked logs.magic logs.pebsPerSeg start n m a) (hm : m ≤ logs.fragmentsCount)
    (h : metaMkfsCommit crc32 layout src logs a = .ok a') :
    a.Seals crc32 src (tableSites logs.pebsPerSeg start (min (n * logs.pebsPerSeg) m)) a' := by
  obtain ⟨-, h⟩ := failIf_bind_eq_ok.1 h
  obtain ⟨-, h⟩ := failIf_bind_eq_ok.1 h
  obtain ⟨st, hloop, h⟩ := Checked.bind_eq_ok.1 h
  cases h
  rw [hplaces.1, hplaces.2] at hloop
  have hstart : CommittingTable crc32 src logs.pebsPerSeg start m a (0 * logs.pebsPerSeg) (a, 0) := by
    rw [Nat.zero_mul]
    refine ⟨(Nat.zero_min m).symm, ?_⟩
    rw [Nat.zero_min, tableSites_zero]
    exact .refl
  have hrun := Checked.forRange_ind (fun i t => CommittingTable crc32 src logs.pebsPerSeg start m a
    (i * logs.pebsPerSeg) t) hloop hstart fun i hi t t' ht hstep =>
      commitPebs_seals hlogs (htypes i hi) hmarked hm hi (Nat.zero_add _) ht hstep
  exact hrun.seals.finish

theorem commitFirstPeb_seals {metaIndex : MetaIndex}
    (htype : (c.a.segs segIndex).segType = some metaIndex)
    (h : commitFirstPeb crc32 layout metaIndex.logType segIndex c = .ok c') :
    c.a.Seals crc32 c.src {(segIndex, 0)} c'.a ∧ c'.src = c.src := by
  obtain ⟨peb, hpeb, h⟩ := Checked.bind_eq_ok.1 h
  cases h
  exact ⟨SegsArray.Seals.setPeb htype (commitHeaderLog_refilled hpeb) (commitHeaderLog_sealed hpeb), rfl⟩

theorem snapMkfsCommit_seals (hstart : (c.a.metaArray .initialSnapshot).startSegIndex = 0)
    (htype : (c.a.segs 0).segType = some .initialSnapshot) (h : c.snapMkfsCommit crc32 layout = .ok c') :
    c.a.Seals crc32 c.src {(0, 0)} c'.a ∧ c'.src = c.src := by
  obtain ⟨-, h⟩ := failIf_bind_eq_ok.1 h
  obtain ⟨-, h⟩ := failIf_bind_eq_ok.1 h
  obtain ⟨c₁, hpeb, h⟩ := Checked.bind_eq_ok.1 h
  cases h
  rw [hstart] at hpeb
  obtain ⟨hseals, hsrc⟩ := commitFirstPeb_seals htype hpeb
  exact ⟨hseals.finish, hsrc⟩

/-- The first PEBs of the first `n` superblock segments. -/
def sbSites (n : Nat) : Set (Nat × Nat) := {site | site.2 = 0 ∧ 1 ≤ site.1 ∧ site.1 < 1 + n}

@[simp] theorem sbSites_zero : sbSites 0 = ∅ := by
  ext site
  exact ⟨fun h => absurd (Nat.lt_of_le_of_lt h.2.1 h.2.2) (Nat.lt_irrefl 1), False.elim⟩

theorem sbSites_succ : sbSites (n + 1) = sbSites n ∪ {(1 + n, 0)} := by
  ext ⟨s, p⟩
  unfold sbSites
  simp only [Set.mem_ofPred_eq, Set.mem_union, Set.mem_singleton_iff, Prod.mk.injEq]
  omega

/-- The first `n` of the superblock segments are done, of which the first two are the current ones. -/
structure CommittingSb (crc32 : UInt32 → List UInt8 → UInt32) (c : Creation) (n : Nat) (t : Creation) :
    Prop where
  seals : c.a.Seals crc32 c.src (sbSites (min n 2)) t.a
  src : t.src = c.src

theorem commitSbSeg_seals {t t' : Creation}
    (htypes : ∀ i < 2, (c.a.segs (1 + i)).segType = some .superblock)
    (h : CommittingSb crc32 c (i * sbSegCopyMax + j) t) (hj : j < sbSegCopyMax)
    (hrun : commitSbSeg crc32 layout 1 i j t = .ok t') :
    CommittingSb crc32 c (i * sbSegCopyMax + (j + 1)) t' := by
  unfold sbSegCopyMax at *
  unfold commitSbSeg curSbSeg sbSegCopyMax at hrun
  split at hrun
  case isTrue hnext =>
    cases hrun
    have hmin : min (i * 2 + (j + 1)) 2 = min (i * 2 + j) 2 := by omega
    exact ⟨hmin ▸ h.seals, h.src⟩
  case isFalse hcur =>
    obtain rfl : i = 0 := Decidable.not_not.1 hcur
    rw [Nat.zero_mul, Nat.zero_add] at hrun h
    rw [Nat.zero_mul, Nat.zero_add]
    obtain ⟨hstep, hsrc⟩ := commitFirstPeb_seals ((h.seals.segs (1 + j)).1.trans (htypes j hj)) hrun
    rw [h.src] at hstep hsrc
    have hseals := h.seals.trans hstep
    rw [Nat.min_eq_left (Nat.le_of_lt hj), ← sbSites_succ] at hseals
    exact ⟨(Nat.min_eq_left hj).symm ▸ hseals, hsrc⟩

theorem sbMkfsCommit_seals (hstart : (c.a.metaArray .superblock).startSegIndex = 1)
    (htypes : ∀ i < 2, (c.a.segs (1 + i)).segType = some .superblock)
    (h : c.sbMkfsCommit crc32 layout = .ok c') :
    c.a.Seals crc32 c.src (sbSites 2) c'.a ∧ c'.src = c.src := by
  obtain ⟨-, h⟩ := failIf_bind_eq_ok.1 h
  obtain ⟨-, h⟩ := failIf_bind_eq_ok.1 h
  obtain ⟨c₁, hloop, h⟩ := Checked.bind_eq_ok.1 h
  cases h
  rw [hstart] at hloop
  have hrun := Checked.forRange_ind (fun i t => CommittingSb crc32 c (i * sbSegCopyMax) t) hloop
    ⟨by rw [Nat.zero_mul, Nat.zero_min, sbSites_zero]; exact .refl, rfl⟩ fun i _ t t' ht hpair => by
      have hcopies := Checked.forRange_ind (fun j t => CommittingSb crc32 c (i * sbSegCopyMax + j) t)
        hpair ht fun j hj u u' hu hseg => commitSbSeg_seals htypes hu hj hseg
      rw [Nat.succ_mul]
      exact hcopies
  exact ⟨hrun.seals.finish, hrun.src⟩

structure Ranges (b m : Nat) (a : SegsArray) : Prop where
  places : ∀ metaIndex, (a.metaArray metaIndex).startSegIndex = (metaRange b m metaIndex).1 ∧
    (a.metaArray metaIndex).segsCount = (metaRange b m metaIndex).2
  types : ∀ metaIndex, ∀ i < (metaRange b m metaIndex).2,
    (a.segs ((metaRange b m metaIndex).1 + i)).segType = some metaIndex

theorem Ranges.refills {b m : Nat} (h : Ranges b m a) (hrefills : a.Refills a') : Ranges b m a' where
  places metaIndex := by
    rw [hrefills.metaArray]
    exact h.places metaIndex
  types metaIndex i hi := (hrefills.segs _).1.trans (h.types metaIndex i hi)

def logSites (layout : VolumeLayout) (g : SegbmapGeometry) (b m segbmapPebs maptblPebs : Nat) :
    Set (Nat × Nat) :=
  {(0, 0)} ∪ sbSites 2 ∪
    tableSites g.pebsPerSeg 7 (min (b * g.pebsPerSeg) segbmapPebs) ∪
      tableSites layout.pebsPerSeg (7 + b) (min (m * layout.pebsPerSeg) maptblPebs)

theorem mkfsCommit_seals {b m segbmapPebs maptblPebs : Nat} (hranges : Ranges b m c.a)
    (hsegbmap : PayloadsMarked segbmapHdrMagic g.pebsPerSeg 7 b segbmapPebs c.a)
    (hsegbmapPebs : segbmapPebs ≤ g.fragmentsCount)
    (hmaptbl : PayloadsMarked (UInt16.ofNat lebTableMagic) layout.pebsPerSeg (7 + b) m maptblPebs c.a)
    (hmaptblPebs : maptblPebs ≤ layout.maptbl.portionsCount)
    (h : c.mkfsCommit crc32 layout options g = .ok c') :
    c.a.Seals crc32 c.src (logSites layout g b m segbmapPebs maptblPebs) c'.a := by
  obtain ⟨c₁, hsnap, h⟩ := Checked.bind_eq_ok.1 h
  obtain ⟨c₂, hsb, h⟩ := Checked.bind_eq_ok.1 h
  obtain ⟨a₃, hrun₃, h⟩ := Checked.bind_eq_ok.1 h
  obtain ⟨a₄, hrun₄, h⟩ := Checked.bind_eq_ok.1 h
  cases h
  obtain ⟨-, -, hrun₄⟩ := Checked.bind_eq_ok.1 hrun₄
  obtain ⟨h₁, hsrc₁⟩ := snapMkfsCommit_seals (hranges.places .initialSnapshot).1
    (hranges.types .initialSnapshot 0 Nat.one_pos) hsnap
  have hranges₁ := hranges.refills h₁.toRefills
  obtain ⟨h₂, hsrc₂⟩ := sbMkfsCommit_seals (hranges₁.places .superblock).1
    (fun i hi => hranges₁.types .superblock i (Nat.lt_trans hi (by decide : 2 < 6))) hsb
  rw [hsrc₁] at h₂ hsrc₂
  rw [hsrc₂] at hrun₃ hrun₄
  have hfirst := h₁.trans h₂
  have hranges₂ := hranges.refills hfirst.toRefills
  have hbehind : ∀ {i j}, 3 ≤ i → (i, j) ∉ {(0, 0)} ∪ sbSites 2 := by
    rintro i j hi (hzero | ⟨-, -, hlt⟩)
    · obtain ⟨rfl, rfl⟩ := Prod.mk.inj hzero
      exact absurd hi (by decide)
    · exact absurd hlt (Nat.not_lt.2 hi)
  have h₃ : c₂.a.Seals crc32 c.src _ a₃ := metaMkfsCommit_seals rfl (hranges₂.places .segbmap)
    (hranges₂.types .segbmap) (hsegbmap.congr hfirst fun i _ j => hbehind (by omega)) hsegbmapPebs hrun₃
  have htables := hfirst.trans h₃
  have hranges₃ := hranges.refills htables.toRefills
  have h₄ : a₃.Seals crc32 c.src _ a₄ := metaMkfsCommit_seals rfl (hranges₃.places .pebMappingTable)
    (hranges₃.types .pebMappingTable) (hmaptbl.congr htables fun i _ j => by
      rintro (hin | hin)
      · exact hbehind (by omega) hin
      · exact absurd (lt_of_mem_tableSites hin) (Nat.not_lt.2 (Nat.le_add_right _ i))) hmaptblPebs hrun₄
  exact htables.trans h₄

end

end Ssdfs
