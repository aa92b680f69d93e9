import Ssdfs.Commit.MetadataBlks
import Ssdfs.Dump.Segbmap
import Ssdfs.LogTables.Agree
import Ssdfs.Write.PebRun

namespace Ssdfs

open Memory

/-- A log of the segment bitmap on a device: the content that a PEB has been given, its commit, and the
write of it. -/
structure SegbmapLog (crc32 : UInt32 → List UInt8 → UInt32) (layout : VolumeLayout) (a : SegsArray)
    (g : SegbmapGeometry) (tables : LogTables) (payload : Bytes) where
  src : CommitSource
  migrationThreshold : UInt16
  segIndex : Nat
  pebIndex : Nat
  peb : PebContent
  committed : PebContent
  hdr : Bytes
  bmap : BlkBmap
  w : WriteState
  w' : WriteState
  table : (peb.extents .blockDescriptors).buf = some tables.blockDescriptors.data
  tableSize : (peb.extents .blockDescriptors).bytesCount.toNat = tables.blockDescriptors.size
  payload : (peb.extents .logPayload).buf = some payload
  payloadSize : (peb.extents .logPayload).bytesCount.toNat = segbmapPebBufferSize g
  segType : (a.segs segIndex).segType = some .segbmap
  commit : commitPeb crc32 layout src (segbmapLogs crc32 g migrationThreshold) a segIndex pebIndex peb =
    .ok committed
  header : (committed.extents .segHeader).buf = some hdr
  check : ∃ r, checkPebBeforeWrite layout committed bmap = .ok r
  written : PebWritten layout committed w w'

section

variable {crc32 : UInt32 → List UInt8 → UInt32} {layout : VolumeLayout} {a : SegsArray}
  {g : SegbmapGeometry} {tables : LogTables} {payload : Bytes} {k : ExtentIndex}

def SegbmapLog.dumped (log : SegbmapLog crc32 layout a g tables payload) : DumpedLog where
  dev := ⟨layout.env.fsSize.toNat, log.w'.device⟩
  pebId := log.committed.pebId
  pebSize := layout.env.eraseSize.toNat
  pageSize := layout.pageSize.bytes
  hdr := log.hdr

theorem commitPeb_described {src : CommitSource} {logs : MetaLogs} {segIndex pebIndex : Nat}
    {peb peb' : PebContent} (hbuf : (peb.extents .logPayload).buf = some payload)
    (h : commitPeb crc32 layout src logs a segIndex pebIndex peb = .ok peb') :
    peb'.extents .blockDescriptors = peb.extents .blockDescriptors ∧
      (∃ sealed, logs.calculatePebFragmentsChecksum payload = .ok sealed ∧
        peb'.extents .logPayload = { peb.extents .logPayload with buf := some sealed }) ∧
      ∃ hdr peb₀, peb' = peb₀.setBuf .segHeader hdr ∧
        Described crc32 layout src (a.segs segIndex).segType peb₀ hdr SegHdr.areas := by
  obtain ⟨peb₇, hareas, h⟩ := Checked.bind_eq_ok.1 h
  obtain ⟨pages, -, h⟩ := Checked.bind_eq_ok.1 h
  obtain ⟨peb₈, hfooter, h⟩ := Checked.bind_eq_ok.1 h
  obtain ⟨peb₁, hheader, hareas⟩ := Checked.bind_eq_ok.1 hareas
  obtain ⟨data, hdata, hareas⟩ := Checked.bind_eq_ok.1 hareas
  obtain ⟨sealed, hseal, hareas⟩ := Checked.bind_eq_ok.1 hareas
  obtain ⟨_, -, hareas⟩ := Checked.bind_eq_ok.1 hareas
  obtain ⟨peb₃, hthreshold, hareas⟩ := Checked.bind_eq_ok.1 hareas
  obtain ⟨blks, -, hareas⟩ := Checked.bind_eq_ok.1 hareas
  obtain ⟨peb₄, hbitmap, hareas⟩ := Checked.bind_eq_ok.1 hareas
  obtain ⟨peb₅, htable, hareas⟩ := Checked.bind_eq_ok.1 hareas
  obtain ⟨peb₆, hbackup, hareas⟩ := Checked.bind_eq_ok.1 hareas
  have hbefore : Rewritten [.segHeader] peb peb₁ := preCommitSegmentHeader_rewritten (by decide) hheader
  have hafter : Rewritten [.segHeader, .blockBitmap, .offsetTable, .logFooter, .blockBitmapBackup,
      .offsetTableBackup] (peb₁.setBuf .logPayload sealed) peb' :=
    (((((((defineMigrationThreshold_rewritten (by decide) hthreshold).trans
      (commitBlockBitmap_ok (by decide) hbitmap).1).trans
        (commitOffsetTable_rewritten (by decide) htable)).trans
          (commitBlockBitmapBackup_ok (by decide) hbackup).1).trans
            (commitOffsetTableBackup_rewritten (by decide) hareas)).trans
              (commitLogFooter_rewritten (by decide) hfooter)).trans
                (commitSegmentHeader_rewritten (by decide) h))
  have hpayload := hbefore.keeps .logPayload (by decide)
  rw [contents_eq_ok, hpayload, hbuf] at hdata
  cases hdata
  refine ⟨?_, ⟨sealed, hseal, ?_⟩, ?_⟩
  · rw [hafter.keeps _ (by decide), PebContent.extents_setBuf_of_ne (by decide),
      hbefore.keeps _ (by decide)]
  · rw [hafter.keeps _ (by decide), PebContent.extents_setBuf_self, hpayload]
  · obtain ⟨hdr, rfl, hdescribed⟩ := commitSegmentHeader_described h
    exact ⟨hdr, peb₈, rfl, hdescribed⟩

structure AreaFound (layout : VolumeLayout) (peb : PebContent) (hdr : Bytes) (k : ExtentIndex) :
    Prop where
  size_lt : 0 < peb.size k ∧ peb.size k < layout.env.eraseSize.toNat
  start_lt : 0 < peb.start k ∧ peb.start k < layout.env.eraseSize.toNat
  fits : peb.Fits layout k
  offset : (MetadataDescriptorRecord.wire.read hdr (SegHdr.descOffset k)).offset.toNat = peb.start k
  size : (MetadataDescriptorRecord.wire.read hdr (SegHdr.descOffset k)).size.toNat = peb.size k

theorem areaFound_of_described {src : CommitSource} {segType : Option MetaIndex} {peb : PebContent}
    {hdr : Bytes} {bmap : BlkBmap} {r : BlkBmap × Nat}
    (hdescribed : Described crc32 layout src segType peb hdr SegHdr.areas)
    (hcheck : checkPebBeforeWrite layout (peb.setBuf .segHeader hdr) bmap = .ok r)
    (hk : k = .blockDescriptors ∨ k = .logPayload) (hpos : 0 < (peb.setBuf .segHeader hdr).size k)
    (hbuf : ((peb.setBuf .segHeader hdr).extents k).buf.isSome = true) :
    AreaFound layout (peb.setBuf .segHeader hdr) hdr k := by
  have hextent : (peb.setBuf .segHeader hdr).extents k = peb.extents k := by
    apply PebContent.extents_setBuf_of_ne
    rintro rfl
    exact hk.elim nofun nofun
  have harea : k ∈ SegHdr.areas := by
    rcases hk with rfl | rfl <;> decide
  have hpos' := hpos
  unfold PebContent.size at hpos'
  rw [hextent] at hpos'
  obtain ⟨desc, hdesc, hrecord⟩ := hdescribed k harea hpos'
  obtain ⟨check, hprepare⟩ : ∃ check, prepareDescriptor layout (peb.extents k) check = .ok desc := by
    rcases hk with rfl | rfl
    · exact ⟨_, hdesc⟩
    · exact ⟨_, hdesc⟩
  obtain ⟨⟨hsize, hstart⟩, buf, -, rfl⟩ := prepareDescriptor_eq_ok.1 hprepare
  have hzero : ∀ x : UInt32, x ≠ 0 → 0 < x.toNat := fun x hx => Nat.pos_of_ne_zero fun h =>
    hx (UInt32.toNat_inj.1 h)
  obtain ⟨hsize0, hsize⟩ := not_or.1 hsize
  obtain ⟨hstart0, hstart⟩ := not_or.1 hstart
  obtain ⟨⟨startOffset, payloadSize⟩, hitems, -⟩ := Checked.bind_eq_ok.1 hcheck
  refine
    { size_lt := ⟨hpos, ?_⟩
      start_lt := ⟨?_, ?_⟩
      fits := (checkNextExtents_ok hitems).1.fits k (PebContent.mem_items.2 hbuf)
      offset := ?_
      size := ?_ }
  · unfold PebContent.size
    rw [hextent]
    exact Nat.not_le.1 hsize
  · unfold PebContent.start
    rw [hextent]
    exact hzero _ hstart0
  · unfold PebContent.start
    rw [hextent]
    exact Nat.not_le.1 hstart
  · rw [hrecord]
    unfold PebContent.start
    rw [hextent]
    exact UInt32.toNat_ofNat_of_lt' (UInt32.toNat_lt _)
  · rw [hrecord]
    unfold PebContent.size
    rw [hextent]
    exact UInt32.toNat_ofNat_of_lt' (UInt32.toNat_lt _)

theorem blockDescriptors_table {check : List UInt8 → UInt32} {segIndex pebIndex : Nat}
    {startLogicalBlk : UInt32} {validBlks : UInt16} {inodeId : UInt64}
    {payloadOffsetInBytes itemSize : UInt32} {buf : Buf} (hindex : pebIndex < Word.u16Max)
    (hvalid : 1 ≤ validBlks.toNat) (hmax : validBlks.toNat ≤ 780)
    (h : preCommitBlockDescriptors check layout a segIndex pebIndex startLogicalBlk validBlks inodeId
      payloadOffsetInBytes itemSize = .ok buf) :
    ∃ f n, f ≤ fragmentsChainMax ∧ itemsBefore f n f = storedBlks validBlks.toNat ∧
      256 + itemsBefore f n f * 64 ≤ buf.size ∧
      TableAt check ⟨pebIndex, inodeId, itemSize, layout.pageSize.bytes, payloadOffsetInBytes⟩ buf.data
        0 0 f false startLogicalBlk.toNat n 0 := by
  obtain ⟨⟨hseg, hpeb, hbuf, hpage, hfit⟩, -⟩ := preCommitBlockDescriptors_accepted h
  obtain ⟨hsize, htables⟩ := (@preCommitBlockDescriptors_exact check layout a segIndex pebIndex
    startLogicalBlk validBlks inodeId payloadOffsetInBytes itemSize hseg hpeb hindex hbuf hpage hvalid
    hfit).result h
  have hone : ((validBlks.toNat + 59) / 60 + 13) / 14 = 1 := by omega
  have hstored : areaItems ((validBlks.toNat + 59) / 60) validBlks.toNat 0 =
      storedBlks validBlks.toNat := by
    rw [areaItems_last hone.symm (by omega) (by omega)]
    unfold storedBlks
    omega
  have hspan := @area_fits ((validBlks.toNat + 59) / 60) (((validBlks.toNat + 59) / 60 + 13) / 14) 0
    validBlks.toNat (by omega) rfl (by omega)
  have htable := htables 0 (by omega)
  unfold TablesAt at htable
  rw [decide_eq_false (by omega)] at htable
  simp only [Nat.zero_mul, Nat.add_zero, Nat.zero_add] at htable hspan
  exact ⟨_, _, fragmentsPerArea_le rfl (by omega), hstored, by
    unfold areaItems at hspan
    omega, htable⟩

end

section

variable {crc32 : UInt32 → List UInt8 → UInt32} {layout : VolumeLayout} {a : SegsArray}
  {g : SegbmapGeometry} {tables : LogTables} {payload : Bytes} {segs start p : Nat}
  {portion : Nat → Nat → Nat → Mkfs Shown}
  {decompress : UInt8 → Buf → Nat → Nat → Buf → Nat → Mkfs Buf}
  {hdr : Nat → SegbmapFragmentHeader} {state : Nat → Nat → SegbmapState}

theorem shownState_value (s : SegbmapState) : shownState s.value = some s := by
  cases s <;> rfl

/-- What is shown of fragment `k` of a log whose blocks begin with `index`. -/
def shownFragment (hdr : Nat → SegbmapFragmentHeader) (state : Nat → Nat → SegbmapState)
    (index : Nat → Nat) (k : Nat) : ShownFragment where
  blockIndex := index k
  hdr := hdr k
  items := (List.range (hdr k).totalSegs.toNat).map fun i =>
    (Word.u64 ((hdr k).startItem.toNat + i), some (state k i))

theorem parseSegbmapFragment_page {sealed block : Bytes} {page k blockIndex : Nat}
    (hholds : Holds g hdr state sealed) (hpage : 4096 ≤ page) (hsize : g.fragmentSize = page)
    (hk : k < g.fragmentsPerPeb) (htotal : (hdr k).totalSegs.toNat ≤ itemsPerFragment)
    (hblock : ∀ i < page, block i = sealed (k * page + i)) :
    parseSegbmapFragment blockIndex ⟨page, block⟩ page page =
      .ok (none, [shownFragment hdr state (fun _ => blockIndex) k]) := by
  have hread : SegbmapFragmentHeader.wire.read block 0 = hdr k := by
    rw [← hholds.header k hk, hsize]
    refine SegbmapFragmentHeader.wire.read_congr fun i hi => ?_
    rw [SegbmapFragmentHeader.wire_size] at hi
    rw [Nat.zero_add]
    exact hblock i (by omega)
  unfold itemsPerFragment at htotal
  have hfit : ∀ i < (SegbmapFragmentHeader.wire.read block 0).totalSegs.toNat, 32 + i / 2 < page := by
    intro i hi
    rw [hread] at hi
    omega
  rw [@parseSegbmapFragment_ok ⟨page, block⟩ page blockIndex (by omega) (Nat.le_refl _) hfit]
  unfold shownFragment
  simp only [hread]
  have hitems : ∀ i ∈ List.range (hdr k).totalSegs.toNat,
      (Word.u64 ((hdr k).startItem.toNat + i), shownState (itemState block segbmapFragmentHeaderSize i)) =
        (Word.u64 ((hdr k).startItem.toNat + i), some (state k i)) := fun i hi => by
    have hi := List.mem_range.1 hi
    have hstate := hholds.items k hk i (by
      unfold itemsPerFragment
      omega)
    have hbyte : itemState block segbmapFragmentHeaderSize i = itemState sealed (bitmapOffset g k) i := by
      unfold itemState bitmapOffset
      rw [hblock _ (by unfold segbmapFragmentHeaderSize; omega), hsize, Nat.add_assoc]
    rw [hbyte, hstate, shownState_value]
  rw [List.map_congr_left hitems]

theorem showsBlocks_payload {log : DumpedLog} {peb : PebContent} {src : BlkDescSource}
    {sealed : Bytes} {page : Nat} (hholds : Holds g hdr state sealed)
    (hsize : g.fragmentSize = log.pageSize) (hpage : 4096 ≤ log.pageSize)
    (hitem : src.itemSize.toNat = log.pageSize) (hsrc : src.pageSize = log.pageSize)
    (htotal : ∀ k < g.fragmentsPerPeb, (hdr k).totalSegs.toNat ≤ itemsPerFragment)
    (hfound : AreaFound layout peb log.hdr .logPayload)
    (hbytes : peb.size .logPayload = g.fragmentsPerPeb * log.pageSize)
    (hread : ∀ k < g.fragmentsPerPeb, ∃ block,
      log.readAt (peb.start .logPayload + k * log.pageSize) log.pageSize = .ok block ∧
        ∀ i < log.pageSize, block i = sealed (k * log.pageSize + i)) :
    ∃ index, log.ShowsBlocks portion src page g.fragmentsPerPeb
      fun k => [shownFragment hdr state index k] := by
  have herase := layout.env.eraseSize.toNat_lt
  refine ⟨fun k => (blockDescriptor src (Word.u32 (k * src.itemSize.toNat))
    (Word.u32 (page + k))).logicalOffset.toNat, fun k hk => ?_⟩
  have hend := Nat.mul_le_mul_right log.pageSize (Nat.succ_le_of_lt hk)
  have hfits := hfound.fits.erase
  have hfinish : peb.finish .logPayload = peb.start .logPayload + peb.size .logPayload := rfl
  rw [Nat.succ_mul] at hend
  obtain ⟨block, hblock, hdata⟩ := hread k hk
  have harea : (areaDesc log.hdr coldPayloadAreaIndex).offset.toNat = peb.start .logPayload :=
    hfound.offset
  have hstate : ((blockDescriptor src (Word.u32 (k * src.itemSize.toNat))
      (Word.u32 (page + k))).state ⟨0, by decide⟩) =
        ⟨0, logMainArea, pebMigrationIdStart, UInt32.ofNat (k * log.pageSize)⟩ := by
    unfold blockDescriptor
    simp only
    rw [if_pos trivial, if_pos (by omega), hitem, Word.u32_of_lt (by omega)]
  have hoffset : (UInt32.ofNat (k * log.pageSize)).toNat = k * log.pageSize :=
    UInt32.toNat_ofNat_of_lt' (show k * log.pageSize < 4294967296 by omega)
  unfold DumpedLog.parseMetadataBlock
  simp only
  rw [hstate, if_pos rfl]
  unfold DumpedLog.parseMetadataPlainBlock
  simp only
  rw [harea, hoffset, Word.u32_of_lt (by omega), hblock, Report.attempt_ok,
    parseSegbmapFragment_page hholds hpage hsize hk (htotal k hk) hdata]
  rfl

theorem SegbmapChosen.fewBlks (hchosen : SegbmapChosen layout g segs)
    (h : LogWritten (ssdfsCrc32Le crc32) layout a (segbmapPayload g) start p tables) :
    (segbmapPayload g).validBlks layout = g.fragmentsPerPeb ∧ g.fragmentsPerPeb ≤ 253 ∧
      p % g.pebsPerSeg < Word.u16Max := by
  have hv := hchosen.payload_sound.validBlks_eq
  rw [Nat.mul_one] at hv
  have hv : (segbmapPayload g).validBlks layout = g.fragmentsPerPeb := hv
  have hpos := hchosen.fragmentsPerPeb_pos
  have hpebs := hchosen.pebsPerSeg_pos
  have hlt := hchosen.fragmentsPerPeb_lt
  have hmul := Nat.mul_le_mul (Nat.le_of_lt_succ hchosen.pebsPerSeg_lt) (Nat.le_of_lt_succ hlt)
  obtain ⟨hused, hindex, -⟩ := h.used_le (by
    rw [hv, Word.u16_of_lt hlt]
    omega)
  change Word.u32 (g.pebsPerSeg * _) ≤ 253 at hused
  rw [hv, Word.u32_of_lt (by omega)] at hused
  exact ⟨hv, Nat.le_trans (Nat.le_mul_of_pos_left _ hpebs) hused, hindex⟩

namespace SegbmapLog

variable (log : SegbmapLog crc32 layout a g tables payload)

structure Found (sealed : Bytes) : Prop where
  table : AreaFound layout log.committed log.hdr .blockDescriptors
  tableBuf : (log.committed.extents .blockDescriptors).buf = some tables.blockDescriptors.data
  tableSize : log.committed.size .blockDescriptors = tables.blockDescriptors.size
  payload : AreaFound layout log.committed log.hdr .logPayload
  payloadBuf : (log.committed.extents .logPayload).buf = some sealed
  payloadSize : log.committed.size .logPayload = g.fragmentsPerPeb * layout.pageSize.bytes

variable {log}

theorem found (hchosen : SegbmapChosen layout g segs) (hpos : 0 < tables.blockDescriptors.size) :
    ∃ sealed, segbmapFragmentsChecksum crc32 g payload = .ok sealed ∧ log.Found sealed := by
  obtain ⟨hdescs, ⟨sealed, hseal, hextent⟩, hdr, peb₀, hpeb, hdescribed⟩ :=
    commitPeb_described log.payload log.commit
  obtain ⟨r, hcheck⟩ := log.check
  have hhdr : log.hdr = hdr := by
    have hbuf := log.header
    rw [hpeb, PebContent.extents_setBuf_self] at hbuf
    exact (Option.some.inj hbuf).symm
  have htable : (log.committed.extents .blockDescriptors).buf = some tables.blockDescriptors.data := by
    rw [hdescs, log.table]
  have htableSize : log.committed.size .blockDescriptors = tables.blockDescriptors.size := by
    unfold PebContent.size
    rw [hdescs, log.tableSize]
  have hpayload : (log.committed.extents .logPayload).buf = some sealed := by
    rw [hextent]
  have hpayloadSize : log.committed.size .logPayload =
      g.fragmentsPerPeb * layout.pageSize.bytes := by
    unfold PebContent.size
    rw [hextent, log.payloadSize, hchosen.bufferSize, hchosen.fragmentSize, Nat.mul_comm]
  have hbytes := Nat.mul_pos hchosen.fragmentsPerPeb_pos
    (Nat.lt_of_lt_of_le (by decide) layout.pageSize.bytes_ge)
  have harea : ∀ {k}, k = .blockDescriptors ∨ k = .logPayload → 0 < log.committed.size k →
      (log.committed.extents k).buf.isSome = true → AreaFound layout log.committed log.hdr k := by
    intro k hk hsize hbuf
    rw [log.segType] at hdescribed
    rw [hhdr, hpeb]
    rw [hpeb] at hcheck hsize hbuf
    exact areaFound_of_described hdescribed hcheck hk hsize hbuf
  exact ⟨sealed, hseal,
    { table := harea (.inl rfl) (htableSize ▸ hpos) (htable ▸ rfl)
      tableBuf := htable
      tableSize := htableSize
      payload := harea (.inr rfl) (hpayloadSize ▸ hbytes) (hpayload ▸ rfl)
      payloadBuf := hpayload
      payloadSize := hpayloadSize }⟩

theorem readAt_extent {k : ExtentIndex} {buf : Bytes} {offset size : Nat}
    (hfits : log.committed.Fits layout k) (hbuf : (log.committed.extents k).buf = some buf)
    (hin : offset + size ≤ log.committed.size k) :
    ∃ block, log.dumped.readAt (log.committed.start k + offset) size = .ok block ∧
      ∀ i < size, block i = buf (offset + i) := by
  have hvolumeSize := layout.env.fsSize.toNat_lt
  have hfinish : log.committed.finish k = log.committed.start k + log.committed.size k := rfl
  have hvolume := hfits.volume
  refine ⟨fun i => log.w'.device (log.committed.pebId * layout.env.eraseSize.toNat +
    (log.committed.start k + offset) + i), ?_, fun i hi => ?_⟩
  · unfold dumped DumpedLog.readAt deviceRead
    simp only
    rw [Word.u64_of_lt (n := log.committed.pebId * layout.env.eraseSize.toNat) (by omega),
      Word.u64_of_lt (by omega), if_pos (by omega)]
  · have hdevice := log.written.extents k buf hbuf (offset + i) (by
      change offset + i < log.committed.size k
      omega)
    rw [← hdevice, ← Nat.add_assoc, ← Nat.add_assoc]
    rfl

theorem shown (hchosen : SegbmapChosen layout g segs)
    (hwritten : LogWritten (ssdfsCrc32Le crc32) layout a (segbmapPayload g) start p tables)
    (hholds : ∀ sealed, segbmapFragmentsChecksum crc32 g payload = .ok sealed →
      Holds g hdr state sealed)
    (htotal : ∀ k < g.fragmentsPerPeb, (hdr k).totalSegs.toNat ≤ itemsPerFragment) :
    (∀ r, log.dumped.parseMetadata portion decompress 0 ≠ .ok r) ∧
    ∃ index, ∀ fuel, log.dumped.parseMetadata portion decompress (fuel + 1) =
      .ok (none, (List.range (storedBlks g.fragmentsPerPeb)).map (shownFragment hdr state index)) := by
  have herase := layout.env.eraseSize.toNat_lt
  obtain ⟨hv, hfew, hindex⟩ := hchosen.fewBlks hwritten
  have hpos := hchosen.fragmentsPerPeb_pos
  have hblks : (UInt16.ofNat ((segbmapPayload g).validBlks layout)).toNat = g.fragmentsPerPeb := by
    rw [hv, UInt16.toNat_ofNat_of_lt' hchosen.fragmentsPerPeb_lt]
  obtain ⟨f, n, hf, hitems, hfit, hat⟩ := blockDescriptors_table hindex (hblks ▸ hpos)
    (hblks ▸ Nat.le_trans hfew (by decide)) hwritten.blockDescriptors
  rw [hblks] at hitems
  obtain ⟨sealed, hseal, hfound⟩ := log.found hchosen (Nat.lt_of_lt_of_le (by omega) hfit)
  have htable := hfound.tableSize
  have hoffset : (areaDesc log.dumped.hdr blkDescAreaIndex).offset.toNat =
    log.committed.start .blockDescriptors := hfound.table.offset
  have hsize : (areaDesc log.dumped.hdr blkDescAreaIndex).size.toNat =
    tables.blockDescriptors.size := hfound.table.size.trans htable
  have hvalid : isAreaValid (areaDesc log.dumped.hdr blkDescAreaIndex).offset.toNat
      tables.blockDescriptors.size = true := by
    have hstart := hfound.table.start_lt
    have hlt := hfound.table.size_lt
    rw [hoffset]
    unfold isAreaValid Word.u32Max
    apply decide_eq_true
    omega
  obtain ⟨area, harea, hbytes⟩ := log.readAt_extent hfound.table.fits hfound.tableBuf
    (show 0 + tables.blockDescriptors.size ≤ _ by omega)
  rw [Nat.add_zero, ← hoffset] at harea
  have hsame : ∀ x, 0 ≤ x → x < 0 + 256 + itemsBefore f n f * 64 →
      area x = tables.blockDescriptors.data x := fun x _ hx => by
    rw [hbytes x (by omega), Nat.zero_add]
  have htableAt := hat.congr hf hsame
  have hitemSize : (UInt32.ofNat layout.pageSize.bytes).toNat = layout.pageSize.bytes :=
    UInt32.toNat_ofNat_of_lt' (Nat.lt_of_le_of_lt layout.pageSize.bytes_le (by decide))
  obtain ⟨index, hblocks⟩ := @showsBlocks_payload layout g portion hdr state log.dumped log.committed
    ⟨_, _, UInt32.ofNat layout.pageSize.bytes, layout.pageSize.bytes, _⟩ sealed _ (hholds sealed hseal)
    hchosen.fragmentSize layout.pageSize.bytes_ge hitemSize rfl htotal hfound.payload
    hfound.payloadSize fun k hk => by
      have hend := Nat.mul_le_mul_right layout.pageSize.bytes (Nat.succ_le_of_lt hk)
      rw [Nat.succ_mul] at hend
      exact log.readAt_extent hfound.payload.fits hfound.payloadBuf (by
        rw [hfound.payloadSize]
        exact hend)
  have hstored := storedBlks_le g.fragmentsPerPeb
  refine ⟨fun r => DumpedLog.parseMetadata_zero hvalid hsize harea (by omega), index, fun fuel => ?_⟩
  rw [DumpedLog.parseMetadata_ok hvalid hsize harea htableAt hf
    (fun k hk => hblocks k (by omega)) hfit, hitems, List.map_eq_flatMap]

end SegbmapLog

theorem segbmapPrepareFragment_magic {i : Nat} {f : SegbmapFragment}
    (h : segbmapPrepareFragment layout g i = .ok f) : f.hdr.magic = segbmapHdrMagic := by
  obtain ⟨-, h⟩ := failIf_bind_eq_ok.1 h
  obtain ⟨-, h⟩ := quot_bind_eq_ok.1 h
  obtain ⟨-, h⟩ := quot_bind_eq_ok.1 h
  obtain ⟨-, h⟩ := quot_bind_eq_ok.1 h
  obtain ⟨_, -, h⟩ := Checked.bind_eq_ok.1 h
  obtain ⟨-, h⟩ := failIf_bind_eq_ok.1 h
  rw [segbmapPayloadBytesPerFragment_page, Checked.ok_bind] at h
  obtain ⟨-, h⟩ := bugOn_bind_eq_ok.1 h
  rw [segbmapItemsPerFragment_page, Checked.ok_bind] at h
  obtain ⟨-, h⟩ := bugOn_bind_eq_ok.1 h
  cases h
  rfl

/-- Fragment `k` of the PEB is shown with its items, each with its segment and its last state. -/
def IsShown (layout : VolumeLayout) (g : SegbmapGeometry) (p : Nat) (sets : List ItemState) (k : Nat)
    (f : ShownFragment) : Prop :=
  ∃ fragment, segbmapPrepareFragment layout g (p * g.fragmentsPerPeb + k) = .ok fragment ∧
    f.hdr = fragment.hdr ∧ f.items = (List.range fragment.hdr.totalSegs.toNat).map fun i =>
      (fragment.hdr.startItem.toNat + i, some (storedState sets k i))

/-- What has the magic of a fragment are the fragments of the PEB, each of them once. -/
def ShowsFragments (layout : VolumeLayout) (g : SegbmapGeometry) (p : Nat) (sets : List ItemState)
    (shown : List ShownFragment) : Prop :=
  List.Forall₂ (IsShown layout g p sets) (List.range (storedFragments g p))
    (shown.filter fun f => f.hdr.magic = segbmapHdrMagic)

theorem filter_lt_range (n s : Nat) :
    (List.range n).filter (fun k => decide (k < s)) = List.range (min n s) := by
  have hall : ∀ n ≤ s, (List.range n).filter (fun k => decide (k < s)) = List.range n := fun n hn => by
    apply List.filter_eq_self.2
    intro k hk
    exact decide_eq_true (Nat.lt_of_lt_of_le (List.mem_range.1 hk) hn)
  rcases Nat.le_total n s with hle | hge
  · rw [Nat.min_eq_left hle, hall n hle]
  · obtain ⟨r, rfl⟩ := Nat.exists_eq_add_of_le hge
    have hnone : ((List.range r).map (s + ·)).filter (fun k => decide (k < s)) = [] := by
      apply List.filter_eq_nil_iff.2
      intro k hk
      obtain ⟨j, -, rfl⟩ := List.mem_map.1 hk
      exact fun h => absurd (of_decide_eq_true h) (by omega)
    rw [Nat.min_eq_right hge, List.range_add, List.filter_append, hall s (Nat.le_refl s), hnone,
      List.append_nil]

variable {requested : UInt16} {buffers : Nat → Buf} {logs : List LogTables} {sets : List ItemState}

/-- All fragments are among the blocks that are shown, unless the last sixty blocks are full. -/
theorem storedFragments_le_iff (hpos : 0 < g.fragmentsPerPeb) :
    storedFragments g p ≤ storedBlks g.fragmentsPerPeb ↔ g.fragmentsPerPeb % 60 ≠ 0 ∨
      g.fragmentsCount - p * g.fragmentsPerPeb ≤ g.fragmentsPerPeb - 60 := by
  unfold storedFragments storedBlks
  omega

theorem showsFragments_iff {index : Nat → Nat} {n : Nat} (hF : g.fragmentsCount < 65535)
    (hfs : 4096 ≤ g.fragmentSize) (hprepared : Prepared layout g g.fragmentsCount buffers)
    (hn : n ≤ g.fragmentsPerPeb) :
    ShowsFragments layout g p sets ((List.range n).map (shownFragment
        (fun k => SegbmapFragmentHeader.wire.read (buffers p).data (k * g.fragmentSize))
          (storedState sets) index)) ↔ storedFragments g p ≤ n := by
  have hmagic : ∀ k ∈ List.range n, ((fun f : ShownFragment => decide (f.hdr.magic = segbmapHdrMagic)) ∘
      shownFragment (fun k => SegbmapFragmentHeader.wire.read (buffers p).data (k * g.fragmentSize))
        (storedState sets) index) k = decide (k < storedFragments g p) := fun k hk => by
    have hk := List.mem_range.1 hk
    apply decide_eq_decide.2
    unfold shownFragment
    simp only
    rcases Nat.lt_or_ge k (storedFragments g p) with hlt | hge
    · obtain ⟨f, hf, hread⟩ := hprepared.stored hlt
      rw [hread]
      exact iff_of_true (segbmapPrepareFragment_magic hf) hlt
    · rw [hprepared.blank hfs hge (by omega)]
      exact iff_of_false (by decide) (by omega)
  have hshown : ∀ k < storedFragments g p, IsShown layout g p sets k (shownFragment
      (fun k => SegbmapFragmentHeader.wire.read (buffers p).data (k * g.fragmentSize))
        (storedState sets) index k) := fun k hk => by
    obtain ⟨f, hf, hread⟩ := hprepared.stored hk
    obtain ⟨-, -, hstart, -⟩ := segbmapPrepareFragment_inv hF hf
    have htotal := segbmapPrepareFragment_total hf
    have hindex : p * g.fragmentsPerPeb + k < g.fragmentsCount := by
      unfold storedFragments at hk
      omega
    refine ⟨f, hf, hread, ?_⟩
    unfold shownFragment
    simp only [hread]
    apply List.map_congr_left
    intro i hi
    have hi := List.mem_range.1 hi
    rw [Word.u64_of_lt (by omega)]
  unfold ShowsFragments
  rw [List.filter_map, List.filter_congr hmagic, filter_lt_range]
  constructor
  · intro h
    have hlength := h.length_eq
    rw [List.length_map, List.length_range, List.length_range] at hlength
    omega
  · intro hle
    rw [Nat.min_eq_right hle, List.forall₂_map_right_iff, List.forall₂_same]
    exact fun k hk => hshown k (List.mem_range.1 hk)

theorem parseMetadata_iff (hchosen : SegbmapChosen layout g segs)
    (hprepare : segbmapMkfsPrepare layout g = .ok buffers)
    (hwritten : LogWritten (ssdfsCrc32Le crc32) layout a (segbmapPayload g) start p tables)
    (hsets : ∀ w ∈ sets, w.item < itemsPerFragment)
    (log : SegbmapLog crc32 layout a g tables (setItemStates g sets (buffers p).data)) :
    (∃ fuel shown, log.dumped.parseMetadata portion decompress fuel = .ok (none, shown) ∧
        ShowsFragments layout g p sets shown) ↔
      g.fragmentsPerPeb % 60 ≠ 0 ∨
        g.fragmentsCount - p * g.fragmentsPerPeb ≤ g.fragmentsPerPeb - 60 := by
  have hF := segBmapFragments_lt hchosen.fragments
  have hfs := hchosen.fragmentSize_ge
  have hprepared := segbmapMkfsPrepare_ok hF (by omega) hprepare
  have htotal : ∀ k < g.fragmentsPerPeb, (SegbmapFragmentHeader.wire.read (buffers p).data
      (k * g.fragmentSize)).totalSegs.toNat ≤ itemsPerFragment := fun k hk => by
    rcases Nat.lt_or_ge k (storedFragments g p) with hlt | hge
    · obtain ⟨f, hf, hread⟩ := hprepared.stored hlt
      rw [hread]
      exact segbmapPrepareFragment_total hf
    · rw [hprepared.blank hfs hge hk]
      decide
  obtain ⟨hzero, index, hshown⟩ : (∀ r, log.dumped.parseMetadata portion decompress 0 ≠ .ok r) ∧
      ∃ index, ∀ fuel, log.dumped.parseMetadata portion decompress (fuel + 1) =
        .ok (none, (List.range (storedBlks g.fragmentsPerPeb)).map (shownFragment _ _ index)) :=
    log.shown hchosen hwritten (fun sealed hseal => hprepared.payload hfs hsets hseal) htotal
  rw [← storedFragments_le_iff hchosen.fragmentsPerPeb_pos,
    ← @showsFragments_iff layout g p buffers sets index _ hF hfs hprepared (storedBlks_le _)]
  constructor
  · rintro ⟨fuel, shown, hrun, hshows⟩
    cases fuel with
    | zero => exact absurd hrun (hzero _)
    | succ fuel =>
      rw [hshown] at hrun
      cases hrun
      exact hshows
  · exact fun hshows => ⟨1, _, hshown 0, hshows⟩

/-- The log of a PEB is shown with all its fragments and their items exactly if its last sixty blocks,
when they are full, hold none of them. -/
theorem parseMetadata_shows_iff
    (hpolicy : segbmapMkfsAllocationPolicy layout requested = .ok (g, segs))
    (hprepare : segbmapMkfsPrepare layout g = .ok buffers)
    (hlogs : segbmapDefineLogTables (ssdfsCrc32Le crc32) layout a g = .ok logs) (hp : p < logs.length)
    (hsets : ∀ w ∈ sets, w.fragment < g.fragmentsPerPeb ∧ w.item < itemsPerFragment)
    (log : SegbmapLog crc32 layout a g logs[p] (setItemStates g sets (buffers p).data)) :
    (∃ fuel shown, log.dumped.parseMetadata portion decompress fuel = .ok (none, shown) ∧
        ShowsFragments layout g p sets shown) ↔
      g.fragmentsPerPeb % 60 ≠ 0 ∨
        g.fragmentsCount - p * g.fragmentsPerPeb ≤ g.fragmentsPerPeb - 60 := by
  obtain ⟨-, hlogs⟩ := failIf_bind_eq_ok.1 hlogs
  obtain ⟨-, hwritten⟩ := defineLogTables_run hlogs
  exact parseMetadata_iff (segbmapMkfsAllocationPolicy_inv hpolicy) hprepare (hwritten p hp)
    (fun w hw => (hsets w hw).2) log

end

def writable (layout : VolumeLayout) (peb : PebContent) : Bool :=
  (checkPebBeforeWrite layout peb fun _ => false).toOption.isSome ∧
    peb.items.head? = some .segHeader ∧ peb.start .segHeader < layout.pageSize.bytes

theorem SegbmapLog.exists {crc32 : UInt32 → List UInt8 → UInt32} {layout : VolumeLayout}
    {a : SegsArray} {g : SegbmapGeometry} {tables : LogTables} {payload : Bytes} {src : CommitSource}
    {threshold : UInt16} {segIndex pebIndex : Nat} {peb : PebContent}
    (hdvd : layout.pageSize.bytes ∣ layout.env.eraseSize.toNat)
    (htable : peb.extents .blockDescriptors =
      ⟨some tables.blockDescriptors.data, 2312, UInt32.ofNat tables.blockDescriptors.size⟩)
    (htableSize : tables.blockDescriptors.size < 4294967296)
    (hpayload : (peb.extents .logPayload).buf = some payload)
    (hpayloadSize : (peb.extents .logPayload).bytesCount.toNat = segbmapPebBufferSize g)
    (hsegType : (a.segs segIndex).segType = some .segbmap)
    (hrun : (commitPeb crc32 layout src (segbmapLogs crc32 g threshold) a segIndex pebIndex
      peb).toOption.any (writable layout) = true) :
    Nonempty (SegbmapLog crc32 layout a g tables payload) := by
  cases hcommit : commitPeb crc32 layout src (segbmapLogs crc32 g threshold) a segIndex pebIndex peb with
  | error e =>
    rw [hcommit] at hrun
    cases hrun
  | ok c =>
    rw [hcommit] at hrun
    obtain ⟨hcheck, hhead, hstart⟩ := of_decide_eq_true hrun
    obtain ⟨r, hcheck⟩ := Checked.exists_ok hcheck
    obtain ⟨-, -, hdr, peb₀, rfl, -⟩ := commitPeb_described hpayload hcommit
    obtain ⟨_, hitems, -⟩ := Checked.bind_eq_ok.1 hcheck
    have hempty : (⟨fun _ => 0, 0, fun _ => 0, [], 0⟩ : WriteState).bufferOffset = 0 := rfl
    have hfirst : ∀ i, (peb₀.setBuf .segHeader hdr).items.head? = some i →
        (peb₀.setBuf .segHeader hdr).start i < layout.pageSize.bytes := fun i hi => by
      cases hhead.symm.trans hi
      exact hstart
    obtain ⟨w', -, hwritten, -⟩ := writeContent_ok hdvd (checkNextExtents_ok hitems).1 hfirst
      (Nat.lt_succ_self _) (fun hnil => by
        rw [hnil] at hhead
        cases hhead) hempty
    exact ⟨
      { src
        migrationThreshold := threshold
        segIndex
        pebIndex
        peb
        committed := peb₀.setBuf .segHeader hdr
        hdr
        bmap := fun _ => false
        w := _
        w' := w'
        table := by rw [htable]
        tableSize := by
          rw [htable]
          exact UInt32.toNat_ofNat_of_lt' htableSize
        payload := hpayload
        payloadSize := hpayloadSize
        segType := hsegType
        commit := hcommit
        header := by rw [PebContent.extents_setBuf_self]
        check := ⟨r, hcheck⟩
        written := hwritten }⟩

/-- Segments of one erase block of 1 MiB. -/
def segbmapVolume (fsSize : UInt64) : VolumeLayout where
  needEraseDevice := false
  segSize := 1048576
  pageSize := .kib4
  nandDiesCount := 1
  lebsPerPebIndex := 1
  segbmap := ⟨false, 1⟩
  maptbl := ⟨false, 1, 1, 10, 0, 0, 0, 0, 0, 0, 0, 0, 0⟩
  env := ⟨fsSize, 1048576, .blk⟩

def segbmapContent (tables : LogTables) (payload : Bytes) (payloadSize : UInt32) : PebContent where
  lebId := 0
  pebId := 0
  extents
    | .segHeader => ⟨some fun _ => 0, 0, 2048⟩
    | .blockBitmap => ⟨some fun _ => 0, 2048, 64⟩
    | .offsetTable => ⟨some fun _ => 0, 2112, 200⟩
    | .blockDescriptors =>
      ⟨some tables.blockDescriptors.data, 2312, UInt32.ofNat tables.blockDescriptors.size⟩
    | .logPayload => ⟨some payload, 4096, payloadSize⟩
    | .logFooter => ⟨some fun _ => 0, 4096 + payloadSize, 2048⟩
    | _ => ⟨none, 0, 0⟩

def preparedBuffers (layout : VolumeLayout) (g : SegbmapGeometry) : Nat → Buf :=
  (segbmapMkfsPrepare layout g).toOption.getD fun _ => Buf.zero 0

def definedLogs (layout : VolumeLayout) (g : SegbmapGeometry) : List LogTables :=
  (segbmapDefineLogTables (ssdfsCrc32Le fun _ _ => 0) layout (bitmapSegs 1) g).toOption.getD []

theorem eq_ok_getD {α : Type} {m : Mkfs α} {d : α} (h : m.toOption.isSome = true) :
    m = .ok (m.toOption.getD d) := by
  obtain ⟨a, rfl⟩ := Checked.exists_ok h
  rfl

/-- 1000 segments have one fragment. -/
def smallVolume : VolumeLayout := segbmapVolume 1048576000
def smallBitmap : SegbmapGeometry := ⟨500, 1, 1, 1, 1, 4096⟩

/-- 487680 segments have sixty fragments. -/
def largeVolume : VolumeLayout := segbmapVolume 511369543680
def largeBitmap : SegbmapGeometry := ⟨243840, 60, 1, 1, 60, 4096⟩

def takenItems : List ItemState := [⟨0, 0, .reserved⟩, ⟨0, 1, .dataUsing⟩, ⟨0, 1, .used⟩]

theorem definedLogs_small : 0 < (definedLogs smallVolume smallBitmap).length := by decide +kernel

theorem definedLogs_large : 0 < (definedLogs largeVolume largeBitmap).length := by decide +kernel

theorem parseMetadata_shows_one : ∃ hp : 0 < (definedLogs smallVolume smallBitmap).length,
    ∃ log : SegbmapLog (fun _ _ => 0) smallVolume (bitmapSegs 1) smallBitmap
      (definedLogs smallVolume smallBitmap)[0]
      (setItemStates smallBitmap takenItems (preparedBuffers smallVolume smallBitmap 0).data),
    ∃ fuel shown, log.dumped.parseMetadata (fun _ _ _ => .ok (none, [])) noDecompress fuel =
        .ok (none, shown) ∧ ShowsFragments smallVolume smallBitmap 0 takenItems shown := by
  have hpolicy : segbmapMkfsAllocationPolicy smallVolume 1 = .ok (smallBitmap, 1) := by decide +kernel
  have hprepare : segbmapMkfsPrepare smallVolume smallBitmap =
      .ok (preparedBuffers smallVolume smallBitmap) :=
    eq_ok_getD (by decide +kernel)
  have hlogs : segbmapDefineLogTables (ssdfsCrc32Le fun _ _ => 0) smallVolume (bitmapSegs 1)
      smallBitmap = .ok (definedLogs smallVolume smallBitmap) := eq_ok_getD (by decide +kernel)
  obtain ⟨log⟩ := @SegbmapLog.exists (fun _ _ => 0) smallVolume (bitmapSegs 1) smallBitmap
    ((definedLogs smallVolume smallBitmap).get ⟨0, definedLogs_small⟩)
    (setItemStates smallBitmap takenItems (preparedBuffers smallVolume smallBitmap 0).data)
    (commitPages 3) 2 0 0 (segbmapContent _ _ 4096) (by decide) rfl (by decide +kernel) rfl rfl rfl
    (by decide +kernel)
  exact ⟨definedLogs_small, log,
    (parseMetadata_shows_iff hpolicy hprepare hlogs definedLogs_small (by decide) log).2
    (.inl (by decide))⟩

/-- None of sixty fragments is shown. -/
theorem parseMetadata_hides_60 :
    segbmapMkfsAllocationPolicy largeVolume 60 = .ok (largeBitmap, 1) ∧
    segbmapMkfsPrepare largeVolume largeBitmap = .ok (preparedBuffers largeVolume largeBitmap) ∧
    segbmapDefineLogTables (ssdfsCrc32Le fun _ _ => 0) largeVolume (bitmapSegs 1) largeBitmap =
      .ok (definedLogs largeVolume largeBitmap) ∧
    ∃ hp : 0 < (definedLogs largeVolume largeBitmap).length,
    ∃ log : SegbmapLog (fun _ _ => 0) largeVolume (bitmapSegs 1) largeBitmap
      (definedLogs largeVolume largeBitmap)[0]
      (setItemStates largeBitmap [] (preparedBuffers largeVolume largeBitmap 0).data),
    ¬∃ fuel shown, log.dumped.parseMetadata (fun _ _ _ => .ok (none, [])) noDecompress fuel =
        .ok (none, shown) ∧ ShowsFragments largeVolume largeBitmap 0 [] shown := by
  have hpolicy : segbmapMkfsAllocationPolicy largeVolume 60 = .ok (largeBitmap, 1) := by
    decide +kernel
  have hprepare : segbmapMkfsPrepare largeVolume largeBitmap =
      .ok (preparedBuffers largeVolume largeBitmap) :=
    eq_ok_getD (by decide +kernel)
  have hlogs : segbmapDefineLogTables (ssdfsCrc32Le fun _ _ => 0) largeVolume (bitmapSegs 1)
      largeBitmap = .ok (definedLogs largeVolume largeBitmap) := eq_ok_getD (by decide +kernel)
  obtain ⟨log⟩ := @SegbmapLog.exists (fun _ _ => 0) largeVolume (bitmapSegs 1) largeBitmap
    ((definedLogs largeVolume largeBitmap).get ⟨0, definedLogs_large⟩)
    (setItemStates largeBitmap [] (preparedBuffers largeVolume largeBitmap 0).data)
    (commitPages 62) 2 0 0 (segbmapContent _ _ 245760) (by decide) rfl (by decide +kernel) rfl rfl rfl
    (by decide +kernel)
  refine ⟨hpolicy, hprepare, hlogs, definedLogs_large, log, ?_⟩
  obtain ⟨-, hdefine⟩ := failIf_bind_eq_ok.1 hlogs
  obtain ⟨-, hwritten⟩ := defineLogTables_run hdefine
  apply mt (parseMetadata_iff (segbmapMkfsAllocationPolicy_inv hpolicy) hprepare
    (hwritten 0 definedLogs_large) (fun w hw => absurd hw List.not_mem_nil) log).1
  decide

end Ssdfs
