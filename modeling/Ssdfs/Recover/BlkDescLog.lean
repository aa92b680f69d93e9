import Ssdfs.BlkDesc.Run
import Ssdfs.Recover.BlkDescDrain

namespace Ssdfs

open Memory

/-- The area lies in an erase block of the device where its descriptor says. -/
structure AreaStored (dev : Buf) (peb : PebEnvironment) (desc : AreaDescriptor) (area : Buf) :
    Prop where
  size : desc.size.toNat = area.size
  fits : desc.offset.toNat + area.size ≤ peb.pebSize.toNat
  device : peb.id.toNat * peb.pebSize.toNat + peb.pebSize.toNat ≤ dev.size
  limit : dev.size ≤ 2 ^ 64
  bytes : ∀ i < area.size,
    dev.data (peb.id.toNat * peb.pebSize.toNat + desc.offset.toNat + i) = area.data i

section

variable {dev area B : Buf} {peb : PebEnvironment} {desc : AreaDescriptor} {env : RawAreaEnvironment}

@[simp] theorem createRawBuffer_zero {buf : Option Buf} : createRawBuffer buf 0 = none := by
  cases buf with
  | none => rfl
  | some b => rfl

theorem openBlkDescArea_ok (h : AreaStored dev peb desc area) (hpos : 0 < area.size) :
    ∃ env', openBlkDescArea dev peb desc env = .ok env' ∧ ∃ B, Opened B env' ∧
      area.size ≤ B.size ∧ ∀ i < area.size, B.data i = area.data i := by
  have hfits := h.fits
  have hdevice := h.device
  have hlimit := h.limit
  unfold openBlkDescArea createRawAreaEnvironment
  simp only
  rw [failIf_of_not (by rw [h.size]; omega), Checked.ok_bind]
  unfold prefetchBlkDescTable
  simp only
  have hbuf := @prepareRawBuffer_size (createRawBuffer env.buffer area2bufferSize) desc.size.toNat
  generalize prepareRawBuffer (createRawBuffer env.buffer area2bufferSize) desc.size.toNat = buf at hbuf
  rw [h.size] at hbuf ⊢
  have hbytes := h.bytes
  have hplace : Word.u64 (Word.u64 (peb.id.toNat * peb.pebSize.toNat) + desc.offset.toNat) =
      peb.id.toNat * peb.pebSize.toNat + desc.offset.toNat := by
    rw [@Word.u64_of_lt (peb.id.toNat * peb.pebSize.toNat) (by omega), Word.u64_of_lt (by omega)]
  obtain ⟨B, hB, hsize, hdata⟩ := @readAreaContent_inside dev buf peb desc.offset.toNat area.size
    (by omega) (by omega)
  rw [hB, Checked.ok_bind]
  refine ⟨_, rfl, B, ⟨rfl, rfl, createRawBuffer_zero⟩, by omega, fun i hi => ?_⟩
  rw [hdata i hi, hplace, hbytes i hi]

end

section

variable {crc32 : List UInt8 → UInt32} {decompress : UInt8 → Buf → Nat → Nat → Buf → Nat → Mkfs Buf}
  {B : Buf} {env : RawAreaEnvironment} {ds : List BlockDescriptor}

theorem firstValidFragment_none {is : List Nat}
    (hhdr : env.blkDescHdr.chainHdr.magic = chainHdrMagic)
    (htype : env.blkDescHdr.chainHdr.type ∈ blkDescChainHdrs)
    (hblk : ∀ i (h : i < blkTableMax), i ∈ is → (env.blkDescHdr.blk ⟨i, h⟩).magic ≠ fragmentDescMagic)
    (hmax : ∀ i ∈ is, i < blkTableMax) :
    firstValidFragment crc32 decompress B env is = fail .enodata := by
  induction is with
  | nil => rfl
  | cons i is ih =>
    have hi := hmax i List.mem_cons_self
    have hcopy : copyBlkDescFragment crc32 decompress B i env = fail .enodata := by
      unfold copyBlkDescFragment
      simp only
      rw [failIf_of_not (by simp [hhdr]), Checked.ok_bind, failIf_of_not (by simp [htype]),
        Checked.ok_bind, dif_pos hi]
      unfold failIf
      rw [if_pos (hblk i hi List.mem_cons_self)]
      rfl
    unfold firstValidFragment
    rw [hcopy]
    exact ih (fun k hk hmem => hblk k hk (List.mem_cons_of_mem i hmem)) fun k hk =>
      hmax k (List.mem_cons_of_mem i hk)

theorem getNextBlkDesc_opened (h : Opened B env) (hsize : 256 ≤ B.size) :
    getNextBlkDesc crc32 decompress env =
      extractValidBlkDescFragment crc32 decompress B 0
        { env with blkDescHdr := AreaBlockTable.wire.read B.data 0 } >>= fun env => takeBlkDesc env := by
  unfold getNextBlkDesc prepareContentBuffer
  rw [h.state]
  unfold prepareFirstContentBuffer
  rw [h.buffer]
  unfold readPortionHeader
  simp only
  rw [Buf.get_ok (by rw [AreaBlockTable.wire_size]; omega), Checked.ok_bind, Checked.ok_bind,
    ← h.buffer]

theorem drains_uncounted {n : Nat} (h : Opened B env) (hsize : 256 ≤ B.size)
    (hhdr : FragmentsChainHeader.wire.read B.data 0 = areaHeader 0 n false)
    (hrest : ∀ i, 16 ≤ i → i < 256 → B.data i = 0)
    (hd : Checked.Drains (getNextBlkDesc crc32 decompress) .enodata env ds) : ds = [] := by
  refine Checked.drains_of_stop ?_ hd
  have hchain : (AreaBlockTable.wire.read B.data 0).chainHdr = areaHeader 0 n false := hhdr
  have hcount : (UInt16.ofNat 0).toNat = 0 := rfl
  rw [getNextBlkDesc_opened h hsize]
  unfold extractValidBlkDescFragment
  simp only
  rw [hchain, failIf_of_not fun h => h rfl, Checked.ok_bind]
  unfold areaHeader
  simp only
  rw [hcount, if_pos rfl, firstValidFragment_none (by rw [hchain]; rfl)
    (by rw [hchain]; exact List.mem_cons_self) (fun i hi hmem => ?_) fun i hi => ?_]
  · rfl
  · have hlt : i < 14 := by
      simpa [fragmentsChainMax] using hmem
    have hmagic : ((AreaBlockTable.wire.read B.data 0).blk ⟨i, hi⟩).magic =
        B.data (0 + 16 + i * 16 + 4 + 2 + 2 + 4 + 1) := rfl
    rw [hmagic, hrest _ (by omega) (by omega)]
    decide
  · have hlt : i < 14 := by
      simpa [fragmentsChainMax] using hi
    exact Nat.lt_succ_of_lt hlt

theorem not_drains_blank (h : Opened B env) (hsize : 256 ≤ B.size)
    (hzero : ∀ i < 256, B.data i = 0) :
    ¬Checked.Drains (getNextBlkDesc crc32 decompress) .enodata env ds := by
  refine Checked.not_drains_of_error (e := .code .eio) ?_ (by decide)
  have hmagic : (AreaBlockTable.wire.read B.data 0).chainHdr.magic = B.data (0 + 4 + 4 + 2 + 2) := rfl
  rw [getNextBlkDesc_opened h hsize]
  unfold extractValidBlkDescFragment
  simp only
  rw [hmagic, hzero _ (by decide)]
  rfl

end

section

variable {crc32 : List UInt8 → UInt32} {decompress : UInt8 → Buf → Nat → Nat → Buf → Nat → Mkfs Buf}
  {src : BlkDescSource} {B : Buf} {F H page v : Nat} {hasNextArea : Bool} {env : RawAreaEnvironment}

theorem drains_firstTable_iff (hv : 0 < v) (hF : (v + 59) / 60 = F) (hH : (F + 13) / 14 = H)
    (htable : TableAt crc32 src B.data 0 0 (fragmentsPerArea 0 F) hasNextArea page
      (blksPerArea 0 F v) 0)
    (hfit : 256 + itemsBefore (fragmentsPerArea 0 F) (blksPerArea 0 F v) (fragmentsPerArea 0 F) * 64 ≤
      B.size) (h : Opened B env)
    (huncounted : F = 14 → ∀ ds,
      Checked.Drains (getNextBlkDesc crc32 decompress) .enodata env ds → ds = []) :
    Checked.Drains (getNextBlkDesc crc32 decompress) .enodata env (blockDescriptors src page 0 v) ↔
      v % 60 ≠ 0 ∧ v < 780 := by
  have hmax := @fragmentsPerArea_le F H 0 hH.symm (by omega)
  by_cases hsmall : v % 60 ≠ 0 ∧ v < 780
  · refine iff_of_true ?_ hsmall
    have hf : fragmentsPerArea 0 F = F := by
      rw [fragmentsPerArea_last hH.symm (by omega)]
      omega
    have hn : blksPerArea 0 F v = v := by
      rw [blksPerArea_last hH.symm (by omega)]
      omega
    rw [hf, hn] at htable hfit
    rw [hf] at hmax
    have hitems : itemsBefore F v F = v := by
      rw [itemsBefore_self (by omega)]
      omega
    have hdrains : Checked.Drains (getNextBlkDesc crc32 decompress) _ _ _ :=
      drains_table htable hmax hfit (by omega) hsmall.1 h
    rw [hitems] at hdrains
    exact hdrains
  · refine iff_of_false (fun hd => ?_) hsmall
    by_cases h14 : F = 14
    · have hnil := congrArg List.length (huncounted h14 _ hd)
      unfold blockDescriptors at hnil
      rw [List.length_map, List.length_range] at hnil
      exact Nat.ne_of_gt hv hnil
    · have hlast : blksPerArea 0 F v % 60 = 0 ∧ 0 < fragmentsPerArea 0 F := by
        rcases Nat.lt_or_ge 1 H with hlt | hge
        · rw [blksPerArea_of_lt hH.symm hlt, fragmentsPerArea_of_lt hH.symm hlt]
          decide
        · rw [blksPerArea_last hH.symm (by omega), fragmentsPerArea_last hH.symm (by omega)]
          omega
      rcases Nat.lt_or_ge 1 (fragmentsPerArea 0 F) with hlt | hge
      · exact not_drains_table htable hmax hfit hlt hlast.1 h hd
      · have h1 : fragmentsPerArea 0 F = 1 := by omega
        rw [h1] at htable
        exact not_drains_empty htable (by omega) hlast.1 h hd

end

section

variable {crc32 : List UInt8 → UInt32} {decompress : UInt8 → Buf → Nat → Nat → Buf → Nat → Mkfs Buf}
  {layout : VolumeLayout} {a : SegsArray} {segIndex pebIndex : Nat} {startLogicalBlk : UInt32}
  {validBlks : UInt16} {inodeId : UInt64} {payloadOffsetInBytes itemSize : UInt32} {dev buf : Buf}
  {peb : PebEnvironment} {desc : AreaDescriptor} {env : RawAreaEnvironment}

theorem recoverfsBlkDescs_iff (hcapacity : (a.segs segIndex).pebsCapacity ≤ Word.u16Max)
    (hwrite : preCommitBlockDescriptors crc32 layout a segIndex pebIndex startLogicalBlk validBlks
      inodeId payloadOffsetInBytes itemSize = .ok buf) (hstored : AreaStored dev peb desc buf) :
    (∃ env', openBlkDescArea dev peb desc env = .ok env' ∧
      Checked.Drains (getNextBlkDesc crc32 decompress) .enodata env'
        (blockDescriptors ⟨pebIndex, inodeId, itemSize, layout.pageSize.bytes, payloadOffsetInBytes⟩
          startLogicalBlk.toNat 0 validBlks.toNat)) ↔
      validBlks.toNat % 60 ≠ 0 ∧ validBlks.toNat < 780 := by
  rcases Nat.eq_zero_or_pos validBlks.toNat with hzero | hvalid
  · obtain ⟨hsize, hblank⟩ := preCommitBlockDescriptors_blank hzero hwrite
    refine iff_of_false ?_ (by omega)
    rintro ⟨env', henv', hdrains⟩
    obtain ⟨env'', henv'', B, hopened, hle, hdata⟩ :=
      @openBlkDescArea_ok dev buf peb desc env hstored (by omega)
    cases henv'.symm.trans henv''
    refine not_drains_blank hopened (by omega) (fun i hi => ?_) hdrains
    rw [hdata i (by omega), hblank]
  obtain ⟨hsize, hspan, htable⟩ := preCommitBlockDescriptors_run hcapacity hvalid hwrite
  obtain ⟨env', henv', B, hopened, hle, hdata⟩ :=
    @openBlkDescArea_ok dev buf peb desc env hstored (by omega)
  have hopen : ∀ ds, (∃ env'', openBlkDescArea dev peb desc env = .ok env'' ∧
      Checked.Drains (getNextBlkDesc crc32 decompress) .enodata env'' ds) ↔
        Checked.Drains (getNextBlkDesc crc32 decompress) .enodata env' ds := fun ds => by simp [henv']
  rw [hopen]
  unfold areaItems at hspan
  have htable' : TableAt _ _ B.data _ _ _ _ _ _ _ :=
    htable.congr (fragmentsPerArea_le rfl (by omega)) fun x _ hx => hdata x (by omega)
  refine drains_firstTable_iff hvalid rfl rfl htable' (by omega) hopened fun hF ds hd => ?_
  obtain ⟨hsize', hheader, hrest⟩ := preCommitBlockDescriptors_uncounted hF hwrite
  refine @drains_uncounted crc32 decompress B env' ds (validBlks.toNat % 840) hopened (by omega) ?_
    (fun i hi hi' => ?_) hd
  · rw [← hheader]
    refine FragmentsChainHeader.wire.read_congr fun i hi => ?_
    rw [FragmentsChainHeader.wire_size] at hi
    exact hdata _ (by omega)
  · rw [hdata i (by omega), hrest i hi]

end

/-- One erase block that holds the area at byte 8192. -/
def logDevice (area : Buf) : Buf := ⟨2097152, fun i => area.data (i - 8192)⟩

def firstPeb : PebEnvironment := ⟨0, 2097152⟩

def freshArea : RawAreaEnvironment :=
  ⟨0, 0, createContentIterator, emptyAreaBlockTable, none, none⟩

theorem areaStored_logDevice {area : Buf} {desc : AreaDescriptor} (hoffset : desc.offset = 8192)
    (hsize : desc.size.toNat = area.size) (hfits : 8192 + area.size ≤ 2097152) :
    AreaStored (logDevice area) firstPeb desc area where
  size := hsize
  fits := by
    rw [hoffset]
    exact hfits
  device := Nat.le_refl 2097152
  limit := (by decide : 2097152 ≤ 2 ^ 64)
  bytes i _ := by
    rw [hoffset]
    have hplace : firstPeb.id.toNat * firstPeb.pebSize.toNat + (8192 : UInt32).toNat = 8192 := rfl
    unfold logDevice
    simp only
    rw [hplace, Nat.add_sub_cancel_left]

theorem recoverfsBlkDescs_61 : ∃ buf, preCommitBlockDescriptors (fun _ => 0) widePebs freshSegs 0 0 0 61
      14 0 4096 = .ok buf ∧ ∃ env, openBlkDescArea (logDevice buf) firstPeb ⟨8192, 4160⟩ freshArea =
        .ok env ∧ Checked.Drains (getNextBlkDesc (fun _ => 0) noDecompress) .enodata env
          (blockDescriptors ⟨0, 14, 4096, 4096, 0⟩ 0 0 61) := by
  obtain ⟨buf, hbuf⟩ : ∃ buf, preCommitBlockDescriptors (fun _ => 0) widePebs freshSegs 0 0 0 61 14 0
      4096 = .ok buf := Checked.exists_ok rfl
  have hsize : buf.size = 4160 := by
    have hrun : (preCommitBlockDescriptors (fun _ => 0) widePebs freshSegs 0 0 0 61 14 0 4096).map
      (fun b => b.size) = .ok 4160 := rfl
    rw [hbuf] at hrun
    exact Except.ok.inj hrun
  have hstored : AreaStored (logDevice buf) firstPeb ⟨8192, 4160⟩ buf :=
    areaStored_logDevice rfl hsize.symm (by omega)
  exact ⟨buf, hbuf, (recoverfsBlkDescs_iff (by decide) hbuf hstored).2 ⟨by decide, by decide⟩⟩

/-- The only fragment of 60 blocks has no items: even the first of them is an error. -/
theorem recoverfsBlkDescs_loses_60 : ∃ buf, preCommitBlockDescriptors (fun _ => 0) widePebs freshSegs 0
      0 0 60 14 0 4096 = .ok buf ∧ ¬∃ env, openBlkDescArea (logDevice buf) firstPeb ⟨8192, 256⟩
        freshArea = .ok env ∧ Checked.Drains (getNextBlkDesc (fun _ => 0) noDecompress)
          .enodata env (blockDescriptors ⟨0, 14, 4096, 4096, 0⟩ 0 0 60) := by
  obtain ⟨buf, hbuf⟩ : ∃ buf, preCommitBlockDescriptors (fun _ => 0) widePebs freshSegs 0 0 0 60 14 0
      4096 = .ok buf := Checked.exists_ok rfl
  refine ⟨buf, hbuf, ?_⟩
  rintro ⟨env, henv, hdrains⟩
  have hfirst : (do
    let buf ← preCommitBlockDescriptors (fun _ => 0) widePebs freshSegs 0 0 0 60 14 0 4096
    let env ← openBlkDescArea (logDevice buf) firstPeb ⟨8192, 256⟩ freshArea
    getNextBlkDesc (fun _ => 0) noDecompress env) = .error (.code .erange) := rfl
  rw [hbuf, Checked.ok_bind, henv, Checked.ok_bind] at hfirst
  exact Checked.not_drains_of_error hfirst (by decide) hdrains

end Ssdfs
