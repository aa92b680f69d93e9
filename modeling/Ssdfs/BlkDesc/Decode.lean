import Ssdfs.BlkDesc.Run

namespace Ssdfs

open Memory

section

variable (buf : Buf)

def readItem (array k : Nat) (ds : List BlockDescriptor) : Mkfs (List BlockDescriptor) := do
  let d ← buf.get Errno BlockDescriptor.wire (array + k * blockDescriptorSize)
  .ok (ds ++ [d])

def readFragment (ptr i : Nat) (ds : List BlockDescriptor) : Mkfs (List BlockDescriptor) := do
  let fdesc ← buf.get Errno FragmentDesc.wire (blkOffset ptr i)
  Checked.forRange (fdesc.uncomprSize.toNat / blockDescriptorSize)
    (readItem buf (ptr + fdesc.offset.toNat)) ds

def readTable (ptr : Nat) (ds : List BlockDescriptor) : Mkfs (Bool × List BlockDescriptor) := do
  let header ← buf.get Errno FragmentsChainHeader.wire ptr
  failIf (header.fragmentsCount.toNat = 0 ∨ header.fragmentsCount.toNat > fragmentsChainMax) .eio
  let ds ← Checked.forRange header.fragmentsCount.toNat (readFragment buf ptr) ds
  .ok (header.flags &&& multipleHdrChain ≠ 0, ds)

def readTables : Nat → Nat → List BlockDescriptor → Mkfs (List BlockDescriptor)
  | 0, _, _ => .error .fuel
  | fuel + 1, ptr, ds => do
    let (hasNextArea, ds) ← readTable buf ptr ds
    if hasNextArea then
      let fdesc ← buf.get Errno FragmentDesc.wire (blkOffset ptr nextBlkTableIndex)
      readTables fuel fdesc.offset.toNat ds
    else .ok ds

def readBlockDescriptors : Mkfs (List BlockDescriptor) := readTables buf buf.size 0 []

end

/-- The first `n` descriptors from block `page` and byte `offset` on. -/
def blockDescriptors (src : BlkDescSource) (page offset n : Nat) : List BlockDescriptor :=
  (List.range n).map fun k =>
    blockDescriptor src (Word.u32 (offset + k * src.itemSize.toNat)) (Word.u32 (page + k))

section

variable {crc32 : List UInt8 → UInt32} {src : BlkDescSource} {buf : Buf}
  {ptr areaIndex f page n m offset : Nat} {hasNextArea : Bool} {ds : List BlockDescriptor}

theorem blockDescriptors_add : blockDescriptors src page offset (m + n) =
    blockDescriptors src page offset m ++
      blockDescriptors src (page + m) (offset + m * src.itemSize.toNat) n := by
  unfold blockDescriptors
  rw [List.range_add, List.map_append, List.map_map]
  congr 1
  refine List.map_congr_left fun k _ => ?_
  simp only [Function.comp_apply]
  rw [Nat.add_mul, ← Nat.add_assoc, ← Nat.add_assoc]

theorem readItems_ok {array : Nat} (hitems : ItemsAt src buf.data array page offset n)
    (hfit : array + n * 64 ≤ buf.size) :
    Checked.forRange n (readItem buf array) ds =
      .ok (ds ++ blockDescriptors src page offset n) := by
  obtain ⟨ds', hds', rfl⟩ := @Checked.forRange_ok _ _ (readItem buf array)
    (fun k ds' => ds' = ds ++ blockDescriptors src page offset k) n ds
    (by simp [blockDescriptors]) fun k hk ds' hds' => by
      refine ⟨_, ?_, rfl⟩
      unfold readItem
      rw [Buf.get_ok (by rw [BlockDescriptor.wire_size]; unfold blockDescriptorSize; omega),
        Checked.ok_bind]
      have hitem := hitems k hk
      unfold blockDescriptorSize
      rw [hitem, hds', blockDescriptors_add, List.append_assoc]
      simp [blockDescriptors]
  exact hds'

theorem readFragment_ok {array i : Nat} (hn : n ≤ 60) (harray : array < 4294967296)
    (hfragment : FragmentAt crc32 src buf.data (blkOffset ptr i) (ptr + array) array i page offset n)
    (hdesc : blkOffset ptr i + 16 ≤ buf.size) (hfit : ptr + array + n * 64 ≤ buf.size) :
    readFragment buf ptr i ds = .ok (ds ++ blockDescriptors src page offset n) := by
  unfold readFragment
  rw [Buf.get_ok (by rw [FragmentDesc.wire_size]; exact hdesc), Checked.ok_bind, hfragment.desc]
  have hcount : (UInt16.ofNat (n * 64)).toNat / blockDescriptorSize = n := by
    rw [UInt16.toNat_ofNat_of_lt' (show n * 64 < 65536 by omega)]
    exact Nat.mul_div_cancel _ (by decide)
  have hoffset : (UInt32.ofNat array).toNat = array := UInt32.toNat_ofNat_of_lt' harray
  unfold fragmentDesc
  simp only [hcount, hoffset]
  exact readItems_ok hfragment.items hfit

theorem readTable_exact (hf : f ≤ fragmentsChainMax)
    (htable : TableAt crc32 src buf.data ptr areaIndex f hasNextArea page n offset)
    (hfit : ptr + 256 + itemsBefore f n f * 64 ≤ buf.size) :
    Checked.Exact (readTable buf ptr ds) (0 < f) fun r =>
      r = (hasNextArea, ds ++ blockDescriptors src page offset (itemsBefore f n f)) := by
  unfold fragmentsChainMax at hf
  have hcount : (UInt16.ofNat f).toNat = f :=
    UInt16.toNat_ofNat_of_lt' (show f < 65536 by omega)
  unfold readTable
  rw [Buf.get_ok (by rw [FragmentsChainHeader.wire_size]; omega), Checked.ok_bind, htable.header]
  unfold areaHeader
  simp only [hcount]
  refine (failIf_exact.bind (D := True) fun _ _ => ?_).congr (by
    unfold fragmentsChainMax
    rw [and_true]
    omega) fun _ h => h
  obtain ⟨ds', hds', rfl⟩ := @Checked.forRange_ok _ _ (readFragment buf ptr)
    (fun i ds' => ds' = ds ++ blockDescriptors src page offset (itemsBefore f n i)) f ds
    (by simp [blockDescriptors, itemsBefore]) fun i hi ds' hds' => by
      have hend := fragmentItems_end (n := n) hi
      refine ⟨_, readFragment_ok fragmentItems_le (by omega) (htable.fragments i hi)
        (by unfold blkOffset; omega) (by omega), ?_⟩
      rw [hds', itemsBefore, itemsBefore_of_lt hi, blockDescriptors_add, List.append_assoc]
  rw [hds', Checked.ok_bind]
  refine Checked.Exact.ok ?_
  cases hasNextArea
  · simp
  · have hflag : multipleHdrChain ≠ 0 := by decide
    simp [hflag]

end

section

variable {crc32 : List UInt8 → UInt32} {src : BlkDescSource} {buf : Buf} {F H page v : Nat}

def areaDescriptors (src : BlkDescSource) (F page v a : Nat) : List BlockDescriptor :=
  blockDescriptors src (page + a * 840) (a * 780 * src.itemSize.toNat) (areaItems F v a)

theorem blkOffset_next_end (ptr : Nat) :
    blkOffset ptr nextBlkTableIndex + FragmentDesc.wire.size = ptr + 256 := rfl

theorem nextAreaDesc_offset {a : Nat} (ha : a < 10000) :
    (nextAreaDesc a (a * 54016) 840).offset.toNat = (a + 1) * 54016 := by
  have harea : areaBlockTableSize + 840 * blockDescriptorSize = 54016 := rfl
  unfold nextAreaDesc
  simp only [harea]
  rw [Word.u32_of_lt (by decide), ← Nat.succ_mul]
  exact UInt32.toNat_ofNat_of_lt' (show (a + 1) * 54016 < 4294967296 by omega)

theorem readTables_exact (hF : 0 < F) (hF' : F < 65536) (hH : H = (F + 13) / 14)
    (hfit : H * 256 + (F - 1) * 3840 + v % 60 * 64 ≤ buf.size)
    (htables : ∀ a < H, TablesAt crc32 src buf.data F H page v a) {fuel a : Nat}
    {ds : List BlockDescriptor} (ha : a < H) (hfuel : H ≤ a + fuel) :
    Checked.Exact (readTables buf fuel (a * 54016) ds) (0 < F % 14) fun ds' =>
      ds' = ds ++ (List.range' a (H - a)).flatMap (areaDescriptors src F page v) := by
  induction fuel generalizing a ds with
  | zero => omega
  | succ fuel ih =>
    have hfpa := fragmentsPerArea_le hH ha
    have hfits := @area_fits F H a v hF hH ha
    unfold readTables
    have htable := @readTable_exact crc32 src buf (a * 54016) a (fragmentsPerArea a F)
      (page + a * 840) (blksPerArea a F v) (a * 780 * src.itemSize.toNat) (a + 1 < H) ds hfpa
      (htables a ha) (Nat.le_trans hfits hfit)
    rcases Nat.lt_or_ge (a + 1) H with hlt | hge
    · have hpos : 0 < fragmentsPerArea a F := by
        rw [fragmentsPerArea_of_lt hH hlt]
        decide
      refine (htable.congr (iff_of_true trivial hpos) fun _ h => h).bind_ok fun r hr => ?_
      rw [hr]
      simp only [hlt, decide_true, if_true]
      have hslot : blkOffset (a * 54016) nextBlkTableIndex + FragmentDesc.wire.size ≤ buf.size := by
        rw [blkOffset_next_end]
        exact Nat.le_trans (Nat.le_add_right _ _) (Nat.le_trans hfits hfit)
      rw [Buf.get_ok hslot, Checked.ok_bind, (htables a ha).next (by simp [hlt]), blksPerArea_of_lt hH hlt,
        nextAreaDesc_offset (by omega)]
      refine (ih hlt (by omega)).congr Iff.rfl fun ds' hds' => ?_
      have hrange : H - a = (H - (a + 1)) + 1 := by omega
      rw [hds', hrange, List.range'_succ, List.flatMap_cons, List.append_assoc]
      unfold areaDescriptors areaItems
      rw [blksPerArea_of_lt hH hlt]
    · have hlast : a + 1 = H := by omega
      refine (htable.bind (D := True) fun r hr => ?_).congr (by
        rw [and_true, fragmentsPerArea_last hH hlast]) fun _ h => h
      rw [hr]
      have hnot : ¬a + 1 < H := by omega
      simp only [hnot, decide_false, Bool.false_eq_true, if_false]
      refine Checked.Exact.ok ?_
      have hrange : H - a = 1 := by omega
      rw [hrange, List.range'_one, List.flatMap_singleton]
      rfl

theorem readBlockDescriptors_exact (hF : 0 < F) (hF' : F < 65536) (hH : H = (F + 13) / 14)
    (hsize : buf.size = H * 256 + (F - 1) * 3840 + v % 60 * 64)
    (htables : ∀ a < H, TablesAt crc32 src buf.data F H page v a) :
    Checked.Exact (readBlockDescriptors buf) (0 < F % 14) fun ds =>
      ds = (List.range H).flatMap (areaDescriptors src F page v) := by
  have hread := @readTables_exact crc32 src buf F H page v hF hF' hH (Nat.le_of_eq hsize.symm) htables
    buf.size 0 [] (by omega) (by omega)
  rw [Nat.zero_mul, Nat.sub_zero, ← List.range_eq_range'] at hread
  exact hread

@[simp] theorem length_areaDescriptors {a : Nat} :
    (areaDescriptors src F page v a).length = areaItems F v a := by
  simp [areaDescriptors, blockDescriptors]

theorem length_tables (hH : H + 1 = (F + 13) / 14) (hF : 0 < F % 14) :
    ((List.range (H + 1)).flatMap (areaDescriptors src F page v)).length =
      H * 780 + ((F % 14 - 1) * 60 + v % 60) := by
  have hfull : (List.range H).map (fun a => (areaDescriptors src F page v a).length) =
      (List.range H).map fun _ => 780 :=
    List.map_congr_left fun a ha => by
      rw [length_areaDescriptors, areaItems_of_lt hH (Nat.succ_lt_succ (List.mem_range.1 ha))]
  rw [List.range_succ, List.flatMap_append, List.length_append, List.length_flatMap, hfull,
    List.flatMap_singleton, length_areaDescriptors, areaItems_last hH rfl hF, List.map_const',
    List.sum_replicate_nat, List.length_range]

theorem length_tables_eq_iff (hv : 0 < v) (hF : F = (v + 59) / 60) (hH : H = (F + 13) / 14)
    (hpos : 0 < F % 14) :
    ((List.range H).flatMap (areaDescriptors src F page v)).length = v ↔
      v % 60 ≠ 0 ∧ v < 780 := by
  obtain ⟨n, rfl⟩ := Nat.exists_eq_succ_of_ne_zero (show H ≠ 0 by omega)
  rw [length_tables hH hpos]
  omega

end

/-- The descriptors of `validBlks` blocks from `startLogicalBlk` on, in order. -/
structure Describes (startLogicalBlk validBlks itemSize : Nat) (ds : List BlockDescriptor) :
    Prop where
  length : ds.length = validBlks
  pebPage : ∀ k (h : k < ds.length), ds[k].pebPage.toNat = startLogicalBlk + k
  byteOffset : ∀ k (h : k < ds.length), (ds[k].state 0).byteOffset.toNat = k * itemSize

theorem describes_blockDescriptors_iff {src : BlkDescSource} {page n : Nat} (hn : 0 < n)
    (hpage : page + n ≤ 65535) :
    Describes page n src.itemSize.toNat (blockDescriptors src page 0 n) ↔
      (n - 1) * src.itemSize.toNat < 4294967296 := by
  have hlength : (blockDescriptors src page 0 n).length = n := by simp [blockDescriptors]
  have hget : ∀ k (h : k < (blockDescriptors src page 0 n).length),
      (blockDescriptors src page 0 n)[k] =
        blockDescriptor src (Word.u32 (k * src.itemSize.toNat)) (Word.u32 (page + k)) := fun k h => by
    simp [blockDescriptors]
  have hoffset : ∀ k, ((blockDescriptor src (Word.u32 (k * src.itemSize.toNat))
      (Word.u32 (page + k))).state 0).byteOffset.toNat = Word.u32 (k * src.itemSize.toNat) := fun k =>
    Nat.mod_mod _ _
  constructor
  · intro h
    have hlast := h.byteOffset (n - 1) (by omega)
    rw [hget, hoffset] at hlast
    rw [← hlast]
    exact Word.u32_lt _
  · intro h
    refine ⟨hlength, fun k hk => ?_, fun k hk => ?_⟩
    · rw [hget, Word.u32_of_lt (n := page + k) (by omega)]
      exact UInt16.toNat_ofNat_of_lt' (show page + k < 65536 by omega)
    · rw [hget, hoffset]
      refine Word.u32_of_lt (Nat.lt_of_le_of_lt (Nat.mul_le_mul_right _ ?_) h)
      omega

section

variable {crc32 : List UInt8 → UInt32} {layout : VolumeLayout} {a : SegsArray}
  {segIndex pebIndex : Nat} {startLogicalBlk : UInt32} {validBlks : UInt16} {inodeId : UInt64}
  {payloadOffsetInBytes itemSize : UInt32}

theorem preCommitBlockDescriptors_decodes_iff (hseg : segIndex < a.segsCapacity)
    (hpeb : pebIndex < (a.segs segIndex).pebsCapacity)
    (hcapacity : (a.segs segIndex).pebsCapacity ≤ Word.u16Max)
    (hbuf : (((a.segs segIndex).pebs pebIndex).extents .blockDescriptors).buf = none)
    (hpage : layout.pageSize.bytes ≤ layout.env.eraseSize.toNat) (hvalid : 1 ≤ validBlks.toNat)
    (hmax : validBlks.toNat ≤ layout.env.eraseSize.toNat / layout.pageSize.bytes) :
    (∃ buf ds, preCommitBlockDescriptors crc32 layout a segIndex pebIndex startLogicalBlk validBlks
        inodeId payloadOffsetInBytes itemSize = .ok buf ∧ readBlockDescriptors buf = .ok ds ∧
        Describes startLogicalBlk.toNat validBlks.toNat itemSize.toNat ds) ↔
      validBlks.toNat % 60 ≠ 0 ∧ validBlks.toNat < 780 ∧
        startLogicalBlk.toNat + validBlks.toNat ≤ 65535 ∧
        (validBlks.toNat - 1) * itemSize.toNat < 4294967296 := by
  have hv := validBlks.toNat_lt
  have hwrite := @preCommitBlockDescriptors_exact crc32 layout a segIndex pebIndex startLogicalBlk
    validBlks inodeId payloadOffsetInBytes itemSize hseg hpeb (Nat.lt_of_lt_of_le hpeb hcapacity) hbuf
    hpage hvalid hmax
  simp only at hwrite
  generalize hF : (validBlks.toNat + 59) / 60 = F at hwrite
  generalize hH : (F + 13) / 14 = H at hwrite
  generalize hsrc : BlkDescSource.mk pebIndex inodeId itemSize layout.pageSize.bytes
    payloadOffsetInBytes = src at hwrite
  have hitem : src.itemSize = itemSize := by rw [← hsrc]
  have hall : H = 1 → 0 < F % 14 → validBlks.toNat % 60 ≠ 0 →
      areaItems F validBlks.toNat 0 = validBlks.toNat := fun h1 hpos hr => by
    rw [areaItems_last hH.symm (by omega) hpos]
    omega
  have hone : H = 1 → 0 < F % 14 → validBlks.toNat % 60 ≠ 0 →
      (List.range H).flatMap (areaDescriptors src F startLogicalBlk.toNat validBlks.toNat) =
        blockDescriptors src startLogicalBlk.toNat 0 validBlks.toNat := fun h1 hpos hr => by
    rw [h1, List.range_one, List.flatMap_singleton, areaDescriptors, hall h1 hpos hr, Nat.zero_mul,
      Nat.zero_mul, Nat.add_zero]
  constructor
  · rintro ⟨buf, ds, hbuf, hds, hdescribes⟩
    obtain ⟨hsize, htables⟩ := hwrite.result hbuf
    have hread := readBlockDescriptors_exact (by omega) (by omega) hH.symm hsize htables
    have hpos := hread.only ds hds
    have heq := hread.result hds
    have hlength := hdescribes.length
    rw [heq, length_tables_eq_iff (by omega) hF.symm hH.symm hpos] at hlength
    have h1 : H = 1 := by omega
    have hpages := hwrite.only buf hbuf 0 (by omega)
    rw [fragmentsPerArea_last hH.symm (by omega), blksPerArea_last hH.symm (by omega)] at hpages
    have hfirst := hpages 0 hpos 0 (by unfold fragmentItems; split <;> omega)
    have hlast := hpages ((validBlks.toNat - 1) / 60) (by omega) ((validBlks.toNat - 1) % 60) (by
      unfold fragmentItems
      split <;> omega)
    unfold Word.u32 Word.u16Max at hfirst hlast
    have hstart := startLogicalBlk.toNat_lt
    have hend : startLogicalBlk.toNat + validBlks.toNat ≤ 65535 := by omega
    rw [heq, hone h1 hpos hlength.1, ← hitem] at hdescribes
    rw [← hitem]
    exact ⟨hlength.1, hlength.2, hend,
      (describes_blockDescriptors_iff (by omega) hend).1 hdescribes⟩
  · rintro ⟨hr, hlt, hend, hbytes⟩
    have h1 : H = 1 := by omega
    have hpos : 0 < F % 14 := by omega
    obtain ⟨buf, hbuf, hsize, htables⟩ := hwrite.succeeds fun a ha i hi k hk => by
      have ha0 : a = 0 := by omega
      subst ha0
      have hspan := fragmentItems_end (n := blksPerArea 0 F validBlks.toNat) hi
      have hitems : itemsBefore (fragmentsPerArea 0 F) (blksPerArea 0 F validBlks.toNat)
        (fragmentsPerArea 0 F) = validBlks.toNat := hall h1 hpos hr
      rw [hitems] at hspan
      rw [Word.u32_of_lt (by omega)]
      unfold Word.u16Max
      omega
    obtain ⟨ds, hds, heq⟩ :=
      (readBlockDescriptors_exact (by omega) (by omega) hH.symm hsize htables).succeeds hpos
    refine ⟨buf, ds, hbuf, hds, ?_⟩
    rw [heq, hone h1 hpos hr, ← hitem]
    rw [← hitem] at hbytes
    exact (describes_blockDescriptors_iff (by omega) hend).2 hbytes

end

/-- 512 pages in a PEB. -/
def widePebs : VolumeLayout where
  needEraseDevice := false
  segSize := 2097152
  pageSize := .kib4
  nandDiesCount := 1
  lebsPerPebIndex := 1
  segbmap := ⟨false, 1⟩
  maptbl := ⟨false, 1, 1, 10, 0, 0, 0, 0, 0, 0, 0, 0, 0⟩
  env := ⟨33554432, 2097152, .blk⟩

def freshSegs : SegsArray where
  metaArray _ := ⟨0, 0, .dedicated⟩
  segs i := ⟨some .segbmap, .dedicated, i, fun _ => ⟨i, i, fun _ => ⟨none, 0, 0⟩⟩, 1, 1⟩
  segsCapacity := 1
  segsCount := 1
  lastAllocatedSegIndex := 0

theorem preCommitBlockDescriptors_decodes_61 :
    ∃ buf ds, preCommitBlockDescriptors (fun _ => 0) widePebs freshSegs 0 0 0 61 14 0 4096 =
      .ok buf ∧ readBlockDescriptors buf = .ok ds ∧ Describes 0 61 4096 ds :=
  (@preCommitBlockDescriptors_decodes_iff (fun _ => 0) widePebs freshSegs 0 0 0 61 14 0 4096
    (by decide) (by decide) (by decide) rfl (by decide) (by decide) (by decide)).2
    ⟨by decide, by decide, by decide, by decide⟩

/-- A last fragment that is full gets no descriptor at all. -/
theorem preCommitBlockDescriptors_loses_60 :
    ¬∃ buf ds, preCommitBlockDescriptors (fun _ => 0) widePebs freshSegs 0 0 0 60 14 0 4096 =
      .ok buf ∧ readBlockDescriptors buf = .ok ds ∧ Describes 0 60 4096 ds := by
  rintro ⟨buf, ds, hbuf, hds, hdescribes⟩
  have hempty : (preCommitBlockDescriptors (fun _ => 0) widePebs freshSegs 0 0 0 60 14 0 4096 >>=
    readBlockDescriptors) = .ok [] := rfl
  rw [hbuf, Checked.ok_bind, hds] at hempty
  cases hempty
  exact absurd hdescribes.length (by decide)

end Ssdfs
