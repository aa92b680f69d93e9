import Ssdfs.BlkDesc.Run
import Ssdfs.BlkDesc.Decode
import Ssdfs.OffTable.Encode

namespace Ssdfs

/-- The blocks that the areas in front of area `area` count. -/
def blksBefore (fragmentsCount validBlks : Nat) : Nat → Nat
  | 0 => 0
  | area + 1 => blksBefore fragmentsCount validBlks area + blksPerArea area fragmentsCount validBlks

def storedDescriptors (validBlks : Nat) : List (Nat × Nat) :=
  let fragmentsCount := Word.u16 (blkDescTableFragments validBlks)
  let hdrsCount := (fragmentsCount + fragmentsChainMax - 1) / fragmentsChainMax
  (List.range hdrsCount).flatMap fun area =>
    let fragmentsPerArea := fragmentsPerArea area fragmentsCount
    let blksPerArea := blksPerArea area fragmentsCount validBlks
    (List.range fragmentsPerArea).flatMap fun i =>
      (List.range (fragmentItems fragmentsPerArea blksPerArea i)).map fun k =>
        (blksBefore fragmentsCount validBlks area + itemsBefore fragmentsPerArea blksPerArea i + k,
          defineAreaBlkTblHdrOffset area + (areaBlockTableSize +
            i * (blkDescPerFragment * blockDescriptorSize)) + k * blockDescriptorSize)

section

variable {F H v area i k blk place : Nat}

theorem blksBefore_eq (hH : H = (F + 13) / 14) (ha : area < H) : blksBefore F v area = area * 840 := by
  induction area with
  | zero => rfl
  | succ area ih =>
    unfold blksBefore
    rw [ih (Nat.lt_of_succ_lt ha), blksPerArea_of_lt hH ha, Nat.succ_mul]

/-- A descriptor is stored as item `k` of fragment `i` of area `area`. -/
structure DescriptorAt (F v blk place area i k : Nat) : Prop where
  area_lt : area < (F + 13) / 14
  fragment_lt : i < fragmentsPerArea area F
  item_lt : k < fragmentItems (fragmentsPerArea area F) (blksPerArea area F v) i
  blk_eq : blk = area * 840 + i * 60 + k
  place_eq : place = area * 54016 + (256 + i * 3840) + k * 64

theorem mem_storedDescriptors (hv : v < 65536) (h : (blk, place) ∈ storedDescriptors v) :
    ∃ area i k, DescriptorAt ((v + 59) / 60) v blk place area i k := by
  have hF : Word.u16 (blkDescTableFragments v) = (v + 59) / 60 := by
    change Word.u16 ((v + 59) / 60) = _
    exact Word.u16_of_lt (by omega)
  unfold storedDescriptors at h
  simp only [hF, List.mem_flatMap, List.mem_map, List.mem_range] at h
  obtain ⟨area, harea, i, hi, k, hk, heq⟩ := h
  change area < ((v + 59) / 60 + 13) / 14 at harea
  have hsmall : area < 10000 := by omega
  rw [blksBefore_eq rfl harea, itemsBefore_of_lt hi, defineAreaBlkTblHdrOffset_eq hsmall] at heq
  obtain ⟨rfl, rfl⟩ := Prod.mk.inj heq
  exact ⟨area, i, k, harea, hi, hk, rfl, rfl⟩

theorem DescriptorAt.lt_area (h : DescriptorAt F v blk place area i k) : i * 60 + k < 840 := by
  have hi := Nat.lt_of_lt_of_le h.fragment_lt (fragmentsPerArea_le rfl h.area_lt)
  have hk := Nat.lt_of_lt_of_le h.item_lt fragmentItems_le
  omega

theorem DescriptorAt.lt (h : DescriptorAt ((v + 59) / 60) v blk place area i k) : blk < v := by
  have harea := h.area_lt
  have hfragment := h.fragment_lt
  have hitem := h.item_lt
  have hmod : v % 840 % 60 = v % 60 := Nat.mod_mod_of_dvd v (by decide)
  rw [h.blk_eq]
  unfold fragmentItems at hitem
  rcases Nat.lt_or_ge (area + 1) (((v + 59) / 60 + 13) / 14) with hlt | hge
  · rw [fragmentsPerArea_of_lt rfl hlt] at hfragment hitem
    rw [blksPerArea_of_lt rfl hlt] at hitem
    split at hitem <;> omega
  · have hlast : area + 1 = ((v + 59) / 60 + 13) / 14 := Nat.le_antisymm harea hge
    rw [fragmentsPerArea_last rfl hlast] at hfragment hitem
    rw [blksPerArea_last rfl hlast, hmod] at hitem
    split at hitem <;> omega

theorem DescriptorAt.inside (h : DescriptorAt F v blk place area i k) (hF : 0 < F) :
    place + 64 ≤ (F + 13) / 14 * 256 + (F - 1) * 3840 + v % 60 * 64 := by
  have hend := fragmentItems_end (n := blksPerArea area F v) h.fragment_lt
  have hitem := h.item_lt
  have hfits := @area_fits F _ area v hF rfl h.area_lt
  unfold areaItems at hfits
  generalize itemsBefore (fragmentsPerArea area F) (blksPerArea area F v) (fragmentsPerArea area F) = n
    at hend hfits
  generalize fragmentItems (fragmentsPerArea area F) (blksPerArea area F v) i = m at hend hitem
  have hplace := h.place_eq
  omega

theorem defineBlockDescriptorOffset_eq (hblk : blk < 65536) :
    defineBlockDescriptorOffset blk = (blk / 840 + 1) * 256 + blk * 64 := by
  unfold defineBlockDescriptorOffset
  exact Word.u32_of_lt (by
    change (blk / 840 + 1) * 256 + blk * 64 < 4294967296
    omega)

theorem DescriptorAt.offset (h : DescriptorAt F v blk place area i k) (hblk : blk < 65536) :
    defineBlockDescriptorOffset blk = place := by
  have hlt := h.lt_area
  have harea : blk / 840 = area := by
    rw [h.blk_eq]
    omega
  rw [defineBlockDescriptorOffset_eq hblk, harea, h.place_eq, h.blk_eq]
  omega

end

section

variable {crc32 : List UInt8 → UInt32} {layout : VolumeLayout} {a : SegsArray}
  {segIndex pebIndex : Nat} {startLogicalBlk : UInt32} {validBlks : UInt16} {inodeId : UInt64}
  {payloadOffsetInBytes itemSize : UInt32} {buf : Buf}

/-- Each descriptor that is stored lies where the block number says, and it is the one of that block. -/
theorem defineBlockDescriptorOffset_stored (hcapacity : (a.segs segIndex).pebsCapacity ≤ Word.u16Max)
    (h : preCommitBlockDescriptors crc32 layout a segIndex pebIndex startLogicalBlk validBlks inodeId
      payloadOffsetInBytes itemSize = .ok buf) :
    ∀ blk place, (blk, place) ∈ storedDescriptors validBlks.toNat →
      defineBlockDescriptorOffset (Word.u16 blk) = place ∧
        place + blockDescriptorSize ≤ buf.size ∧
        ∃ curByteOffset, BlockDescriptor.wire.read buf.data place =
          blockDescriptor ⟨pebIndex, inodeId, itemSize, layout.pageSize.bytes, payloadOffsetInBytes⟩
            curByteOffset (Word.u32 (startLogicalBlk.toNat + blk)) := by
  intro blk place hmem
  have hv := validBlks.toNat_lt
  obtain ⟨area, i, k, hstored⟩ := mem_storedDescriptors hv hmem
  have hlt := hstored.lt
  have hF : 0 < (validBlks.toNat + 59) / 60 := by omega
  have hsmall : blk < 65536 := Nat.lt_trans hlt hv
  obtain ⟨⟨hseg, hpeb, hbuf, hpage, hmax⟩, -⟩ := preCommitBlockDescriptors_accepted h
  obtain ⟨hsize, htables⟩ := (@preCommitBlockDescriptors_exact crc32 layout a segIndex pebIndex
    startLogicalBlk validBlks inodeId payloadOffsetInBytes itemSize hseg hpeb
    (Nat.lt_of_lt_of_le hpeb hcapacity) hbuf hpage (by omega) hmax).result h
  have hitems := ((htables area hstored.area_lt).fragments i hstored.fragment_lt).items k hstored.item_lt
  refine ⟨?_, ?_, Word.u32 (area * 780 * itemSize.toNat + i * 60 * itemSize.toNat +
    k * itemSize.toNat), ?_⟩
  · rw [Word.u16_of_lt hsmall]
    exact hstored.offset hsmall
  · rw [hsize]
    exact hstored.inside hF
  · obtain rfl := hstored.place_eq
    obtain rfl := hstored.blk_eq
    refine hitems.trans (congrArg (blockDescriptor _ _) (congrArg Word.u32 ?_))
    simp only [Nat.add_assoc]

/-- A log of 61 blocks: one in the second fragment, and 60 in the first. -/
theorem defineBlockDescriptorOffset_stored_61 : ∃ buf,
    preCommitBlockDescriptors (fun _ => 0) widePebs freshSegs 0 0 0 61 14 0 4096 = .ok buf ∧
      (60, 4096) ∈ storedDescriptors 61 ∧ defineBlockDescriptorOffset (Word.u16 60) = 4096 ∧
      ∃ curByteOffset, BlockDescriptor.wire.read buf.data 4096 =
        blockDescriptor ⟨0, 14, 4096, 4096, 0⟩ curByteOffset (Word.u32 (0 + 60)) := by
  obtain ⟨buf, hbuf⟩ := Checked.exists_ok (m := preCommitBlockDescriptors (fun _ => 0) widePebs freshSegs
    0 0 0 61 14 0 4096) rfl
  have hmem : (60, 4096) ∈ storedDescriptors 61 := by decide
  obtain ⟨hplace, -, hread⟩ := defineBlockDescriptorOffset_stored (by decide) hbuf 60 4096 hmem
  exact ⟨buf, hbuf, hmem, hplace, hread⟩

end

end Ssdfs
