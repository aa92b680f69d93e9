import Ssdfs.BlkDesc.Run
import Ssdfs.BlkDesc.Decode

namespace Ssdfs

open Memory

def dataBlkDescZlib : UInt8 := 6
def dataBlkDescLzo : UInt8 := 7

section

variable (decompress : UInt8 → Buf → Nat → Nat → Buf → Nat → Mkfs Buf) (areaBuf : Buf)

def parseBlkStates (data : Buf) (offset uncomprSize : Nat) (shown : List BlockDescriptor) :
    Mkfs (List BlockDescriptor) :=
  Checked.forRange (uncomprSize / blockDescriptorSize) (readItem data offset) shown

def dumpFragmentData (frag : FragmentDesc) (parsedBytes : Nat) (shown : List BlockDescriptor) :
    Mkfs (List BlockDescriptor) :=
  let uncomprSize := frag.uncomprSize.toNat
  if frag.type = dataBlkDescZlib ∨ frag.type = dataBlkDescLzo then
    match decompress frag.type areaBuf parsedBytes frag.comprSize.toNat (Buf.zero uncomprSize)
        uncomprSize with
    | .error (.code _) => .ok shown
    | .error e => .error e
    | .ok data => parseBlkStates data 0 uncomprSize shown
  else parseBlkStates areaBuf parsedBytes uncomprSize shown

def dumpFragment (table i : Nat) (st : Nat × List BlockDescriptor) :
    Mkfs (Nat × List BlockDescriptor) := do
  let (parsedBytes, shown) := st
  let frag ← areaBuf.get Errno FragmentDesc.wire (blkOffset table i)
  failIf (Word.sub32 areaBuf.size parsedBytes < frag.comprSize.toNat) .einval
  let shown ← dumpFragmentData decompress areaBuf frag parsedBytes shown
  .ok (Word.u32 (parsedBytes + frag.comprSize.toNat), shown)

def nextTableOffset (frag : FragmentDesc) (parsedBytes : Nat) : Mkfs Nat := do
  failIf (frag.type ≠ nextTableDesc) .erange
  let offset := frag.offset.toNat
  if offset ≠ parsedBytes then do
    let restBytes := pageCacheSize - parsedBytes % pageCacheSize
    failIf (restBytes ≥ areaBlockTableSize) .erange
    failIf (offset % pageCacheSize ≠ 0) .erange
    let parsedBytes := Word.u32 (parsedBytes + restBytes)
    failIf (offset ≠ parsedBytes) .erange
    .ok parsedBytes
  else .ok parsedBytes

def dumpTable (chainHdr : FragmentsChainHeader) (table : Nat) (shown : List BlockDescriptor) :
    Mkfs (Nat × List BlockDescriptor) := do
  let fragmentsCount := chainHdr.fragmentsCount.toNat
  failIf (fragmentsCount > blkTableMax) .erange
  Checked.forRange (min fragmentsCount nextBlkTableIndex) (dumpFragment decompress areaBuf table)
    (Word.u32 (table + areaBlockTableSize), shown)

def parseNextArea : Nat → Nat → List BlockDescriptor → Mkfs (List BlockDescriptor)
  | 0, _, _ => .error .fuel
  | fuel + 1, table, shown => do
    let chainHdr ← areaBuf.get Errno FragmentsChainHeader.wire table
    let (parsedBytes, shown) ← dumpTable decompress areaBuf chainHdr table shown
    if chainHdr.flags &&& multipleHdrChain ≠ 0 then do
      let frag ← areaBuf.get Errno FragmentDesc.wire (blkOffset table nextBlkTableIndex)
      let parsedBytes ← nextTableOffset frag parsedBytes
      parseNextArea fuel parsedBytes shown
    else .ok shown

/-- The descriptors that are shown of an area, in order; `fuel` bounds the number of tables. -/
def parseBlkDescArray (fuel : Nat) : Mkfs (List BlockDescriptor) := do
  failIf (areaBuf.size < areaBlockTableSize) .einval
  parseNextArea decompress areaBuf fuel 0 []

end

section

variable {crc32 : List UInt8 → UInt32} {decompress : UInt8 → Buf → Nat → Nat → Buf → Nat → Mkfs Buf}
  {src : BlkDescSource} {areaBuf : Buf} {f n page offset fuel : Nat} {hasNextArea : Bool}
  {shown : List BlockDescriptor}

theorem dumpFragment_ok {i : Nat} (hi : i < f) (hf : f ≤ fragmentsChainMax)
    (hfragment : FragmentAt crc32 src areaBuf.data (blkOffset 0 i) (0 + (256 + i * 3840))
      (256 + i * 3840) i page offset n) (hn : n ≤ 60)
    (hfit : 256 + i * 3840 + n * 64 ≤ areaBuf.size) (hsize : areaBuf.size < 4294967296) :
    dumpFragment decompress areaBuf 0 i (256 + i * 3840, shown) =
      .ok (256 + (i * 60 + n) * 64, shown ++ blockDescriptors src page offset n) := by
  unfold fragmentsChainMax at hf
  have hslot : blkOffset 0 i + FragmentDesc.wire.size ≤ areaBuf.size := by
    rw [FragmentDesc.wire_size]
    unfold blkOffset
    omega
  have hcount : (UInt16.ofNat (n * 64)).toNat = n * 64 :=
    UInt16.toNat_ofNat_of_lt' (show n * 64 < 65536 by omega)
  have hitemsCount : n * 64 / blockDescriptorSize = n := by
    unfold blockDescriptorSize
    omega
  have hitems := hfragment.items
  rw [Nat.zero_add] at hitems
  unfold dumpFragment
  simp only
  rw [Buf.get_ok hslot, Checked.ok_bind, hfragment.desc]
  unfold fragmentDesc
  simp only [hcount]
  rw [Word.sub32_of_le (by omega) hsize, failIf_of_not (by omega), Checked.ok_bind]
  unfold dumpFragmentData
  simp only [hcount]
  rw [if_neg (by decide)]
  unfold parseBlkStates
  rw [hitemsCount, readItems_ok hitems hfit, Checked.ok_bind, Word.u32_of_lt (by omega)]
  congr 2
  omega

theorem dumpTable_ok (htable : TableAt crc32 src areaBuf.data 0 0 f hasNextArea page n 0)
    (hf : f ≤ fragmentsChainMax) (hfit : 256 + itemsBefore f n f * 64 ≤ areaBuf.size)
    (hsize : areaBuf.size < 4294967296) :
    dumpTable decompress areaBuf (areaHeader f n hasNextArea) 0 shown =
      .ok (256 + itemsBefore f n f * 64, shown ++ blockDescriptors src page 0 (itemsBefore f n f)) := by
  have hcount : (UInt16.ofNat f).toNat = f := UInt16.toNat_ofNat_of_lt' (by
    unfold fragmentsChainMax at hf
    change f < 65536
    omega)
  have hstart : Word.u32 (0 + areaBlockTableSize) = 256 := rfl
  have hmin : min f nextBlkTableIndex = f := Nat.min_eq_left hf
  unfold dumpTable areaHeader
  simp only
  rw [hcount, hstart, failIf_of_not (by unfold blkTableMax; omega), Checked.ok_bind, hmin]
  obtain ⟨st, hst, rfl⟩ := @Checked.forRange_ok _ _
    (dumpFragment decompress areaBuf 0)
    (fun i (st : Nat × List BlockDescriptor) => st = (256 + itemsBefore f n i * 64,
      shown ++ blockDescriptors src page 0 (itemsBefore f n i))) f (256, shown)
    (by simp [itemsBefore, blockDescriptors]) fun i hi st hst => by
      have hend := fragmentItems_end (n := n) hi
      have hoffset : i * 60 * 64 = i * 3840 := by omega
      rw [itemsBefore_of_lt hi, hoffset] at hst
      refine ⟨_, ?_, rfl⟩
      rw [hst, dumpFragment_ok hi hf (htable.fragments i hi) fragmentItems_le (by omega) hsize,
        itemsBefore, itemsBefore_of_lt hi, blockDescriptors_add, List.append_assoc]
  exact hst

theorem nextTableOffset_full : nextTableOffset (nextAreaDesc 0 0 840) 50176 = fail .erange := rfl

end

section

variable {crc32 : List UInt8 → UInt32} {decompress : UInt8 → Buf → Nat → Nat → Buf → Nat → Mkfs Buf}
  {src : BlkDescSource} {areaBuf : Buf} {f n page offset fuel : Nat}

@[simp] theorem length_blockDescriptors : (blockDescriptors src page offset n).length = n := by
  simp [blockDescriptors]

theorem parseBlkDescArray_zero {shown : List BlockDescriptor} :
    ¬parseBlkDescArray decompress areaBuf 0 = .ok shown := fun h => by
  unfold parseBlkDescArray at h
  obtain ⟨-, h⟩ := failIf_bind_eq_ok.1 h
  cases h

theorem parseBlkDescArray_single (htable : TableAt crc32 src areaBuf.data 0 0 f false page n 0)
    (hf : f ≤ fragmentsChainMax) (hfit : 256 + itemsBefore f n f * 64 ≤ areaBuf.size)
    (hsize : areaBuf.size < 4294967296) :
    parseBlkDescArray decompress areaBuf (fuel + 1) =
      .ok (blockDescriptors src page 0 (itemsBefore f n f)) := by
  unfold parseBlkDescArray areaBlockTableSize
  rw [failIf_of_not (by omega), Checked.ok_bind]
  unfold parseNextArea
  rw [Buf.get_ok (by rw [FragmentsChainHeader.wire_size]; omega), Checked.ok_bind, htable.header,
    dumpTable_ok htable hf hfit hsize, Checked.ok_bind]
  have hflag : (areaHeader f n false).flags &&& multipleHdrChain = 0 :=
    (by decide : (0 : UInt16) &&& multipleHdrChain = 0)
  simp only
  rw [if_neg fun h => h hflag, List.nil_append]

theorem parseBlkDescArray_chained (htable : TableAt crc32 src areaBuf.data 0 0 14 true page 840 0)
    (hfit : 50176 ≤ areaBuf.size) (hsize : areaBuf.size < 4294967296) :
    parseBlkDescArray decompress areaBuf (fuel + 1) = fail .erange := by
  have hitems : itemsBefore 14 840 14 = 780 := rfl
  unfold parseBlkDescArray areaBlockTableSize
  rw [failIf_of_not (by omega), Checked.ok_bind]
  unfold parseNextArea
  rw [Buf.get_ok (by rw [FragmentsChainHeader.wire_size]; omega), Checked.ok_bind, htable.header,
    dumpTable_ok htable (by decide) (by rw [hitems]; exact hfit) hsize, Checked.ok_bind, hitems]
  change ((areaBuf.get Errno FragmentDesc.wire (blkOffset 0 nextBlkTableIndex)) >>= _) = _
  have hslot : blkOffset 0 nextBlkTableIndex + FragmentDesc.wire.size ≤ areaBuf.size :=
    Nat.le_trans (by decide : 256 ≤ 50176) hfit
  rw [Buf.get_ok hslot, Checked.ok_bind, htable.next rfl, nextTableOffset_full]
  rfl

theorem parseBlkDescArray_blank (hsize : 256 ≤ areaBuf.size) (hzero : ∀ i, areaBuf.data i = 0) :
    parseBlkDescArray decompress areaBuf (fuel + 1) = .ok [] := by
  have hdata : areaBuf.data = fun _ => 0 := funext hzero
  have hread : areaBuf.get Errno FragmentsChainHeader.wire 0 =
      .ok (FragmentsChainHeader.wire.read areaBuf.data 0) := Buf.get_ok (by
    rw [FragmentsChainHeader.wire_size]
    omega)
  unfold parseBlkDescArray areaBlockTableSize
  rw [failIf_of_not (by omega), Checked.ok_bind]
  unfold parseNextArea
  rw [hread, Checked.ok_bind, hdata]
  rfl

end

section

variable {crc32 : List UInt8 → UInt32} {decompress : UInt8 → Buf → Nat → Nat → Buf → Nat → Mkfs Buf}
  {layout : VolumeLayout} {a : SegsArray} {segIndex pebIndex : Nat} {startLogicalBlk : UInt32}
  {validBlks : UInt16} {inodeId : UInt64} {payloadOffsetInBytes itemSize : UInt32} {buf : Buf}

theorem dumpBlkDescs_iff (hcapacity : (a.segs segIndex).pebsCapacity ≤ Word.u16Max)
    (hwrite : preCommitBlockDescriptors crc32 layout a segIndex pebIndex startLogicalBlk validBlks
      inodeId payloadOffsetInBytes itemSize = .ok buf) :
    (∃ fuel, parseBlkDescArray decompress buf fuel = .ok
      (blockDescriptors ⟨pebIndex, inodeId, itemSize, layout.pageSize.bytes, payloadOffsetInBytes⟩
        startLogicalBlk.toNat 0 validBlks.toNat)) ↔
      validBlks.toNat = 0 ∨ validBlks.toNat % 60 ≠ 0 ∧ validBlks.toNat < 780 := by
  have hv := validBlks.toNat_lt
  rcases Nat.eq_zero_or_pos validBlks.toNat with hzero | hvalid
  · obtain ⟨hsize, hblank⟩ := preCommitBlockDescriptors_blank hzero hwrite
    refine iff_of_true ⟨1, ?_⟩ (.inl hzero)
    rw [parseBlkDescArray_blank hsize hblank, hzero]
    rfl
  obtain ⟨hsize, hspan, htable⟩ := preCommitBlockDescriptors_run hcapacity hvalid hwrite
  unfold areaItems at hspan
  generalize hF : (validBlks.toNat + 59) / 60 = F at hsize hspan htable
  generalize hH : (F + 13) / 14 = H at hsize hspan htable
  rcases Nat.lt_or_ge 1 H with hlt | hge
  · rw [fragmentsPerArea_of_lt hH.symm hlt, blksPerArea_of_lt hH.symm hlt, decide_eq_true hlt] at htable
    refine iff_of_false ?_ (by omega)
    rintro ⟨fuel, hfuel⟩
    cases fuel with
    | zero => exact parseBlkDescArray_zero hfuel
    | succ fuel =>
      rw [parseBlkDescArray_chained htable (by omega) (by omega)] at hfuel
      cases hfuel
  · have hmax := @fragmentsPerArea_le F H 0 hH.symm (by omega)
    rw [decide_eq_false (by omega)] at htable
    have hparse : ∀ fuel, parseBlkDescArray decompress buf (fuel + 1) = _ := fun fuel =>
      parseBlkDescArray_single htable hmax hspan (by omega)
    have hitems : itemsBefore (fragmentsPerArea 0 F) (blksPerArea 0 F validBlks.toNat)
        (fragmentsPerArea 0 F) = validBlks.toNat ↔
          validBlks.toNat % 60 ≠ 0 ∧ validBlks.toNat < 780 := by
      rw [fragmentsPerArea_last hH.symm (by omega), blksPerArea_last hH.symm (by omega)]
      rcases Nat.eq_zero_or_pos (F % 14) with h0 | hpos
      · rw [h0, itemsBefore]
        omega
      · rw [itemsBefore_self hpos]
        omega
    constructor
    · rintro ⟨fuel, hfuel⟩
      cases fuel with
      | zero => exact (parseBlkDescArray_zero hfuel).elim
      | succ fuel =>
        rw [hparse] at hfuel
        have hlength := congrArg List.length (Except.ok.inj hfuel)
        rw [length_blockDescriptors, length_blockDescriptors] at hlength
        exact .inr (hitems.1 hlength)
    · rintro (hzero | hsmall)
      · omega
      · refine ⟨1, ?_⟩
        rw [hparse, hitems.2 hsmall]

end

theorem dumpBlkDescs_61 : ∃ buf, preCommitBlockDescriptors (fun _ => 0) widePebs freshSegs 0 0 0 61 14 0
      4096 = .ok buf ∧ ∃ fuel, parseBlkDescArray noDecompress buf fuel = .ok
        (blockDescriptors ⟨0, 14, 4096, 4096, 0⟩ 0 0 61) := by
  obtain ⟨buf, hbuf⟩ : ∃ buf, preCommitBlockDescriptors (fun _ => 0) widePebs freshSegs 0 0 0 61 14 0
      4096 = .ok buf := Checked.exists_ok rfl
  exact ⟨buf, hbuf, (dumpBlkDescs_iff (by decide) hbuf).2 (.inr ⟨by decide, by decide⟩)⟩

/-- Of 60 blocks none is shown. -/
theorem dumpBlkDescs_hides_60 : ∃ buf, preCommitBlockDescriptors (fun _ => 0) widePebs freshSegs 0 0 0
      60 14 0 4096 = .ok buf ∧ ¬∃ fuel, parseBlkDescArray noDecompress buf fuel = .ok
        (blockDescriptors ⟨0, 14, 4096, 4096, 0⟩ 0 0 60) := by
  obtain ⟨buf, hbuf⟩ : ∃ buf, preCommitBlockDescriptors (fun _ => 0) widePebs freshSegs 0 0 0 60 14 0
      4096 = .ok buf := Checked.exists_ok rfl
  refine ⟨buf, hbuf, ?_⟩
  rintro ⟨fuel, hfuel⟩
  cases fuel with
  | zero => exact parseBlkDescArray_zero hfuel
  | succ fuel =>
    have hempty : (preCommitBlockDescriptors (fun _ => 0) widePebs freshSegs 0 0 0 60 14 0 4096 >>=
      fun buf => parseBlkDescArray noDecompress buf (fuel + 1)) = .ok [] := rfl
    rw [hbuf, Checked.ok_bind, hfuel] at hempty
    have hlength := congrArg List.length (Except.ok.inj hempty)
    rw [length_blockDescriptors] at hlength
    cases hlength

end Ssdfs
