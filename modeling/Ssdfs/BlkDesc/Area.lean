import Ssdfs.BlkDesc.Fragment

namespace Ssdfs

open Memory

section

variable {crc32 : List UInt8 → UInt32} {src : BlkDescSource} {m m' : Bytes}
  {ptr areaIndex f page n offset : Nat} {hasNextArea : Bool}

theorem prepareAreaBlockTable_exact {st : BlkDescState} {start : Nat}
    (hpeb : src.pebIndex < Word.u16Max) (hf : f ≤ fragmentsChainMax)
    (hfit : ptr + 256 + itemsBefore f n f * 64 ≤ st.buf.size) (hsize : st.buf.size < 4294967296)
    (hstart : start = Word.u32 page) (hcur : st.curByteOffset = Word.u32 offset) :
    Checked.Exact (prepareAreaBlockTable crc32 src areaIndex ptr ptr f hasNextArea start n st)
      (∀ i < f, ∀ k < fragmentItems f n i, Word.u32 (page + i * 60 + k) < Word.u16Max)
      fun st' => st'.buf.size = st.buf.size ∧
        st'.curByteOffset = Word.u32 (offset + itemsBefore f n f * src.itemSize.toNat) ∧
        TableAt crc32 src st'.buf.data ptr areaIndex f hasNextArea page n offset ∧
        ∀ x, x < ptr ∨ ptr + 256 + itemsBefore f n f * 64 ≤ x →
          st'.buf.data x = st.buf.data x := by
  unfold prepareAreaBlockTable
  rw [failIf_of_not (Nat.not_lt.2 hf), Checked.ok_bind]
  have hput := @Buf.put_ok Errno _ st.buf FragmentsChainHeader.wire ptr (areaHeader f n hasNextArea)
    (by rw [FragmentsChainHeader.wire_size]; omega)
  unfold areaHeader at hput
  simp only
  rw [hput, Checked.ok_bind]
  have hheader : ∀ x, x < ptr ∨ ptr + 16 ≤ x → ∀ h : FragmentsChainHeader,
      FragmentsChainHeader.wire.write st.buf.data ptr h x = st.buf.data x := fun x hx h =>
    FragmentsChainHeader.wire.write_frame (by rw [FragmentsChainHeader.wire_size]; exact hx)
  have hfragments := @prepareFragments_exact crc32 src ptr f page n offset
    ⟨⟨st.buf.size, FragmentsChainHeader.wire.write st.buf.data ptr (areaHeader f n hasNextArea)⟩,
      st.curByteOffset⟩ start hpeb hf hfit hsize hstart hcur
  refine (hfragments.bind (D := True) fun t ht => ?_).congr (by rw [and_true]) fun _ h => h
  obtain ⟨hsz, hoff, hfrags, hframe⟩ := ht
  simp only at hsz hframe
  have hread : FragmentsChainHeader.wire.read t.1.buf.data ptr = areaHeader f n hasNextArea := by
    rw [FragmentsChainHeader.wire.read_congr fun i hi => hframe (ptr + i) (.inl (by
      rw [FragmentsChainHeader.wire_size] at hi
      omega))]
    exact FragmentsChainHeader.wire.read_write ..
  have hkeep : ∀ x, x < ptr ∨ ptr + 256 + itemsBefore f n f * 64 ≤ x →
      t.1.buf.data x = st.buf.data x := fun x hx => by
    rw [hframe x (by omega), hheader x (by omega)]
  unfold fragmentsChainMax at hf
  cases hasNextArea with
  | false =>
    simp only [Bool.false_eq_true, if_false]
    exact Checked.Exact.ok ⟨hsz, hoff, ⟨hread, hfrags, fun h => absurd h (by decide)⟩, hkeep⟩
  | true =>
    simp only [if_true]
    have hput' := @Buf.put_ok Errno _ t.1.buf FragmentDesc.wire (blkOffset ptr nextBlkTableIndex)
      (nextAreaDesc areaIndex ptr n) (by
        rw [FragmentDesc.wire_size, hsz]
        unfold blkOffset nextBlkTableIndex fragmentsChainMax
        omega)
    unfold nextAreaDesc at hput'
    rw [hput', Checked.ok_bind]
    have hslot : ∀ x, x < ptr + 240 ∨ ptr + 256 ≤ x → ∀ d : FragmentDesc,
        FragmentDesc.wire.write t.1.buf.data (blkOffset ptr nextBlkTableIndex) d x =
          t.1.buf.data x := fun x hx d =>
      FragmentDesc.wire.write_frame (by
        rw [FragmentDesc.wire_size]
        unfold blkOffset nextBlkTableIndex fragmentsChainMax
        omega)
    refine Checked.Exact.ok ⟨hsz, hoff, ⟨?_, fun i hi => ?_, fun _ => ?_⟩, fun x hx => ?_⟩
    · rw [← hread]
      refine FragmentsChainHeader.wire.read_congr fun i hi => hslot _ (.inl ?_) _
      rw [FragmentsChainHeader.wire_size] at hi
      omega
    · refine (hfrags i hi).congr (fun x _ hx => hslot x (.inl ?_) _) fun x hx _ =>
        hslot x (.inr (by omega)) _
      unfold blkOffset at hx
      omega
    · exact FragmentDesc.wire.read_write ..
    · simp only
      rw [hslot x (by omega), hkeep x hx]

/-- The tables of a log with `fragmentsCount` fragments, each behind all the space that a full
table takes. -/
def TablesAt (crc32 : List UInt8 → UInt32) (src : BlkDescSource) (m : Bytes)
    (fragmentsCount hdrsCount page validBlks : Nat) : Nat → Prop := fun a =>
  TableAt crc32 src m (a * 54016) a (fragmentsPerArea a fragmentsCount) (a + 1 < hdrsCount)
    (page + a * 840) (blksPerArea a fragmentsCount validBlks) (a * 780 * src.itemSize.toNat)

def areaItems (fragmentsCount validBlks a : Nat) : Nat :=
  itemsBefore (fragmentsPerArea a fragmentsCount) (blksPerArea a fragmentsCount validBlks)
    (fragmentsPerArea a fragmentsCount)

end

section

variable {F H a v : Nat}

theorem fragmentsPerArea_of_lt (hH : H = (F + 13) / 14) (ha : a + 1 < H) :
    fragmentsPerArea a F = 14 := by
  unfold fragmentsPerArea fragmentsChainMax
  simp only
  rw [if_neg (by omega), if_pos (by omega)]

theorem fragmentsPerArea_last (hH : H = (F + 13) / 14) (ha : a + 1 = H) :
    fragmentsPerArea a F = F % 14 := by
  unfold fragmentsPerArea fragmentsChainMax
  simp only
  rw [if_neg (by omega), if_neg (by omega)]

theorem blksPerArea_of_lt (hH : H = (F + 13) / 14) (ha : a + 1 < H) : blksPerArea a F v = 840 := by
  unfold blksPerArea fragmentsChainMax
  simp only
  rw [if_neg (by omega), if_pos (by omega)]
  rfl

theorem blksPerArea_last (hH : H = (F + 13) / 14) (ha : a + 1 = H) :
    blksPerArea a F v = v % 840 := by
  unfold blksPerArea fragmentsChainMax
  simp only
  rw [if_neg (by omega), if_neg (by omega)]
  rfl

theorem areaItems_of_lt (hH : H = (F + 13) / 14) (ha : a + 1 < H) : areaItems F v a = 780 := by
  unfold areaItems
  rw [fragmentsPerArea_of_lt hH ha, blksPerArea_of_lt hH ha]
  rfl

theorem areaItems_last (hH : H = (F + 13) / 14) (ha : a + 1 = H) (hF : 0 < F % 14) :
    areaItems F v a = (F % 14 - 1) * 60 + v % 60 := by
  unfold areaItems
  rw [fragmentsPerArea_last hH ha, blksPerArea_last hH ha, itemsBefore_self hF,
    Nat.mod_mod_of_dvd v (by decide)]

theorem areaItems_empty (hH : H = (F + 13) / 14) (ha : a + 1 = H) (hF : F % 14 = 0) :
    areaItems F v a = 0 := by
  unfold areaItems
  rw [fragmentsPerArea_last hH ha, hF]
  rfl

theorem fragmentsPerArea_le (hH : H = (F + 13) / 14) (ha : a < H) : fragmentsPerArea a F ≤ 14 := by
  rcases Nat.lt_or_ge (a + 1) H with hlt | hge
  · exact Nat.le_of_eq (fragmentsPerArea_of_lt hH hlt)
  · rw [fragmentsPerArea_last hH (by omega)]
    omega

theorem blksPerArea_le (hH : H = (F + 13) / 14) (ha : a < H) : blksPerArea a F v ≤ 840 := by
  rcases Nat.lt_or_ge (a + 1) H with hlt | hge
  · exact Nat.le_of_eq (blksPerArea_of_lt hH hlt)
  · rw [blksPerArea_last hH (by omega)]
    omega

theorem calculateBlkDescTableSize_eq (hF : 0 < F) (hF' : F < 65536) :
    calculateBlkDescTableSize F v = (F + 13) / 14 * 256 + (F - 1) * 3840 + v % 60 * 64 := by
  have hper : blkDescPerFragment * blockDescriptorSize = 3840 := rfl
  have hmod : v % blkDescPerFragment = v % 60 := rfl
  unfold calculateBlkDescTableSize
  simp only [hper, hmod]
  rw [Word.sub64_of_le (by omega) (by omega)]
  unfold fragmentsChainMax areaBlockTableSize blockDescriptorSize
  rw [Word.u64_of_lt (n := _ + (F - 1) * 3840) (by omega), Word.u64_of_lt (by omega)]
  rfl

theorem area_fits (hF : 0 < F) (hH : H = (F + 13) / 14) (ha : a < H) :
    a * 54016 + 256 + areaItems F v a * 64 ≤ H * 256 + (F - 1) * 3840 + v % 60 * 64 := by
  rcases Nat.lt_or_ge (a + 1) H with hlt | hge
  · rw [areaItems_of_lt hH hlt]
    omega
  · have ha : a + 1 = H := by omega
    rcases Nat.eq_zero_or_pos (F % 14) with h0 | hpos
    · rw [areaItems_empty hH ha h0]
      omega
    · rw [areaItems_last hH ha hpos]
      omega

theorem defineAreaBlkTblHdrOffset_eq (ha : a < 10000) :
    defineAreaBlkTblHdrOffset a = a * 54016 := by
  unfold defineAreaBlkTblHdrOffset
  have harea : blkDescPerFragment * fragmentsChainMax * blockDescriptorSize = 53760 := rfl
  simp only [harea]
  unfold areaBlockTableSize
  rw [Word.u32_of_lt (n := a * 256) (by omega), Word.u32_of_lt (by omega)]
  omega

end

end Ssdfs
