import Ssdfs.BlkDesc.Area

namespace Ssdfs

open Memory

section

variable {crc32 : List UInt8 → UInt32} {src : BlkDescSource} {F H page v : Nat}

theorem lt_of_lt_area {a b x s p : Nat} (h : b < a) (hp : p ≤ s) (hx : x < b * s + p) :
    x < a * s := by
  have hnext := Nat.mul_le_mul_right s (Nat.succ_le_of_lt h)
  rw [Nat.succ_mul] at hnext
  omega

theorem prepareAreas_exact {st : BlkDescState} {start : Nat} (hpeb : src.pebIndex < Word.u16Max)
    (hF : 0 < F) (hH : H = (F + 13) / 14) (hF' : F < 65536)
    (hfit : H * 256 + (F - 1) * 3840 + v % 60 * 64 = st.buf.size)
    (hstart : start = Word.u32 page) (hcur : st.curByteOffset = 0) :
    Checked.Exact (Checked.forRange H (prepareArea crc32 src F H v) (st, start))
      (∀ a < H, ∀ i < fragmentsPerArea a F,
        ∀ k < fragmentItems (fragmentsPerArea a F) (blksPerArea a F v) i,
          Word.u32 (page + a * 840 + i * 60 + k) < Word.u16Max)
      fun st' => st'.1.buf.size = st.buf.size ∧
        ∀ a < H, TablesAt crc32 src st'.1.buf.data F H page v a := by
  refine (Checked.Exact.forRange (I := fun a (st' : BlkDescState × Nat) =>
    st'.1.buf.size = st.buf.size ∧
    (a < H → st'.1.curByteOffset = Word.u32 (a * 780 * src.itemSize.toNat)) ∧
    (a < H → st'.2 = Word.u32 (page + a * 840)) ∧
    ∀ b < a, TablesAt crc32 src st'.1.buf.data F H page v b) ?_ ?_).weaken
      fun st' ⟨h₁, _, _, h₂⟩ => ⟨h₁, h₂⟩
  · refine ⟨rfl, fun _ => ?_, fun _ => hstart, fun b hb => absurd hb (Nat.not_lt_zero b)⟩
    rw [hcur, Nat.zero_mul]
    rfl
  · rintro a ha t ⟨hsz, hoff, hpage, hdone⟩
    have hfpa := fragmentsPerArea_le hH ha
    have hbpa := @blksPerArea_le F H a v hH ha
    have hfits := @area_fits F H a v hF hH ha
    unfold prepareArea
    simp only
    rw [failIf_of_not (by unfold Word.u16Max; omega), Checked.ok_bind,
      failIf_of_not (by unfold Word.u16Max; omega), Checked.ok_bind,
      defineAreaBlkTblHdrOffset_eq (by omega)]
    have htable := @prepareAreaBlockTable_exact crc32 src (a * 54016) a (fragmentsPerArea a F)
      (page + a * 840) (blksPerArea a F v) (a * 780 * src.itemSize.toNat) (a + 1 < H) t.1 t.2 hpeb
      hfpa (by rw [hsz, ← hfit]; exact hfits) (by omega) (hpage ha) (hoff ha)
    refine (htable.bind (D := True) fun t' ht' => ?_).congr (by rw [and_true]) fun _ h => h
    obtain ⟨hsz', hoff', hnew, hframe⟩ := ht'
    refine Checked.Exact.ok ⟨by rw [hsz', hsz], fun hlt => ?_, fun hlt => ?_, fun b hb => ?_⟩
    · have hitems : itemsBefore (fragmentsPerArea a F) (blksPerArea a F v) (fragmentsPerArea a F) =
        780 := areaItems_of_lt hH hlt
      rw [hoff', hitems, Nat.succ_mul a, Nat.add_mul]
    · rw [hpage ha, blksPerArea_of_lt hH hlt, u32_add_u32, Nat.succ_mul, Nat.add_assoc]
    · rcases Nat.lt_succ_iff_lt_or_eq.1 hb with hlt | rfl
      · have hbH : b + 1 < H := by omega
        have hitems : itemsBefore (fragmentsPerArea b F) (blksPerArea b F v)
          (fragmentsPerArea b F) = 780 := areaItems_of_lt hH hbH
        refine (hdone b hlt).congr (fragmentsPerArea_le hH (by omega)) fun x _ hx =>
          hframe x (.inl ?_)
        rw [hitems, Nat.add_assoc] at hx
        exact lt_of_lt_area hlt (by decide) hx
      · exact hnew

theorem preCommitBlockDescriptors_exact {layout : VolumeLayout} {a : SegsArray}
    {segIndex pebIndex : Nat} {startLogicalBlk : UInt32} {validBlks : UInt16} {inodeId : UInt64}
    {payloadOffsetInBytes itemSize : UInt32} (hseg : segIndex < a.segsCapacity)
    (hpeb : pebIndex < (a.segs segIndex).pebsCapacity)
    (hindex : pebIndex < Word.u16Max)
    (hbuf : (((a.segs segIndex).pebs pebIndex).extents .blockDescriptors).buf = none)
    (hpage : layout.pageSize.bytes ≤ layout.env.eraseSize.toNat) (hvalid : 1 ≤ validBlks.toNat)
    (hmax : validBlks.toNat ≤ layout.env.eraseSize.toNat / layout.pageSize.bytes) :
    let F := (validBlks.toNat + 59) / 60
    let H := (F + 13) / 14
    Checked.Exact (preCommitBlockDescriptors crc32 layout a segIndex pebIndex startLogicalBlk
        validBlks inodeId payloadOffsetInBytes itemSize)
      (∀ a < H, ∀ i < fragmentsPerArea a F,
        ∀ k < fragmentItems (fragmentsPerArea a F) (blksPerArea a F validBlks.toNat) i,
          Word.u32 (startLogicalBlk.toNat + a * 840 + i * 60 + k) < Word.u16Max)
      fun buf => buf.size = H * 256 + (F - 1) * 3840 + validBlks.toNat % 60 * 64 ∧
        ∀ a < H, TablesAt crc32
          ⟨pebIndex, inodeId, itemSize, layout.pageSize.bytes, payloadOffsetInBytes⟩ buf.data F H
            startLogicalBlk.toNat validBlks.toNat a := by
  have hv := validBlks.toNat_lt
  have hF : blkDescTableFragments validBlks.toNat = (validBlks.toNat + 59) / 60 := rfl
  simp only
  unfold preCommitBlockDescriptors
  rw [failIf_of_not (by omega), Checked.ok_bind, failIf_of_not (by omega), Checked.ok_bind,
    bugOn_of_not (by rw [hbuf]; decide), Checked.ok_bind, bugOn_of_not (by omega), Checked.ok_bind]
  simp only
  rw [failIf_of_not (by omega), Checked.ok_bind, hF, Word.u16_of_lt (by omega)]
  generalize hgen : (validBlks.toNat + 59) / 60 = F
  have hhdrs : (F + fragmentsChainMax - 1) / fragmentsChainMax = (F + 13) / 14 := rfl
  rw [hhdrs, calculateBlkDescTableSize_eq (by omega) (by omega), Word.u32_of_lt (by omega)]
  have hrun := @prepareAreas_exact crc32
    ⟨pebIndex, inodeId, itemSize, layout.pageSize.bytes, payloadOffsetInBytes⟩ F ((F + 13) / 14)
    startLogicalBlk.toNat validBlks.toNat
    ⟨Buf.zero ((F + 13) / 14 * 256 + (F - 1) * 3840 + validBlks.toNat % 60 * 64), 0⟩
    startLogicalBlk.toNat hindex (by omega) rfl (by omega) rfl
    (Word.u32_of_lt startLogicalBlk.toNat_lt).symm rfl
  exact (hrun.bind (D := True) fun t ht => Checked.Exact.ok ht).congr (by rw [and_true]) fun _ h => h

end

section

variable {crc32 : List UInt8 → UInt32} {layout : VolumeLayout} {a : SegsArray}
  {segIndex pebIndex : Nat} {startLogicalBlk : UInt32} {validBlks : UInt16} {inodeId : UInt64} {payloadOffsetInBytes itemSize : UInt32} {buf : Buf}

theorem preCommitBlockDescriptors_accepted
    (h : preCommitBlockDescriptors crc32 layout a segIndex pebIndex startLogicalBlk validBlks inodeId
      payloadOffsetInBytes itemSize = .ok buf) :
    (segIndex < a.segsCapacity ∧ pebIndex < (a.segs segIndex).pebsCapacity ∧
      (((a.segs segIndex).pebs pebIndex).extents .blockDescriptors).buf = none ∧
      layout.pageSize.bytes ≤ layout.env.eraseSize.toNat ∧
      validBlks.toNat ≤ layout.env.eraseSize.toNat / layout.pageSize.bytes) ∧
    ∃ st : BlkDescState × Nat, buf = st.1.buf ∧
      Checked.forRange ((Word.u16 (blkDescTableFragments validBlks.toNat) + fragmentsChainMax - 1) /
          fragmentsChainMax)
        (prepareArea crc32 ⟨pebIndex, inodeId, itemSize, layout.pageSize.bytes, payloadOffsetInBytes⟩
          (Word.u16 (blkDescTableFragments validBlks.toNat))
          ((Word.u16 (blkDescTableFragments validBlks.toNat) + fragmentsChainMax - 1) /
            fragmentsChainMax) validBlks.toNat)
        (⟨Buf.zero (Word.u32 (calculateBlkDescTableSize
          (Word.u16 (blkDescTableFragments validBlks.toNat)) validBlks.toNat)), 0⟩,
          startLogicalBlk.toNat) = .ok st := by
  unfold preCommitBlockDescriptors at h
  obtain ⟨hseg, h⟩ := failIf_bind_eq_ok.1 h
  obtain ⟨hpeb, h⟩ := failIf_bind_eq_ok.1 h
  obtain ⟨hbuf, h⟩ := bugOn_bind_eq_ok.1 h
  obtain ⟨hpage, h⟩ := bugOn_bind_eq_ok.1 h
  obtain ⟨hmax, h⟩ := failIf_bind_eq_ok.1 h
  obtain ⟨st, hst, h⟩ := Checked.bind_eq_ok.1 h
  refine ⟨⟨Nat.not_le.1 hseg, Nat.not_le.1 hpeb, ?_, Nat.not_lt.1 hpage, Nat.not_lt.1 hmax⟩, st,
    (Except.ok.inj h).symm, hst⟩
  simpa using hbuf

theorem preCommitBlockDescriptors_uncounted (hF : (validBlks.toNat + 59) / 60 = 14)
    (h : preCommitBlockDescriptors crc32 layout a segIndex pebIndex startLogicalBlk validBlks inodeId
      payloadOffsetInBytes itemSize = .ok buf) :
    256 ≤ buf.size ∧
      FragmentsChainHeader.wire.read buf.data 0 = areaHeader 0 (validBlks.toNat % 840) false ∧
      ∀ i, 16 ≤ i → buf.data i = 0 := by
  obtain ⟨-, st, rfl, hst⟩ := preCommitBlockDescriptors_accepted h
  have hcount : Word.u16 (blkDescTableFragments validBlks.toNat) = 14 := by
    have hcount : blkDescTableFragments validBlks.toNat = 14 := hF
    rw [hcount]
    rfl
  have hsize : Word.u32 (calculateBlkDescTableSize 14 validBlks.toNat) =
      256 + 13 * 3840 + validBlks.toNat % 60 * 64 := by
    rw [calculateBlkDescTableSize_eq (by decide) (by decide), Word.u32_of_lt (by omega)]
  have hblks : blksPerArea 0 14 validBlks.toNat = validBlks.toNat % 840 := rfl
  rw [hcount, hsize] at hst
  generalize hbuf : Buf.zero (256 + 13 * 3840 + validBlks.toNat % 60 * 64) = b at hst
  change prepareArea crc32 _ 14 1 validBlks.toNat 0 _ = _ at hst
  unfold prepareArea at hst
  obtain ⟨-, hst⟩ := failIf_bind_eq_ok.1 hst
  obtain ⟨-, hst⟩ := failIf_bind_eq_ok.1 hst
  obtain ⟨st', hst', hst⟩ := Checked.bind_eq_ok.1 hst
  unfold prepareAreaBlockTable at hst'
  obtain ⟨-, hst'⟩ := failIf_bind_eq_ok.1 hst'
  obtain ⟨b', hb', hst'⟩ := Checked.bind_eq_ok.1 hst'
  obtain rfl := Buf.put_exact.result hb'
  obtain rfl := Except.ok.inj hst'
  obtain rfl := Except.ok.inj hst
  rw [← hbuf]
  refine ⟨?_, FragmentsChainHeader.wire.read_write .., fun i hi => ?_⟩
  · change 256 ≤ 256 + 13 * 3840 + validBlks.toNat % 60 * 64
    omega
  · exact FragmentsChainHeader.wire.write_frame (.inr hi)

theorem preCommitBlockDescriptors_blank (hv : validBlks.toNat = 0)
    (h : preCommitBlockDescriptors crc32 layout a segIndex pebIndex startLogicalBlk validBlks inodeId
      payloadOffsetInBytes itemSize = .ok buf) :
    256 ≤ buf.size ∧ ∀ i, buf.data i = 0 := by
  obtain ⟨-, st, rfl, hst⟩ := preCommitBlockDescriptors_accepted h
  rw [hv] at hst
  obtain rfl := Except.ok.inj hst
  refine ⟨?_, fun _ => rfl⟩
  change 256 ≤ Word.u32 (calculateBlkDescTableSize (Word.u16 (blkDescTableFragments 0)) 0)
  decide

theorem preCommitBlockDescriptors_run (hcapacity : (a.segs segIndex).pebsCapacity ≤ Word.u16Max)
    (hvalid : 1 ≤ validBlks.toNat)
    (h : preCommitBlockDescriptors crc32 layout a segIndex pebIndex startLogicalBlk validBlks inodeId
      payloadOffsetInBytes itemSize = .ok buf) :
    let F := (validBlks.toNat + 59) / 60
    let H := (F + 13) / 14
    buf.size = H * 256 + (F - 1) * 3840 + validBlks.toNat % 60 * 64 ∧
      256 + areaItems F validBlks.toNat 0 * 64 ≤ buf.size ∧
      TableAt crc32 ⟨pebIndex, inodeId, itemSize, layout.pageSize.bytes, payloadOffsetInBytes⟩ buf.data
        0 0 (fragmentsPerArea 0 F) (1 < H) startLogicalBlk.toNat (blksPerArea 0 F validBlks.toNat) 0 := by
  have hv := validBlks.toNat_lt
  obtain ⟨⟨hseg, hpeb, hbuf, hpage, hmax⟩, -⟩ := preCommitBlockDescriptors_accepted h
  obtain ⟨hsize, htables⟩ := (@preCommitBlockDescriptors_exact crc32 layout a segIndex pebIndex
    startLogicalBlk validBlks inodeId payloadOffsetInBytes itemSize hseg hpeb
    (Nat.lt_of_lt_of_le hpeb hcapacity) hbuf hpage hvalid hmax).result h
  have hspan := @area_fits ((validBlks.toNat + 59) / 60) (((validBlks.toNat + 59) / 60 + 13) / 14) 0
    validBlks.toNat (by omega) rfl (by omega)
  have htable := htables 0 (by omega)
  unfold TablesAt at htable
  simp only [Nat.zero_mul, Nat.add_zero, Nat.zero_add] at htable hspan
  exact ⟨hsize, by omega, htable⟩

end

def noDecompress (_ : UInt8) (_ : Buf) (_ _ : Nat) (_ : Buf) (_ : Nat) : Mkfs Buf := fail .eio

end Ssdfs
