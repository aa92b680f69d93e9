import Ssdfs.Segbmap.Coverage
import Ssdfs.Segbmap.Search
import Ssdfs.Segbmap.Sound
import Ssdfs.Segbmap.Validate

namespace Ssdfs

open Memory

section

variable {layout : VolumeLayout} {g : SegbmapGeometry} {i k segs : Nat}

theorem segbmapPrepareFragment_inv {f : SegbmapFragment} (hF : g.fragmentsCount < 65535)
    (h : segbmapPrepareFragment layout g i = .ok f) :
    f.buffer = i / g.fragmentsPerPeb ∧ f.offset = i % g.fragmentsPerPeb * g.fragmentSize ∧
      f.hdr.startItem.toNat = i * 8128 ∧ i * 8128 < layout.segNums ∧ f.hdr.fragmentBytes.toNat =
        min (Word.sub64 (Word.u64 (g.bmapBytes + g.fragmentsCount * 32)) (i * 4096)) 4096 := by
  obtain ⟨hi, h⟩ := failIf_bind_eq_ok.1 h
  obtain ⟨-, h⟩ := quot_bind_eq_ok.1 h
  obtain ⟨-, h⟩ := quot_bind_eq_ok.1 h
  obtain ⟨-, h⟩ := quot_bind_eq_ok.1 h
  have hitem : segbmapDefineFirstFragmentItem i pageCacheSize = .ok (i * 8128) := by
    unfold segbmapDefineFirstFragmentItem
    rw [segbmapItemsPerFragment_page, Checked.ok_bind, Word.u64_of_lt (by omega)]
  rw [hitem, Checked.ok_bind] at h
  obtain ⟨hstart, h⟩ := failIf_bind_eq_ok.1 h
  rw [segbmapPayloadBytesPerFragment_page, Checked.ok_bind] at h
  obtain ⟨hbytes, h⟩ := bugOn_bind_eq_ok.1 h
  rw [segbmapItemsPerFragment_page, Checked.ok_bind] at h
  obtain ⟨-, h⟩ := bugOn_bind_eq_ok.1 h
  unfold ushrtMax at hbytes
  cases h
  refine ⟨rfl, rfl, ?_, Nat.not_le.1 hstart, ?_⟩
  · exact UInt64.toNat_ofNat_of_lt' (show i * 8128 < 18446744073709551616 by omega)
  · exact UInt16.toNat_ofNat_of_lt' (Nat.lt_of_not_ge hbytes |>.trans (by decide))

/-- The buffers once the first `n` fragments have got their headers. -/
structure Prepared (layout : VolumeLayout) (g : SegbmapGeometry) (n : Nat) (buffers : Nat → Buf) :
    Prop where
  size : ∀ b, (buffers b).size = segbmapPebBufferSize g
  header : ∀ f < n, ∃ fragment, segbmapPrepareFragment layout g f = .ok fragment ∧
    SegbmapFragmentHeader.wire.read (buffers (f / g.fragmentsPerPeb)).data
      (f % g.fragmentsPerPeb * g.fragmentSize) = fragment.hdr
  placed : ∀ f < n, f / g.fragmentsPerPeb < g.segsPerChain * g.pebsPerSeg
  zero : ∀ b x, (∀ f < n, f / g.fragmentsPerPeb = b →
    x < f % g.fragmentsPerPeb * g.fragmentSize ∨ f % g.fragmentsPerPeb * g.fragmentSize + 32 ≤ x) →
      (buffers b).data x = 0

theorem places_apart {s c d : Nat} (hcd : c ≠ d) : c * s + s ≤ d * s ∨ d * s + s ≤ c * s := by
  rcases Nat.lt_or_gt_of_ne hcd with hlt | hgt
  · exact .inl (Nat.succ_mul c s ▸ Nat.mul_le_mul_right s hlt)
  · exact .inr (Nat.succ_mul d s ▸ Nat.mul_le_mul_right s hgt)

theorem segbmapWriteFragment_step {buffers buffers' : Nat → Buf} (hF : g.fragmentsCount < 65535)
    (hsize : 32 ≤ g.fragmentSize) (hbuffers : Prepared layout g i buffers)
    (h : segbmapWriteFragment layout g i buffers = .ok buffers') :
    Prepared layout g (i + 1) buffers' := by
  obtain ⟨fragment, hf, h⟩ := Checked.bind_eq_ok.1 h
  obtain ⟨hbuffer, hoffset, -⟩ := segbmapPrepareFragment_inv hF hf
  split at h
  · cases h
  case isFalse hplace =>
    obtain ⟨buf, hbuf, h⟩ := Checked.bind_eq_ok.1 h
    cases h
    have hput := Buf.put_exact.result hbuf
    rw [hbuffer] at hput hplace ⊢
    rw [hoffset] at hput
    -- Another fragment of the same buffer has another place there.
    have hother : ∀ f < i, f / g.fragmentsPerPeb = i / g.fragmentsPerPeb →
        f % g.fragmentsPerPeb ≠ i % g.fragmentsPerPeb := fun f hlt hdiv hmod => by
      have hf := Nat.div_add_mod f g.fragmentsPerPeb
      have hi := Nat.div_add_mod i g.fragmentsPerPeb
      rw [hdiv, hmod, hi] at hf
      omega
    refine ⟨fun b => ?_, fun f hlt => ?_, fun f hlt => ?_, fun b x hx => ?_⟩
    · by_cases hb : b = i / g.fragmentsPerPeb
      · rw [hb, Function.update_self, hput]
        exact hbuffers.size _
      · rw [Function.update_of_ne hb]
        exact hbuffers.size b
    · rcases Nat.lt_succ_iff_lt_or_eq.1 hlt with hold | rfl
      · obtain ⟨fragment', hf', hread⟩ := hbuffers.header f hold
        refine ⟨fragment', hf', ?_⟩
        by_cases hdiv : f / g.fragmentsPerPeb = i / g.fragmentsPerPeb
        · rw [hdiv, Function.update_self, hput, SegbmapFragmentHeader.wire.read_write_of_disjoint,
            ← hdiv]
          · exact hread
          · rw [SegbmapFragmentHeader.wire_size]
            have := @places_apart g.fragmentSize _ _ (hother f hold hdiv)
            omega
        · rw [Function.update_of_ne hdiv]
          exact hread
      · rw [Function.update_self, hput, SegbmapFragmentHeader.wire.read_write]
        exact ⟨fragment, hf, rfl⟩
    · rcases Nat.lt_succ_iff_lt_or_eq.1 hlt with hold | rfl
      · exact hbuffers.placed f hold
      · exact Nat.not_le.1 hplace
    · have hbefore := hbuffers.zero b x fun f hlt hb => hx f (Nat.lt_succ_of_lt hlt) hb
      by_cases hb : b = i / g.fragmentsPerPeb
      · rw [hb] at hbefore ⊢
        rw [Function.update_self, hput, ← hbefore]
        exact SegbmapFragmentHeader.wire.write_frame (hx i (Nat.lt_succ_self i) hb.symm)
      · rw [Function.update_of_ne hb]
        exact hbefore

theorem segbmapMkfsPrepare_ok {buffers : Nat → Buf} (hF : g.fragmentsCount < 65535)
    (hsize : 32 ≤ g.fragmentSize) (h : segbmapMkfsPrepare layout g = .ok buffers) :
    Prepared layout g g.fragmentsCount buffers :=
  Checked.forRange_ind (fun i t => Prepared layout g i t) h
    ⟨fun _ => rfl, fun f hf => absurd hf (Nat.not_lt_zero f),
      fun f hf => absurd hf (Nat.not_lt_zero f), fun _ _ _ => rfl⟩
    fun _ _ _ _ ht hstep => segbmapWriteFragment_step hF hsize ht hstep

namespace SegbmapChosen

theorem fragmentSize_ge (h : SegbmapChosen layout g segs) : 4096 ≤ g.fragmentSize := by
  rw [h.fragmentSize]
  exact layout.pageSize.bytes_ge

theorem bufferSize (h : SegbmapChosen layout g segs) :
    segbmapPebBufferSize g = g.fragmentSize * g.fragmentsPerPeb := by
  have hle := h.fragmentSize ▸ layout.pageSize.bytes_le
  have hmul := Nat.mul_le_mul hle (Nat.le_of_lt h.fragmentsPerPeb_lt)
  exact Word.u64_of_lt (Nat.lt_of_le_of_lt hmul (by decide))

theorem fragmentsPerPeb_le (h : SegbmapChosen layout g segs) :
    g.fragmentsPerPeb ≤ g.fragmentsCount := by
  obtain ⟨hpos, hle⟩ := roundUp_bounds h.fragments_pos h.segs_pos
  rw [h.fragmentsPerPeb_eq]
  exact Nat.le_trans (roundUp_bounds hpos (Nat.pos_of_ne_zero h.pebsPerSeg16_ne)).2 hle

theorem segNums_lt (h : SegbmapChosen layout g segs) (hn : layout.segNums < 9223372036854775808) :
    layout.segNums < 8589934590 := by
  obtain ⟨hlt, -⟩ := bugOn_bind_eq_ok.1 h.bytes
  change ¬Word.u64 (layout.segNums + 1) / 2 ≥ Word.u32Max at hlt
  unfold Word.u32Max at hlt
  rw [Word.u64_of_lt (by omega)] at hlt
  omega

theorem fragmentBytes_bounds {f : Nat} (h : SegbmapChosen layout g segs)
    (hn : layout.segNums < 9223372036854775808) (hf : f < g.fragmentsCount)
    (hstart : f * 8128 < layout.segNums) {n : Nat}
    (hbytes : n = min (Word.sub64 (Word.u64 (g.bmapBytes + g.fragmentsCount * 32)) (f * 4096)) 4096) :
    33 ≤ n ∧ n ≤ 4096 ∧ min 8128 (layout.segNums - f * 8128) ≤ 2 * (n - 32) := by
  have hF := segBmapFragments_lt h.fragments
  have hb := segBmapBytes_ok h.bytes
  have hlt := h.segNums_lt hn
  rw [Word.u64_of_lt (by omega)] at hb
  rw [hbytes, Word.u64_of_lt (by omega), Word.sub64_of_le (by omega) (by omega)]
  omega

end SegbmapChosen

/-- The first buffer while the segments below `k` are reserved, and no other one. -/
structure Reserved (layout : VolumeLayout) (g : SegbmapGeometry) (k : Nat) (buf : Buf) : Prop where
  size : buf.size = g.fragmentSize * g.fragmentsPerPeb
  header : ∀ f < g.fragmentsPerPeb, ∃ fragment, segbmapPrepareFragment layout g f = .ok fragment ∧
    SegbmapFragmentHeader.wire.read buf.data (f * g.fragmentSize) = fragment.hdr
  start : ∀ f < g.fragmentsPerPeb, f * 8128 < layout.segNums ∧
    (SegbmapFragmentHeader.wire.read buf.data (f * g.fragmentSize)).startItem.toNat = f * 8128
  bytes : ∀ f < g.fragmentsPerPeb, ∃ n,
    (SegbmapFragmentHeader.wire.read buf.data (f * g.fragmentSize)).bitmapBytes = n ∧
      0 < n ∧ n ≤ 4064 ∧ min 8128 (layout.segNums - f * 8128) ≤ 2 * n
  items : ∀ f < g.fragmentsPerPeb, ∀ i < 8128, itemState buf.data (f * g.fragmentSize + 32) i =
    if f * 8128 + i < k then segReserved else segClean

theorem itemState_zero {m : Memory.Bytes} {bitmap : Nat} (h : m (bitmap + i / 2) = 0) :
    itemState m bitmap i = segClean := by
  unfold itemState
  rw [h]
  rcases Nat.mod_two_eq_zero_or_one i with hmod | hmod <;> rw [hmod] <;> rfl

theorem Prepared.clean {buffers : Nat → Buf} {f : Nat} (hfs : 4096 ≤ g.fragmentSize)
    (h : Prepared layout g g.fragmentsCount buffers) (hi : i < 8128) :
    itemState (buffers (f / g.fragmentsPerPeb)).data (f % g.fragmentsPerPeb * g.fragmentSize + 32) i =
      segClean := by
  refine itemState_zero (h.zero _ _ fun e _ _ => ?_)
  by_cases hmod : e % g.fragmentsPerPeb = f % g.fragmentsPerPeb
  · rw [hmod]
    omega
  · have := @places_apart g.fragmentSize _ _ hmod
    omega

theorem Prepared.reserved {buffers : Nat → Buf} (hchosen : SegbmapChosen layout g segs)
    (hn : layout.segNums < 9223372036854775808) (h : Prepared layout g g.fragmentsCount buffers) :
    Reserved layout g 0 (buffers 0) := by
  have hF := segBmapFragments_lt hchosen.fragments
  have hplace : ∀ f < g.fragmentsPerPeb,
      f / g.fragmentsPerPeb = 0 ∧ f % g.fragmentsPerPeb = f := fun f hf =>
    ⟨Nat.div_eq_of_lt hf, Nat.mod_eq_of_lt hf⟩
  have hheader : ∀ f < g.fragmentsPerPeb, ∃ fragment, segbmapPrepareFragment layout g f = .ok fragment ∧
      SegbmapFragmentHeader.wire.read (buffers 0).data (f * g.fragmentSize) = fragment.hdr := fun f hf => by
    have hprepared := h.header f (Nat.lt_of_lt_of_le hf hchosen.fragmentsPerPeb_le)
    rwa [(hplace f hf).1, (hplace f hf).2] at hprepared
  refine ⟨(h.size 0).trans hchosen.bufferSize, hheader, fun f hf => ?_, fun f hf => ?_, fun f hf i hi => ?_⟩
  · obtain ⟨fragment, hfragment, hread⟩ := hheader f hf
    obtain ⟨-, -, hstart, hlt, -⟩ := segbmapPrepareFragment_inv hF hfragment
    exact ⟨hlt, by rw [hread, hstart]⟩
  · obtain ⟨fragment, hfragment, hread⟩ := hheader f hf
    obtain ⟨-, -, -, hlt, hbytes⟩ := segbmapPrepareFragment_inv hF hfragment
    obtain ⟨hge, hle, hroom⟩ := hchosen.fragmentBytes_bounds hn
      (Nat.lt_of_lt_of_le hf hchosen.fragmentsPerPeb_le) hlt hbytes
    refine ⟨_, rfl, ?_⟩
    rw [hread]
    unfold SegbmapFragmentHeader.bitmapBytes segbmapFragmentHeaderSize
    rw [Word.sub32_of_le (by omega) (by omega)]
    omega
  · rw [if_neg (Nat.not_lt_zero _)]
    have hclean := @Prepared.clean layout g i buffers f hchosen.fragmentSize_ge h hi
    rwa [(hplace f hf).1, (hplace f hf).2] at hclean

namespace Reserved

variable {buf buf' : Buf} {f : Nat}

/-- Fragment `f` has been searched and the item of segment `k` has been set. -/
theorem setItem (h : Reserved layout g k buf) (hfs : 4096 ≤ g.fragmentSize)
    (hfpp : f < g.fragmentsPerPeb) {byteIndex offset : Nat}
    (hoffset : offset < 2) (hlt : byteIndex * 2 + offset < 8128)
    (hk : f * 8128 + (byteIndex * 2 + offset) = k) :
    Reserved layout g (k + 1) ⟨buf.size, Wire.u8.write buf.data (f * g.fragmentSize + 32 + byteIndex)
      (setStateInByte (buf.data (f * g.fragmentSize + 32 + byteIndex)) offset segStateBits
        segStateMask segReserved)⟩ := by
  have hhdr : ∀ e v, SegbmapFragmentHeader.wire.read
      (Wire.u8.write buf.data (f * g.fragmentSize + 32 + byteIndex) v) (e * g.fragmentSize) =
      SegbmapFragmentHeader.wire.read buf.data (e * g.fragmentSize) := fun e v => by
    refine SegbmapFragmentHeader.wire.read_write_of_disjoint Wire.u8 ?_
    rw [SegbmapFragmentHeader.wire_size]
    change _ ∨ f * g.fragmentSize + 32 + byteIndex + 1 ≤ e * g.fragmentSize
    by_cases hef : e = f
    · rw [hef]
      omega
    · have := @places_apart g.fragmentSize _ _ hef
      omega
  refine ⟨h.size, fun e he => ?_, fun e he => ?_, fun e he => ?_, fun e he i hi => ?_⟩
  · rw [hhdr]
    exact h.header e he
  · rw [hhdr]
    exact h.start e he
  · rw [hhdr]
    exact h.bytes e he
  by_cases hef : e = f
  · subst hef
    rw [itemState_put hoffset, h.items e he i hi]
    by_cases hi' : i = byteIndex * 2 + offset
    · rw [if_pos hi', if_pos (by omega)]
      rfl
    · rw [if_neg hi']
      exact if_congr (by omega) rfl rfl
  · have hne : e * g.fragmentSize + 32 + i / 2 ≠ f * g.fragmentSize + 32 + byteIndex := by
      have := @places_apart g.fragmentSize _ _ hef
      omega
    have hstate := h.items e he i hi
    have hor : e * 8128 + i < k ↔ e * 8128 + i < k + 1 := by omega
    rw [← if_congr hor rfl rfl, ← hstate]
    unfold itemState
    simp only
    rw [Wire.u8.write_frame (show _ ∨ f * g.fragmentSize + 32 + byteIndex + 1 ≤ _ by omega)]

@[simp] theorem searchStart_zero {hdr : SegbmapFragmentHeader} : searchStart hdr 0 = (0, 0) := by
  unfold searchStart
  have hzero : alignedStartItem 0 segStateBits = 0 := rfl
  simp only [hzero, Nat.zero_sub]
  split <;> rfl

theorem byteRange_eq (h : Reserved layout g k buf) (hn : layout.segNums < 8589934590)
    (hfpp : f < g.fragmentsPerPeb) :
    byteRange (SegbmapFragmentHeader.wire.read buf.data (f * g.fragmentSize)) layout.segNums =
      ((layout.segNums + 1) / 16 * 16 - f * 8128) / 2 := by
  obtain ⟨hlt, hstart⟩ := h.start f hfpp
  unfold byteRange
  rw [alignedEndItem_eq, Word.u64_of_lt (by omega), hstart, Word.sub64_of_le (by omega) (by omega)]

theorem accepted (h : Reserved layout g k buf)
    (hfpp : f < g.fragmentsPerPeb) :
    SearchAccepted (SegbmapFragmentHeader.wire.read buf.data (f * g.fragmentSize)) 0 layout.segNums
      pageCacheSize := by
  obtain ⟨hlt, hstart⟩ := h.start f hfpp
  obtain ⟨n, hbytes, hpos, hle, -⟩ := h.bytes f hfpp
  refine ⟨Nat.zero_lt_of_lt hlt, fun hmax => ?_, ?_, ?_⟩
  · rw [hstart] at hmax
    unfold Word.u64Max at hmax
    omega
  · rw [hbytes]
    exact Nat.pos_iff_ne_zero.1 hpos
  · rw [hbytes]
    exact Nat.le_trans hle (by decide)

theorem not_stops (h : Reserved layout g k buf) (hn : layout.segNums < 8589934590)
    (hfpp : f < g.fragmentsPerPeb) :
    ¬SearchStops (SegbmapFragmentHeader.wire.read buf.data (f * g.fragmentSize)) 0 layout.segNums := by
  rintro (hbig | ⟨-, hoffset⟩)
  · rw [h.byteRange_eq hn hfpp] at hbig
    unfold Word.u32Max at hbig
    omega
  · rw [searchStart_zero] at hoffset
    exact absurd hoffset (by decide)

/-- How far fragment `f` is searched: to its end, unless it is the last one. -/
theorem searchTo_eq (h : Reserved layout g k buf) (hn : layout.segNums < 8589934590)
    (hfpp : f < g.fragmentsPerPeb) : ∃ last,
    searchTo (SegbmapFragmentHeader.wire.read buf.data (f * g.fragmentSize)) layout.segNums = last ∧
      last ≤ 8128 ∧ (f + 1 < g.fragmentsPerPeb → last = 8128) ∧
      ∀ k, k < layout.segNums → k < (layout.segNums + 1) / 16 * 16 → k < f * 8128 + 8128 →
        k < f * 8128 + last := by
  have hlt := (h.start f hfpp).1
  obtain ⟨n, hbytes, -, hle, hroom⟩ := h.bytes f hfpp
  have hnext := fun hf => (h.start (f + 1) hf).1
  have hlast : searchTo (SegbmapFragmentHeader.wire.read buf.data (f * g.fragmentSize))
      layout.segNums = min n (((layout.segNums + 1) / 16 * 16 - f * 8128) / 2) * 2 := by
    unfold searchTo searchEnd
    rw [h.byteRange_eq hn hfpp, hbytes]
  refine ⟨_, hlast, by omega, fun hf => ?_, fun k hk hk' hf => by omega⟩
  have hstart := hnext hf
  omega

theorem tryFragment_run (h : Reserved layout g k buf) (hfs : 4096 ≤ g.fragmentSize)
    (hfpp : f < g.fragmentsPerPeb) (hn : layout.segNums < 8589934590) :
    ∃ r, FirstClean buf.data (f * g.fragmentSize + 32) 0
        (searchTo (SegbmapFragmentHeader.wire.read buf.data (f * g.fragmentSize)) layout.segNums) r ∧
      tryFragment layout g f buf = .ok (takeItem buf (f * g.fragmentSize + 32)
        (SegbmapFragmentHeader.wire.read buf.data (f * g.fragmentSize)) layout.segNums segReserved
        r) := by
  have hlt := (h.start f hfpp).1
  obtain ⟨n, hbytes, -, hle, -⟩ := h.bytes f hfpp
  have hroom : f * g.fragmentSize + 4096 ≤ buf.size := by
    have hmul : (f + 1) * g.fragmentSize ≤ g.fragmentsPerPeb * g.fragmentSize :=
      Nat.mul_le_mul_right _ hfpp
    rw [h.size, Nat.mul_comm g.fragmentSize]
    rw [Nat.succ_mul] at hmul
    omega
  have hseg : layout.segSize.toNat ≠ 0 := fun h0 => by
    unfold VolumeLayout.segNums at hlt
    rw [h0, Nat.div_zero] at hlt
    exact Nat.not_lt_zero _ hlt
  obtain ⟨r, hr, hrun⟩ := @setFirstCleanItemInFragment_run buf (f * g.fragmentSize + 32) segReserved 0
    layout.segNums pageCacheSize _ (h.accepted hfpp) (by rw [hbytes]; omega) (h.not_stops hn hfpp)
  rw [searchStart_zero] at hr
  refine ⟨r, hr, ?_⟩
  unfold tryFragment quot
  rw [Checked.quot_of_ne hseg, Checked.ok_bind]
  simp only
  rw [Buf.get_ok (by rw [SegbmapFragmentHeader.wire_size]; omega), Checked.ok_bind]
  exact hrun

/-- The search of fragment `f` takes segment `k` if it goes so far. -/
theorem tryFragment_eq (h : Reserved layout g k buf) (hfs : 4096 ≤ g.fragmentSize)
    (hn : layout.segNums < 8589934590) (hfpp : f < g.fragmentsPerPeb) (hlo : f * 8128 ≤ k) {last : Nat}
    (hlast : searchTo (SegbmapFragmentHeader.wire.read buf.data (f * g.fragmentSize)) layout.segNums =
      last) (hle : last ≤ 8128) :
    if k < f * 8128 + last then ∃ buf', Reserved layout g (k + 1) buf' ∧
      tryFragment layout g f buf = .ok (buf', if layout.segNums ≤ k then none else some k)
    else tryFragment layout g f buf = .ok (buf, none) := by
  obtain ⟨hbehind, hstart⟩ := h.start f hfpp
  have hitems := h.items f hfpp
  obtain ⟨r, hr, htry⟩ := h.tryFragment_run hfs hfpp hn
  rw [hlast] at hr
  clear hlast
  cases r with
  | none =>
    rw [if_neg fun hk => ?_]
    · exact htry
    · refine hr (k - f * 8128) (Nat.zero_le _) (by omega) ?_
      rw [hitems _ (by omega), if_neg (by omega)]
  | some r =>
    obtain ⟨byteIndex, offset⟩ := r
    obtain ⟨hoffset, -, hhi, hclean, hfirst⟩ := hr
    have hin : byteIndex * 2 + offset < 8128 := Nat.lt_of_lt_of_le hhi hle
    have hge : k ≤ f * 8128 + (byteIndex * 2 + offset) := by
      by_contra hlt
      rw [hitems _ hin, if_pos (Nat.not_le.1 hlt)] at hclean
      exact absurd hclean (by decide)
    have hfound : f * 8128 + (byteIndex * 2 + offset) = k := by
      by_contra hne
      refine hfirst (k - f * 8128) (Nat.zero_le _) (by omega) ?_
      rw [hitems _ (by omega), if_neg (by omega)]
    rw [if_pos (hfound ▸ Nat.add_lt_add_left hhi _)]
    have hk : k < 8589934590 + 8128 := hfound ▸ Nat.add_lt_add (Nat.lt_trans hbehind hn) hin
    refine ⟨_, h.setItem hfs hfpp hoffset hin hfound, ?_⟩
    rw [takeItem_eq (by rw [hstart, hfound]; exact Nat.lt_trans hk (by decide)), hstart, hfound] at htry
    rw [htry]
    congr 2
    refine if_congr (or_iff_left_of_imp fun hmax => ?_) rfl rfl
    rw [hmax] at hk
    exact absurd hk (by decide)

theorem tryFragments_cases {rest : Nat} (h : Reserved layout g k buf) (hfs : 4096 ≤ g.fragmentSize)
    (hn : layout.segNums < 8589934590) (hlo : f * 8128 ≤ k)
    (hrest : f + rest = g.fragmentsPerPeb) :
    (∃ buf', tryFragments layout g rest f buf = .ok (buf', k) ∧ k < layout.segNums ∧
      Reserved layout g (k + 1) buf') ∨
    (tryFragments layout g rest f buf = fail .erange ∧ ¬(k < layout.segNums ∧
      k < (layout.segNums + 1) / 16 * 16 ∧ k < g.fragmentsPerPeb * 8128)) := by
  induction rest generalizing f with
  | zero => exact .inr ⟨rfl, by omega⟩
  | succ rest ih =>
    have hfpp : f < g.fragmentsPerPeb := by omega
    obtain ⟨last, hlast, hle, hwhole, hfar⟩ := h.searchTo_eq hn hfpp
    have htry := h.tryFragment_eq hfs hn hfpp hlo hlast hle
    clear hlast
    have hnext := fun hf => (h.start (f + 1) hf).1
    rcases Nat.lt_or_ge k (f * 8128 + last) with hk | hk
    · rw [if_pos hk] at htry
      obtain ⟨buf', hreserved, htry⟩ := htry
      by_cases hlast : layout.segNums ≤ k
      · rw [if_pos hlast] at htry
        rcases Nat.eq_zero_or_pos rest with rfl | hpos
        · refine .inr ⟨?_, by omega⟩
          rw [tryFragments, htry]
          rfl
        · -- The next fragment would begin behind the last segment.
          have hbehind := hnext (by omega)
          omega
      · rw [if_neg hlast] at htry
        refine .inl ⟨buf', ?_, Nat.not_le.1 hlast, hreserved⟩
        rw [tryFragments, htry]
    · rw [if_neg (Nat.not_lt.2 hk)] at htry
      rw [tryFragments, htry]
      rcases Nat.eq_zero_or_pos rest with rfl | hpos
      · refine .inr ⟨rfl, ?_⟩
        have hend : g.fragmentsPerPeb * 8128 = f * 8128 + 8128 := by
          rw [← hrest, Nat.add_mul, Nat.zero_add, Nat.one_mul]
        rintro ⟨hlt, hround, hin⟩
        exact absurd (hfar k hlt hround (hend ▸ hin)) (Nat.not_lt.2 hk)
      · have hlast := hwhole (by omega)
        rw [hlast] at hk
        have hrest' := @ih (f + 1) (Nat.succ_mul f 8128 ▸ hk) (by omega)
        exact hrest'

end Reserved

/-- The array after its first `k` segments have got their numbers and their LEBs. -/
structure Numbered (layout : VolumeLayout) (a : SegsArray) (k : Nat) (a' : SegsArray) : Prop where
  capacity : a'.segsCapacity = a.segsCapacity
  segsCount : a'.segsCount = a.segsCount
  metaArray : a'.metaArray = a.metaArray
  numbered : ∀ i < k, i < layout.segNums ∧
    defineLebId layout { a.segs i with segId := i } = .ok (a'.segs i)
  rest : ∀ i, k ≤ i → a'.segs i = a.segs i

/-- The first `k` segments have got their numbers, and the items of these are reserved. -/
def NumberedTo (layout : VolumeLayout) (g : SegbmapGeometry) (a : SegsArray) (k : Nat)
    (st : Buf × SegsArray) : Prop :=
  Reserved layout g k st.1 ∧ Numbered layout a k st.2

section

variable {buf : Buf} {a : SegsArray} {st : Buf × SegsArray}

theorem defineSeg_cases (hchosen : SegbmapChosen layout g segs)
    (hn : layout.segNums < 9223372036854775808) (hinv : NumberedTo layout g a k st)
    (htype : ∃ t, (a.segs k).segType = some t ∧ t ≠ .userData) :
    (∃ st', defineSeg layout g k st = .ok st' ∧ NumberedTo layout g a (k + 1) st') ∨
    ((∀ st', defineSeg layout g k st ≠ .ok st') ∧ ¬(k < layout.segNums ∧
      k < (layout.segNums + 1) / 16 * 16 ∧ k < g.fragmentsPerPeb * 8128 ∧
      ∃ desc, defineLebId layout { a.segs k with segId := k } = .ok desc)) := by
  obtain ⟨buf₀, a₀⟩ := st
  obtain ⟨hreserved, harray⟩ := hinv
  obtain ⟨t, ht, hmeta⟩ := htype
  have hsame : a₀.segs k = a.segs k := harray.rest k (Nat.le_refl k)
  have hseg : defineSeg layout g k (buf₀, a₀) =
      defineSegId layout g buf₀ (a.segs k) >>= fun r => .ok (r.1, a₀.setSeg k r.2) := by
    unfold defineSeg
    simp only [hsame, ht]
  have hpos := hchosen.fragmentsPerPeb_pos
  have hsearch := hreserved.tryFragments_cases hchosen.fragmentSize_ge (hchosen.segNums_lt hn)
    (show 0 * 8128 ≤ k by omega) (show 0 + max g.fragmentsPerPeb 1 = g.fragmentsPerPeb by omega)
  rw [hseg]
  unfold defineSegId
  rcases hsearch with ⟨buf₁, hfound, hlt, hnext⟩ | ⟨hfound, hout⟩
  case inr =>
    rw [hfound]
    exact .inr ⟨fun _ h => (by cases h), fun h => hout ⟨h.1, h.2.1, h.2.2.1⟩⟩
  rw [hfound, Checked.ok_bind]
  cases hleb : defineLebId layout { a.segs k with segId := k } with
  | error e =>
    simp only [hleb, Checked.error_bind]
    refine .inr ⟨fun _ h => (by cases h), ?_⟩
    rintro ⟨-, -, -, desc, h⟩
    cases h
  | ok desc =>
    refine .inl ⟨(buf₁, a₀.setSeg k desc), by simp only [hleb, Checked.ok_bind], hnext,
      harray.capacity, harray.segsCount, harray.metaArray, fun i hi => ?_, fun i hi => ?_⟩
    · rcases Nat.lt_succ_iff_lt_or_eq.1 hi with hold | rfl
      · have hother : (a₀.setSeg k desc).segs i = a₀.segs i :=
          Function.update_of_ne (Nat.ne_of_lt hold) ..
        rw [hother]
        exact harray.numbered i hold
      · have hself : (a₀.setSeg i desc).segs i = desc := Function.update_self ..
        rw [hself]
        exact ⟨hlt, hleb⟩
    · have hother : (a₀.setSeg k desc).segs i = a₀.segs i :=
        Function.update_of_ne (Nat.ne_of_gt hi) ..
      rw [hother]
      exact harray.rest i (Nat.le_of_succ_le hi)

theorem NumberedTo.zero (hbuf : Reserved layout g 0 buf) : NumberedTo layout g a 0 (buf, a) :=
  ⟨hbuf, rfl, rfl, rfl, fun i hi => absurd hi (Nat.not_lt_zero i), fun _ _ => rfl⟩

theorem segbmapMkfsValidate_ok {r : Buf × SegsArray} (hchosen : SegbmapChosen layout g segs)
    (hn : layout.segNums < 9223372036854775808) (hbuf : Reserved layout g 0 buf)
    (htypes : ∀ i < a.segsCapacity, ∃ t, (a.segs i).segType = some t ∧ t ≠ .userData)
    (h : segbmapMkfsValidate layout g buf a = .ok r) : NumberedTo layout g a a.segsCapacity r := by
  refine Checked.forRange_ind (NumberedTo layout g a) h (NumberedTo.zero hbuf) ?_
  intro k hk st st' hinv hstep
  rcases defineSeg_cases hchosen hn hinv (htypes k hk) with ⟨st'', hok, hnext⟩ | ⟨hfails, -⟩
  · cases hok.symm.trans hstep
    exact hnext
  · exact absurd hstep (hfails st')

theorem segbmapMkfsValidate_exists (hchosen : SegbmapChosen layout g segs)
    (hn : layout.segNums < 9223372036854775808) (hbuf : Reserved layout g 0 buf)
    (htypes : ∀ i < a.segsCapacity, ∃ t, (a.segs i).segType = some t ∧ t ≠ .userData)
    (hlebs : ∀ i < a.segsCapacity, ∃ desc, defineLebId layout { a.segs i with segId := i } = .ok desc)
    (hsegs : a.segsCapacity ≤ (layout.segNums + 1) / 16 * 16) (hnums : a.segsCapacity ≤ layout.segNums)
    (hfit : a.segsCapacity ≤ g.fragmentsPerPeb * 8128) :
    ∃ r, segbmapMkfsValidate layout g buf a = .ok r ∧ NumberedTo layout g a a.segsCapacity r := by
  refine Checked.forRange_ok (NumberedTo layout g a) (NumberedTo.zero hbuf) ?_
  intro k hk st hinv
  rcases defineSeg_cases hchosen hn hinv (htypes k hk) with hok | ⟨-, hout⟩
  · exact hok
  · exact absurd ⟨Nat.lt_of_lt_of_le hk hnums, Nat.lt_of_lt_of_le hk hsegs,
      Nat.lt_of_lt_of_le hk hfit, hlebs k hk⟩ hout

end

end

end Ssdfs
