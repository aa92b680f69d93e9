import Mathlib.Data.Set.Function
import Ssdfs.HandOut.Walk

/-! The buffers of a payload, which are handed out to the PEBs. -/

namespace Ssdfs

structure HandOut where
  a : SegsArray
  fragments : Nat → Option Buf
  calculatedOpenZones : Nat

def SegsArray.payload (a : SegsArray) (site : Nat × Nat) : Option (Nat → UInt8) :=
  (((a.segs site.1).pebs site.2).extents .logPayload).buf

section

variable (layout : VolumeLayout) (src : PayloadSource) (start : Nat)

def SegmentDesc.takePayload (desc : SegmentDesc) (peb : Nat) (buf : Buf) (bytesCount : Nat) :
    SegmentDesc :=
  let content := desc.pebs peb
  let extent := { content.extents .logPayload with
    buf := some buf.data
    bytesCount := UInt32.ofNat bytesCount }
  { desc with
    pebsCount := Word.u16 (desc.pebsCount + 1)
    pebs := Function.update desc.pebs peb
      { content with extents := Function.update content.extents .logPayload extent } }

def handOutPeb (site : PebSite) (st : HandOut) : Mkfs HandOut := do
  let segIndex := start + site.seg
  let desc := st.a.segs segIndex
  bugOn (Word.u16 (desc.pebsCount + 1) > desc.pebsCapacity)
  bugOn ((st.a.payload (segIndex, site.peb)).isSome = true)
  if site.fragmentIndex ≥ src.buffersCount then .error .stray
  else
    match st.fragments site.fragmentIndex with
    | none => fail .erange
    | some buf =>
      .ok
        { a := st.a.setSeg segIndex (desc.takePayload site.peb buf src.pebBufferSize)
          fragments := Function.update st.fragments site.fragmentIndex none
          calculatedOpenZones := Word.u32 (st.calculatedOpenZones + 1) }

def handOutBuffers (desc : MetadataDesc) (st : HandOut) : Mkfs HandOut := do
  failIf (desc.startSegIndex ≥ st.a.segsCapacity) .erange
  failIf (st.a.segsCount + desc.segsCount > st.a.segsCapacity) .e2big
  walkPebs layout src (handOutPeb src desc.startSegIndex) desc.segsCount st

/-- What `segbmap_mkfs_define_layout` does with the buffers of the segment bitmap. -/
def segbmapHandOut (segbmap : SegbmapGeometry) (st : HandOut) : Mkfs HandOut := do
  let desc := st.a.metaArray .segbmap
  failIf (desc.segsCount = 0 ∨ desc.segsCount > segbmapSegsMax * 2) .erange
  handOutBuffers layout (segbmapPayload segbmap) desc st

end

/-- Segments from `start` on that no payload has been given to. -/
structure Unpaid (src : PayloadSource) (start segs : Nat) (st : HandOut) : Prop where
  payload : ∀ i < segs, ∀ j, st.a.payload (start + i, j) = none
  pebsCount : ∀ i < segs, (st.a.segs (start + i)).pebsCount = 0
  pebsCapacity : ∀ i < segs, src.pebsPerSeg ≤ (st.a.segs (start + i)).pebsCapacity
  pebs_lt : src.pebsPerSeg < 65536

/-- The first `k` buffers are handed out, one after the other to the segments from `start` on. -/
structure HandedOut (src : PayloadSource) (start : Nat) (before : HandOut) (k : Nat) (st : HandOut) :
    Prop where
  fragments : ∀ b, st.fragments b = if b < k then none else before.fragments b
  payload : ∀ i j, j < src.pebsPerSeg → i * src.pebsPerSeg + j < k →
    st.a.payload (start + i, j) = (before.fragments (i * src.pebsPerSeg + j)).map Buf.data
  others : ∀ i j, src.pebsPerSeg ≤ j ∨ k ≤ i * src.pebsPerSeg + j →
    st.a.payload (start + i, j) = before.a.payload (start + i, j)
  outside : ∀ i < start, st.a.segs i = before.a.segs i
  pebsCount : ∀ i, (before.a.segs (start + i)).pebsCount = 0 →
    (st.a.segs (start + i)).pebsCount = min src.pebsPerSeg (k - i * src.pebsPerSeg)
  kept : ∀ i, (st.a.segs i).segId = (before.a.segs i).segId ∧
    (st.a.segs i).pebsCapacity = (before.a.segs i).pebsCapacity
  array : st.a = { before.a with segs := st.a.segs }
  zones : st.calculatedOpenZones = Word.u32 (before.calculatedOpenZones + k)

section

variable {layout : VolumeLayout} {src : PayloadSource} {start segs k : Nat} {st st' before : HandOut}

theorem SegsArray.payload_setSeg {a : SegsArray} {seg : SegmentDesc} {i i' j : Nat} :
    (a.setSeg i seg).payload (i', j) =
      if i' = i then ((seg.pebs j).extents .logPayload).buf else a.payload (i', j) := by
  unfold payload setSeg
  simp only [Function.update_apply]
  split <;> rfl

theorem SegmentDesc.takePayload_payload {desc : SegmentDesc} {peb j n : Nat} {buf : Buf} :
    (((desc.takePayload peb buf n).pebs j).extents .logPayload).buf =
      if j = peb then some buf.data else ((desc.pebs j).extents .logPayload).buf := by
  unfold takePayload
  simp only [Function.update_apply]
  split <;> rfl

theorem place_eq_iff {p i j n : Nat} (hj : j < p) : i = n / p ∧ j = n % p ↔ i * p + j = n := by
  constructor
  · rintro ⟨rfl, rfl⟩
    exact Nat.div_add_mod' n p
  · rintro rfl
    rw [Nat.mul_comm, Nat.mul_add_div (by omega), Nat.div_eq_of_lt hj, Nat.mul_add_mod,
      Nat.mod_eq_of_lt hj]
    exact ⟨rfl, rfl⟩

theorem HandedOut.zero (hzones : before.calculatedOpenZones < 4294967296) :
    HandedOut src start before 0 before where
  fragments b := (if_neg (Nat.not_lt_zero b)).symm
  payload i j _ hlt := absurd hlt (Nat.not_lt_zero _)
  others i j _ := rfl
  outside i _ := rfl
  pebsCount i h := by rw [h, Nat.zero_sub, Nat.min_zero]
  kept i := ⟨rfl, rfl⟩
  array := rfl
  zones := (Word.u32_of_lt hzones).symm

theorem HandedOut.step (hbefore : Unpaid src start segs before) (hpos : 0 < src.pebsPerSeg)
    (h : HandedOut src start before k st) (hk : k < segs * src.pebsPerSeg)
    (hin : k < src.buffersCount) {buf : Buf} (hbuf : before.fragments k = some buf) :
    ∃ st', handOutPeb src start (src.site layout k) st = .ok st' ∧
      HandedOut src start before (k + 1) st' := by
  have hmod := Nat.mod_lt k hpos
  have hseg : k / src.pebsPerSeg < segs := Nat.div_lt_of_lt_mul (Nat.mul_comm .. ▸ hk)
  have hplace := Nat.div_add_mod' k src.pebsPerSeg
  have hlt := hbefore.pebs_lt
  have hcap := hbefore.pebsCapacity _ hseg
  have hcount : (st.a.segs (start + k / src.pebsPerSeg)).pebsCount = k % src.pebsPerSeg := by
    rw [h.pebsCount _ (hbefore.pebsCount _ hseg)]
    omega
  have hnone : st.a.payload (start + k / src.pebsPerSeg, k % src.pebsPerSeg) = none := by
    rw [h.others _ _ (.inr (Nat.le_of_eq hplace.symm))]
    exact hbefore.payload _ hseg _
  have hrun : handOutPeb src start (src.site layout k) st = .ok
      { a := st.a.setSeg (start + k / src.pebsPerSeg)
          ((st.a.segs (start + k / src.pebsPerSeg)).takePayload (k % src.pebsPerSeg) buf
            src.pebBufferSize)
        fragments := Function.update st.fragments k none
        calculatedOpenZones := Word.u32 (st.calculatedOpenZones + 1) } := by
    unfold handOutPeb PayloadSource.site
    simp only [hcount, hnone]
    rw [bugOn_of_not (by rw [(h.kept _).2, Word.u16_of_lt (by omega)]; omega), Checked.ok_bind,
      bugOn_of_not (by decide), Checked.ok_bind, if_neg (Nat.not_le.2 hin), h.fragments,
      if_neg (Nat.lt_irrefl k), hbuf]
  refine ⟨_, hrun,
    { fragments := fun b => ?_
      payload := fun i j hj hle => ?_
      others := fun i j hout => ?_
      outside := fun i hi => ?_
      pebsCount := fun i hi => ?_
      kept := fun i => ?_
      array := ?_
      zones := ?_ }⟩
  · simp only [Function.update_apply]
    split
    case isTrue heq => rw [heq, if_pos (Nat.lt_succ_self k)]
    case isFalse hne =>
      rw [h.fragments]
      exact if_congr (by omega) rfl rfl
  · rw [SegsArray.payload_setSeg]
    rcases Nat.lt_succ_iff_lt_or_eq.1 hle with hold | hnew
    · rw [← h.payload i j hj hold]
      split
      case isTrue heq =>
        have hi : i = k / src.pebsPerSeg := Nat.add_left_cancel heq
        rw [SegmentDesc.takePayload_payload, if_neg, heq]
        · rfl
        · intro hj'
          have := (place_eq_iff hj).1 ⟨hi, hj'⟩
          omega
      case isFalse => rfl
    · obtain ⟨hi, hj'⟩ := (place_eq_iff hj).2 hnew
      rw [if_pos (by rw [hi]), SegmentDesc.takePayload_payload, if_pos hj', hnew, hbuf]
      rfl
  · rw [SegsArray.payload_setSeg, ← h.others i j (hout.imp_right Nat.le_of_succ_le)]
    split
    case isTrue heq =>
      have hi : i = k / src.pebsPerSeg := Nat.add_left_cancel heq
      rw [SegmentDesc.takePayload_payload, if_neg, heq]
      · rfl
      · intro hj'
        rcases hout with hge | hge
        · omega
        · have := (place_eq_iff (hj' ▸ hmod)).1 ⟨hi, hj'⟩
          omega
    case isFalse => rfl
  · rw [← h.outside i hi]
    exact Function.update_of_ne (Nat.ne_of_lt (Nat.lt_of_lt_of_le hi (Nat.le_add_right _ _))) ..
  · have hold := h.pebsCount i hi
    simp only [SegsArray.setSeg, Function.update_apply]
    split
    case isTrue heq =>
      obtain rfl : i = k / src.pebsPerSeg := Nat.add_left_cancel heq
      change Word.u16 ((st.a.segs _).pebsCount + 1) = _
      rw [hcount, Word.u16_of_lt (by omega)]
      omega
    case isFalse hne =>
      rw [hold]
      have hother : i ≠ k / src.pebsPerSeg := fun hi => hne (by rw [hi])
      rcases Nat.lt_or_gt_of_ne hother with hlt | hgt
      · have hmul := Nat.mul_le_mul_right src.pebsPerSeg (Nat.succ_le_of_lt hlt)
        rw [Nat.succ_mul] at hmul
        omega
      · have hmul := Nat.mul_le_mul_right src.pebsPerSeg (Nat.succ_le_of_lt hgt)
        rw [Nat.succ_mul] at hmul
        omega
  · have hold := h.kept i
    simp only [SegsArray.setSeg, Function.update_apply]
    split
    case isTrue heq =>
      rw [heq] at hold ⊢
      exact hold
    case isFalse => exact hold
  · rw [h.array]
    rfl
  · simp only [h.zones, u32_add_u32, Nat.add_assoc]

structure HandOutReady (layout : VolumeLayout) (src : PayloadSource) (desc : MetadataDesc)
    (st : HandOut) : Prop where
  blks_pos : 0 < src.validBlks layout
  blks_lt : src.pebsPerSeg * src.validBlks layout < 4294967296
  pebs_pos : 0 < src.pebsPerSeg
  start : desc.startSegIndex < st.a.segsCapacity
  room : st.a.segsCount + desc.segsCount ≤ st.a.segsCapacity
  unpaid : Unpaid src desc.startSegIndex desc.segsCount st
  fragments : ∀ b < src.buffersCount, (st.fragments b).isSome = true
  zones : st.calculatedOpenZones < 4294967296

namespace HandOutReady

variable {desc : MetadataDesc}

theorem eq_walk (h : HandOutReady layout src desc st) : handOutBuffers layout src desc st =
    Checked.forRange (src.visited desc.segsCount)
      (fun n => handOutPeb src desc.startSegIndex (src.site layout n)) st := by
  unfold handOutBuffers
  rw [failIf_of_not (Nat.not_le.2 h.start), Checked.ok_bind, failIf_of_not (Nat.not_lt.2 h.room),
    Checked.ok_bind, walkPebs_eq h.blks_pos h.blks_lt]

theorem step (h : HandOutReady layout src desc st) {k : Nat} (hk : k < src.visited desc.segsCount)
    (hin : k < src.buffersCount) {t : HandOut} (ht : HandedOut src desc.startSegIndex st k t) :
    ∃ t', handOutPeb src desc.startSegIndex (src.site layout k) t = .ok t' ∧
      HandedOut src desc.startSegIndex st (k + 1) t' := by
  obtain ⟨buf, hbuf⟩ := Option.isSome_iff_exists.1 (h.fragments k hin)
  exact ht.step h.unpaid h.pebs_pos (Nat.lt_of_lt_of_le hk (Nat.min_le_right _ _)) hin hbuf

theorem run (h : HandOutReady layout src desc st)
    (hle : src.visited desc.segsCount ≤ src.buffersCount) :
    ∃ st', handOutBuffers layout src desc st = .ok st' ∧
      HandedOut src desc.startSegIndex st (src.visited desc.segsCount) st' := by
  rw [h.eq_walk]
  exact Checked.forRange_ok (HandedOut src desc.startSegIndex st) (HandedOut.zero h.zones)
    fun k hk t ht => h.step hk (Nat.lt_of_lt_of_le hk hle) ht

theorem not_run (h : HandOutReady layout src desc st)
    (hlt : src.buffersCount < src.visited desc.segsCount) :
    handOutBuffers layout src desc st ≠ .ok st' := fun hrun => by
  rw [h.eq_walk] at hrun
  obtain ⟨t, t', ht, hstep⟩ := Checked.forRange_step hrun hlt
  obtain ⟨u, hu, hpaid⟩ := Checked.forRange_ok (HandedOut src desc.startSegIndex st)
    (HandedOut.zero h.zones) fun k hk t ht => h.step (Nat.lt_trans hk hlt) hk ht
  cases hu.symm.trans ht
  obtain ⟨-, hstep⟩ := bugOn_bind_eq_ok.1 hstep
  obtain ⟨-, hstep⟩ := bugOn_bind_eq_ok.1 hstep
  have hout : (src.site layout src.buffersCount).fragmentIndex ≥ src.buffersCount := Nat.le_refl _
  rw [if_pos hout] at hstep
  cases hstep

end HandOutReady

/-- Each of `n` buffers has become the payload of one PEB, and no other PEB has got a payload. -/
structure AllHandedOut (n : Nat) (before : HandOut) (st : HandOut) : Prop where
  taken : ∀ b < n, st.fragments b = none
  places : ∃ place : Nat → Nat × Nat, Set.InjOn place (Set.Iio n) ∧
    (∀ b < n, ∃ buf, before.fragments b = some buf ∧ st.a.payload (place b) = some buf.data) ∧
    ∀ site, site ∉ place '' Set.Iio n → st.a.payload site = before.a.payload site

theorem HandedOut.all (hpos : 0 < src.pebsPerSeg)
    (hfragments : ∀ b < k, (before.fragments b).isSome = true)
    (h : HandedOut src start before k st) : AllHandedOut k before st := by
  refine ⟨fun b hb => by rw [h.fragments, if_pos hb],
    fun b => (start + b / src.pebsPerSeg, b % src.pebsPerSeg), fun b _ b' _ heq => ?_,
    fun b hb => ?_, fun site hout => ?_⟩
  · obtain ⟨hdiv, hmod⟩ := Prod.mk.inj heq
    have hb := Nat.div_add_mod' b src.pebsPerSeg
    have hb' := Nat.div_add_mod' b' src.pebsPerSeg
    rw [← hb, ← hb', Nat.add_left_cancel hdiv, hmod]
  · obtain ⟨buf, hbuf⟩ := Option.isSome_iff_exists.1 (hfragments b hb)
    have hplace := Nat.div_add_mod' b src.pebsPerSeg
    refine ⟨buf, hbuf, ?_⟩
    rw [h.payload _ _ (Nat.mod_lt b hpos) (hplace.symm ▸ hb), hplace, hbuf]
    rfl
  · obtain ⟨i, j⟩ := site
    rcases Nat.lt_or_ge i start with hlt | hge
    · unfold SegsArray.payload
      rw [h.outside i hlt]
    · obtain ⟨i, rfl⟩ := Nat.exists_eq_add_of_le hge
      refine h.others i j ?_
      by_contra hin
      rw [not_or, Nat.not_le, Nat.not_le] at hin
      refine hout ⟨i * src.pebsPerSeg + j, hin.2, ?_⟩
      obtain ⟨hi, hj⟩ := (@place_eq_iff src.pebsPerSeg i j _ hin.1).2 rfl
      exact Prod.ext (congrArg (start + ·) hi.symm) hj.symm

end

end Ssdfs
