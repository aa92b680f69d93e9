import Ssdfs.Lib.Exact
import Ssdfs.Maptbl.Policy
import Ssdfs.Volume.Header
import Ssdfs.Write.Placed

namespace Ssdfs

def diesStripes (nandDies stripes : Nat) : Nat :=
  if stripes > nandDies then stripes - stripes % nandDies
  else if stripes < nandDies then stripes - nandDies % stripes
  else stripes

def pageStripes (stripes : Nat) : Nat := if stripes ≤ 2 then 2 else 476 * stripes / 1016

namespace VolumeLayout

variable (layout : VolumeLayout)

def znsPortions (stripes : Nat) : Nat := (layout.pebsPerVolume + 476 * stripes - 1) / (476 * stripes)

/-- The stripes of a round that begins with `stripes` of them. -/
def roundStripes (stripes : Nat) : Nat :=
  let stripes := diesStripes layout.nandDiesCount.toNat stripes
  if layout.env.deviceType = .zns then layout.znsPortions stripes else pageStripes stripes

def stripePebs (stripes : Nat) : Nat :=
  if stripes < layout.pebsPerSeg then
    476 / ((layout.pebsPerSeg + stripes - 1) / stripes) * ((layout.pebsPerSeg + stripes - 1) / stripes)
  else 476

def portionBytes (stripes : Nat) : Nat :=
  ((layout.stripePebs stripes * stripes + 1015) / 1016 + stripes) * layout.pageSize.bytes

/-- A zoned volume has at least one portion and no more than a field of 16 bits counts. -/
structure RoundAdmitted (stripes : Nat) : Prop where
  device : layout.env.deviceType ≠ .max
  portions : layout.env.deviceType = .zns →
    0 < layout.pebsPerVolume ∧
      layout.znsPortions (diesStripes layout.nandDiesCount.toNat stripes) ≤ Word.u16Max

structure RoundFits (stripes : Nat) : Prop extends layout.RoundAdmitted stripes where
  fits : layout.portionBytes (layout.roundStripes stripes) ≤ layout.env.eraseSize.toNat

structure LoopGeometry : Prop where
  segment : layout.pebsPerSeg ≤ 16777216
  zone : layout.env.deviceType = .zns → layout.pebsPerVolume ≤ 36028797018963968 ∧ layout.pebsPerSeg = 1
  erase : layout.env.deviceType ≠ .zns → layout.pageSize.bytes ∣ layout.env.eraseSize.toNat

end VolumeLayout

/-- The loop comes to an end, with a portion that the erase block holds. -/
def StripesEnd (layout : VolumeLayout) (stripes : Nat) : Prop :=
  ∃ fuel portion, defineStripesPerPortion layout fuel stripes = .ok portion ∧
    1 ≤ portion.stripesPerPortion ∧ portion.portionSize ≤ layout.env.eraseSize.toNat

section

variable {layout : VolumeLayout} {nandDies stripes s d fuel : Nat} {portion : Portion}

theorem diesStripes_pos (hdies : 0 < nandDies) (h : 0 < stripes) : 0 < diesStripes nandDies stripes := by
  unfold diesStripes
  split
  · have := Nat.mod_lt stripes hdies
    omega
  · split
    · have := Nat.mod_lt nandDies h
      omega
    · exact h

theorem diesStripes_le : diesStripes nandDies stripes ≤ stripes := by
  unfold diesStripes
  split
  · exact Nat.sub_le _ _
  · split
    · exact Nat.sub_le _ _
    · exact Nat.le_refl _

theorem correctMaptblStripes_eq (hdies : 0 < nandDies) (h : 0 < stripes) :
    correctMaptblStripesPerPortion nandDies stripes = .ok (diesStripes nandDies stripes) := by
  unfold correctMaptblStripesPerPortion diesStripes
  split
  · simp only [rem, Checked.rem_of_ne (Nat.pos_iff_ne_zero.1 hdies), Checked.ok_bind]
  · split
    · simp only [rem, Checked.rem_of_ne (Nat.pos_iff_ne_zero.1 h), Checked.ok_bind]
    · rfl

theorem pageStripes_pos : 0 < pageStripes stripes := by
  unfold pageStripes
  split <;> omega

theorem pageStripes_lt (h : stripes < 65536) : pageStripes stripes < 65536 := by
  unfold pageStripes
  split <;> omega

theorem fitStripes_eq (h : stripes < 65536) : fitStripes stripes (476 * stripes) = pageStripes stripes := by
  unfold fitStripes pageStripes
  rw [lebDescPerFragment_page, pebDescPerFragment_page]
  by_cases hfew : stripes ≤ 2
  · rw [if_pos (by omega), if_pos hfew]
  · rw [if_neg (by omega), if_pos (by omega), if_neg hfew, Word.u16_of_lt (by omega)]

theorem VolumeLayout.stripePebs_le : layout.stripePebs s ≤ 476 := by
  unfold VolumeLayout.stripePebs
  split
  · exact Nat.div_mul_le_self _ _
  · exact Nat.le_refl _

theorem alignStripe_eq (hseg : layout.pebsPerSeg ≤ 16777216) (h0 : 0 < s) (hs : s < 65536) :
    alignStripe layout.pebsPerSeg s = .ok (layout.stripePebs s) := by
  have hle := @VolumeLayout.stripePebs_le layout s
  unfold alignStripe
  unfold VolumeLayout.stripePebs at *
  by_cases hmore : s < layout.pebsPerSeg
  · rw [if_pos hmore] at hle ⊢
    have hgroup : (layout.pebsPerSeg + s - 1) / s ≠ 0 :=
      Nat.pos_iff_ne_zero.1 (Nat.div_pos (by omega) h0)
    rw [if_pos hmore, Word.u32_of_lt (by omega)]
    simp only [quot, Checked.quot_of_ne (Nat.pos_iff_ne_zero.1 h0), Checked.ok_bind,
      Checked.quot_of_ne hgroup, pebDescPerFragment_page]
    rw [Word.u32_of_lt (by omega)]
  · rw [if_neg hmore, if_neg hmore]
    rfl

theorem portionOf_size (hs : s < 65536) :
    (portionOf layout.pageSize s (layout.stripePebs s)).portionSize = layout.portionBytes s := by
  have hpebs : layout.stripePebs s * s ≤ 476 * 65535 :=
    Nat.mul_le_mul VolumeLayout.stripePebs_le (Nat.le_of_lt_succ hs)
  have hpage := layout.pageSize.bytes_le
  have hmem : (layout.stripePebs s * s + 1015) / 1016 ≤ 30704 := by omega
  have hleb : (layout.stripePebs s * s + 1015) / 1016 * layout.pageSize.bytes ≤ 30704 * 32768 :=
    Nat.mul_le_mul hmem hpage
  have hpeb : s * layout.pageSize.bytes ≤ 65535 * 32768 := Nat.mul_le_mul (Nat.le_of_lt_succ hs) hpage
  have hround : layout.stripePebs s * s + 1016 - 1 = layout.stripePebs s * s + 1015 := by omega
  unfold portionOf VolumeLayout.portionBytes
  simp only [lebDescPerFragment_page]
  rw [Word.u32_of_lt (show layout.stripePebs s * s < 4294967296 by omega), hround,
    Word.u32_of_lt (show layout.stripePebs s * s + 1015 < 4294967296 by omega),
    Word.u32_of_lt (Nat.lt_of_le_of_lt hleb (by decide)),
    Word.u32_of_lt (Nat.lt_of_le_of_lt hpeb (by decide)), Nat.add_mul, Word.u32_of_lt (by omega)]

theorem VolumeLayout.RoundAdmitted.roundStripes_pos (h : layout.RoundAdmitted stripes)
    (hdies : 0 < layout.nandDiesCount.toNat) (h0 : 0 < stripes) : 0 < layout.roundStripes stripes := by
  have hpos := diesStripes_pos hdies h0
  unfold VolumeLayout.roundStripes
  simp only
  split
  case isTrue hzns =>
    have hpebs := (h.portions hzns).1
    exact Nat.div_pos (by omega) (by omega)
  case isFalse => exact pageStripes_pos

theorem VolumeLayout.RoundAdmitted.roundStripes_lt (h : layout.RoundAdmitted stripes)
    (hlt : stripes < 65536) : layout.roundStripes stripes < 65536 := by
  unfold VolumeLayout.roundStripes
  simp only
  split
  case isTrue hzns => exact Nat.lt_succ_of_le (h.portions hzns).2
  case isFalse => exact pageStripes_lt (Nat.lt_of_le_of_lt diesStripes_le hlt)

theorem deviceStripes_exact (hgeo : layout.LoopGeometry) (hdies : 0 < layout.nandDiesCount.toNat)
    (h0 : 0 < stripes) (hlt : stripes < 65536) :
    Checked.Exact (deviceStripes layout (pageStripes (diesStripes layout.nandDiesCount.toNat stripes))
        (476 * diesStripes layout.nandDiesCount.toNat stripes) >>= fun s =>
          alignStripe layout.pebsPerSeg s >>= fun d => .ok (portionOf layout.pageSize s d))
      (layout.RoundAdmitted stripes) (· = portionOf layout.pageSize (layout.roundStripes stripes)
        (layout.stripePebs (layout.roundStripes stripes))) := by
  have hpos := diesStripes_pos hdies h0
  have hle := Nat.lt_of_le_of_lt (@diesStripes_le layout.nandDiesCount.toNat stripes) hlt
  have hround : ∀ s, 0 < s → s < 65536 → (alignStripe layout.pebsPerSeg s >>= fun d =>
      Except.ok (portionOf layout.pageSize s d)) =
        .ok (portionOf layout.pageSize s (layout.stripePebs s)) := fun s hs hs' => by
    rw [alignStripe_eq hgeo.segment hs hs', Checked.ok_bind]
  have hplain : layout.env.deviceType ≠ .zns → layout.env.deviceType ≠ .max →
      Checked.Exact (.ok (portionOf layout.pageSize
          (pageStripes (diesStripes layout.nandDiesCount.toNat stripes))
          (layout.stripePebs (pageStripes (diesStripes layout.nandDiesCount.toNat stripes)))) :
          Mkfs Portion)
        (layout.RoundAdmitted stripes) (· = portionOf layout.pageSize (layout.roundStripes stripes)
          (layout.stripePebs (layout.roundStripes stripes))) := fun hzns hmax => by
    have hpage : layout.roundStripes stripes =
        pageStripes (diesStripes layout.nandDiesCount.toNat stripes) := if_neg hzns
    rw [hpage]
    exact ⟨fun _ => ⟨_, rfl, rfl⟩, fun _ _ => ⟨hmax, fun hdev => absurd hdev hzns⟩⟩
  unfold deviceStripes
  cases hdev : layout.env.deviceType with
  | mtd =>
    simp only [Checked.ok_bind]
    rw [hround _ pageStripes_pos (pageStripes_lt hle)]
    exact hplain (by rw [hdev]; decide) (by rw [hdev]; decide)
  | blk =>
    simp only [Checked.ok_bind]
    rw [hround _ pageStripes_pos (pageStripes_lt hle)]
    exact hplain (by rw [hdev]; decide) (by rw [hdev]; decide)
  | max =>
    simp only [Checked.error_bind]
    exact Checked.Exact.error.congr (iff_of_false (fun h => h.device hdev) id) fun _ h => h
  | zns =>
    obtain ⟨hvolume, hone⟩ := hgeo.zone hdev
    have hne : 476 * diesStripes layout.nandDiesCount.toNat stripes ≠ 0 := by omega
    have hzns : layout.roundStripes stripes =
        layout.znsPortions (diesStripes layout.nandDiesCount.toNat stripes) := if_pos hdev
    rw [Word.u64_of_lt (Nat.lt_of_le_of_lt (show _ ≤ 36028797018963968 + 476 * 65536 by omega)
      (by decide))]
    simp only [quot, Checked.quot_of_ne hne, Checked.ok_bind]
    change Checked.Exact ((failIf (layout.znsPortions _ > Word.u16Max) .e2big >>= fun _ =>
      Except.ok (Word.u16 (layout.znsPortions _))) >>= _) _ _
    by_cases hmany : layout.znsPortions (diesStripes layout.nandDiesCount.toNat stripes) > Word.u16Max
    · have hfail : (failIf (layout.znsPortions (diesStripes layout.nandDiesCount.toNat stripes) >
          Word.u16Max) .e2big : Mkfs Unit) = .error (.code .e2big) := if_pos hmany
      rw [hfail]
      exact Checked.Exact.error.congr (iff_of_false (fun h =>
        Nat.not_le.2 hmany (h.portions hdev).2) id) fun _ h => h
    · have hfew := Nat.not_lt.1 hmany
      rw [failIf_of_not hmany, Checked.ok_bind, Checked.ok_bind,
        Word.u16_of_lt (Nat.lt_succ_of_le hfew)]
      rcases Nat.eq_zero_or_pos layout.pebsPerVolume with hzero | hvol
      · -- No portion at all leaves no stripe to divide by.
        have hnone : layout.znsPortions (diesStripes layout.nandDiesCount.toNat stripes) = 0 := by
          unfold VolumeLayout.znsPortions
          exact Nat.div_eq_of_lt (by omega)
        have htrap : alignStripe layout.pebsPerSeg 0 = .error .trap := by
          rw [hone]
          rfl
        rw [hnone, htrap, Checked.error_bind]
        exact Checked.Exact.error.congr (iff_of_false (fun h =>
          absurd (h.portions hdev).1 (by omega)) id) fun _ h => h
      · have hadmitted : layout.RoundAdmitted stripes :=
          ⟨by rw [hdev]; decide, fun _ => ⟨hvol, hfew⟩⟩
        have hspos := hadmitted.roundStripes_pos hdies h0
        rw [← hzns, hround _ hspos (hadmitted.roundStripes_lt hlt)]
        exact ⟨fun _ => ⟨_, rfl, rfl⟩, fun _ _ => hadmitted⟩

theorem definePortion_exact (hgeo : layout.LoopGeometry) (hdies : 0 < layout.nandDiesCount.toNat)
    (h0 : 0 < stripes) (hlt : stripes < 65536) : Checked.Exact (definePortion layout stripes)
      (layout.RoundAdmitted stripes) (· = portionOf layout.pageSize (layout.roundStripes stripes)
        (layout.stripePebs (layout.roundStripes stripes))) := by
  have hle := Nat.lt_of_le_of_lt (@diesStripes_le layout.nandDiesCount.toNat stripes) hlt
  unfold definePortion
  rw [Word.u16_of_lt hlt, correctMaptblStripes_eq hdies h0, Checked.ok_bind,
    bugOn_of_not (by decide), Checked.ok_bind]
  simp only [pebDescPerFragment_page]
  rw [Word.u32_of_lt (by omega), fitStripes_eq hle]
  exact deviceStripes_exact hgeo hdies h0 hlt

theorem portionBytes_le (hs : s < 65536) : layout.portionBytes s ≤ 96239 * 32768 := by
  have hpebs : layout.stripePebs s * s ≤ 476 * 65535 :=
    Nat.mul_le_mul VolumeLayout.stripePebs_le (Nat.le_of_lt_succ hs)
  exact Nat.mul_le_mul (by omega) layout.pageSize.bytes_le

theorem defineStripesPerPortion_round (hgeo : layout.LoopGeometry)
    (hdies : 0 < layout.nandDiesCount.toNat) (h0 : 0 < stripes) (hlt : stripes < 65536)
    (h : layout.RoundAdmitted stripes) : defineStripesPerPortion layout (fuel + 1) stripes =
      if layout.portionBytes (layout.roundStripes stripes) ≤ layout.env.eraseSize.toNat then
        .ok (portionOf layout.pageSize (layout.roundStripes stripes)
          (layout.stripePebs (layout.roundStripes stripes)))
      else if layout.portionBytes (layout.roundStripes stripes) < layout.env.eraseSize.toNat + 4096 then
        defineStripesPerPortion layout fuel (layout.roundStripes stripes)
      else .error .abort := by
  have hs := h.roundStripes_lt hlt
  have hpos := h.roundStripes_pos hdies h0
  obtain ⟨_, hportion, rfl⟩ := (definePortion_exact hgeo hdies h0 hlt).succeeds h
  have hbytes := @portionBytes_le layout _ hs
  change (definePortion layout stripes >>= _) = _
  rw [hportion, Checked.ok_bind, portionOf_size hs]
  by_cases hfit : layout.portionBytes (layout.roundStripes stripes) ≤ layout.env.eraseSize.toNat
  · rw [if_pos hfit, if_neg (Nat.not_lt.2 hfit)]
  · rw [if_neg hfit, if_pos (Nat.not_le.1 hfit)]
    change bugOn (Word.u32 (Word.sub32 _ _ + 4096 - 1) / 4096 ≥ layout.roundStripes stripes) >>= (fun _ =>
      defineStripesPerPortion layout fuel (layout.roundStripes stripes -
        Word.u32 (Word.sub32 _ _ + 4096 - 1) / 4096)) = _
    unfold Word.sub32 Word.u32
    by_cases hnear : layout.portionBytes (layout.roundStripes stripes) < layout.env.eraseSize.toNat + 4096
    · have hnone : ((layout.env.eraseSize.toNat +
          (4294967296 - layout.portionBytes (layout.roundStripes stripes) % 4294967296)) % 4294967296 +
            4096 - 1) % 4294967296 / 4096 = 0 := by omega
      rw [if_pos hnear, hnone, bugOn_of_not (Nat.not_le.2 hpos), Checked.ok_bind, Nat.sub_zero]
    · have hmany : ((layout.env.eraseSize.toNat +
          (4294967296 - layout.portionBytes (layout.roundStripes stripes) % 4294967296)) % 4294967296 +
            4096 - 1) % 4294967296 / 4096 ≥ layout.roundStripes stripes := by omega
      rw [if_neg hnear]
      exact congrArg (· >>= _) (Checked.bugOn_of hmany)

theorem portionBytes_step (hone : layout.pebsPerSeg = 1) {s' : Nat} (h0 : 0 < s) (h : s < s') :
    layout.portionBytes s + 4096 ≤ layout.portionBytes s' := by
  have hall : ∀ t, 0 < t → layout.stripePebs t = 476 := fun t ht => if_neg (by omega)
  have hpage := layout.pageSize.bytes_ge
  unfold VolumeLayout.portionBytes
  rw [hall s h0, hall s' (Nat.lt_trans h0 h)]
  calc ((476 * s + 1015) / 1016 + s) * layout.pageSize.bytes + 4096
      ≤ ((476 * s + 1015) / 1016 + s + 1) * layout.pageSize.bytes := by
        rw [Nat.add_one_mul ((476 * s + 1015) / 1016 + s)]
        exact Nat.add_le_add_left hpage _
    _ ≤ ((476 * s' + 1015) / 1016 + s') * layout.pageSize.bytes := Nat.mul_le_mul_right _ (by omega)

theorem portionBytes_far (hgeo : layout.LoopGeometry) (hzns : layout.env.deviceType ≠ .zns)
    (h : ¬layout.portionBytes s ≤ layout.env.eraseSize.toNat) :
    layout.env.eraseSize.toNat + 4096 ≤ layout.portionBytes s := by
  obtain ⟨n, hn⟩ := hgeo.erase hzns
  have hpage := layout.pageSize.bytes_ge
  unfold VolumeLayout.portionBytes at *
  rw [hn, Nat.mul_comm layout.pageSize.bytes n] at h ⊢
  have hlt : n < (layout.stripePebs s * s + 1015) / 1016 + s :=
    Nat.lt_of_mul_lt_mul_right (Nat.not_le.1 h)
  calc n * layout.pageSize.bytes + 4096 ≤ (n + 1) * layout.pageSize.bytes := by
        rw [Nat.add_one_mul]
        exact Nat.add_le_add_left hpage _
    _ ≤ _ := Nat.mul_le_mul_right _ hlt

theorem defineStripesPerPortion_loops (hgeo : layout.LoopGeometry)
    (hdies : 0 < layout.nandDiesCount.toNat) (h0 : 0 < s) (hlt : s < 65536)
    (hround : layout.roundStripes s = s) (hbig : ¬layout.portionBytes s ≤ layout.env.eraseSize.toNat)
    (fuel : Nat) : defineStripesPerPortion layout fuel s ≠ .ok portion := by
  induction fuel with
  | zero => exact fun h => nomatch h
  | succ fuel ih =>
    intro h
    have hadmitted : layout.RoundAdmitted s := by
      obtain ⟨p, hp, -⟩ := Checked.bind_eq_ok.1 h
      exact (definePortion_exact hgeo hdies h0 hlt).only p hp
    rw [defineStripesPerPortion_round hgeo hdies h0 hlt hadmitted, hround, if_neg hbig] at h
    split at h
    · exact ih h
    · cases h

/-- The stripes of a zoned volume may be tried twice, where less than a page is missing. -/
structure VolumeLayout.StripesSettle (layout : VolumeLayout) (stripes : Nat) : Prop where
  settle : layout.RoundFits stripes ∨ layout.RoundAdmitted stripes ∧
    layout.portionBytes (layout.roundStripes stripes) < layout.env.eraseSize.toNat + 4096 ∧
      layout.RoundFits (layout.roundStripes stripes)

theorem RoundFits.run (hgeo : layout.LoopGeometry) (hdies : 0 < layout.nandDiesCount.toNat)
    (h0 : 0 < stripes) (hlt : stripes < 65536) (h : layout.RoundFits stripes) :
    defineStripesPerPortion layout (fuel + 1) stripes =
      .ok (portionOf layout.pageSize (layout.roundStripes stripes)
        (layout.stripePebs (layout.roundStripes stripes))) := by
  rw [defineStripesPerPortion_round hgeo hdies h0 hlt h.toRoundAdmitted, if_pos h.fits]

theorem stripesEnd_of_fits (hgeo : layout.LoopGeometry) (hdies : 0 < layout.nandDiesCount.toNat)
    (h0 : 0 < stripes) (hlt : stripes < 65536) (h : layout.RoundFits stripes) :
    StripesEnd layout stripes :=
  ⟨1, _, RoundFits.run hgeo hdies h0 hlt h, h.roundStripes_pos hdies h0, by
    rw [portionOf_size (h.roundStripes_lt hlt)]
    exact h.fits⟩

theorem stripesEnd_iff (hgeo : layout.LoopGeometry) (hdies : 0 < layout.nandDiesCount.toNat)
    (h0 : 0 < stripes) (hlt : stripes < 65536) :
    StripesEnd layout stripes ↔ layout.StripesSettle stripes := by
  have hadmitted : ∀ t fuel p, 0 < t → t < 65536 → defineStripesPerPortion layout (fuel + 1) t = .ok p →
      layout.RoundAdmitted t := fun t fuel p ht ht' h => by
    obtain ⟨q, hq, -⟩ := Checked.bind_eq_ok.1 h
    exact (definePortion_exact hgeo hdies ht ht').only q hq
  constructor
  · rintro ⟨fuel, p, h, -, -⟩
    cases fuel with
    | zero => cases h
    | succ fuel =>
      have hfirst := hadmitted _ _ _ h0 hlt h
      have hs := hfirst.roundStripes_lt hlt
      have hpos := hfirst.roundStripes_pos hdies h0
      rw [defineStripesPerPortion_round hgeo hdies h0 hlt hfirst] at h
      by_cases hfit : layout.portionBytes (layout.roundStripes stripes) ≤ layout.env.eraseSize.toNat
      · exact ⟨.inl ⟨hfirst, hfit⟩⟩
      rw [if_neg hfit] at h
      by_cases hnear : layout.portionBytes (layout.roundStripes stripes) <
          layout.env.eraseSize.toNat + 4096
      case neg =>
        rw [if_neg hnear] at h
        cases h
      rw [if_pos hnear] at h
      have hzns : layout.env.deviceType = .zns := by
        by_contra hne
        have := portionBytes_far hgeo hne hfit
        omega
      cases fuel with
      | zero => cases h
      | succ fuel =>
        have hsecond := hadmitted _ _ _ hpos hs h
        refine ⟨.inr ⟨hfirst, hnear, hsecond, ?_⟩⟩
        by_contra hbig
        -- A second portion of less than a page too much has the stripes of the first one.
        have hsame : layout.roundStripes (layout.roundStripes stripes) = layout.roundStripes stripes := by
          have hrun := h
          rw [defineStripesPerPortion_round hgeo hdies hpos hs hsecond, if_neg hbig] at hrun
          have hone := (hgeo.zone hzns).2
          have hpos' := hsecond.roundStripes_pos hdies hpos
          split at hrun
          case isFalse => cases hrun
          case isTrue hnear' =>
            rcases Nat.lt_trichotomy (layout.roundStripes (layout.roundStripes stripes))
              (layout.roundStripes stripes) with hl | he | hg
            · have := portionBytes_step hone hpos' hl
              omega
            · exact he
            · have := portionBytes_step hone hpos hg
              omega
        exact defineStripesPerPortion_loops hgeo hdies hpos hs hsame hfit _ h
  · rintro ⟨hfits | ⟨hfirst, hnear, hfits⟩⟩
    · exact stripesEnd_of_fits hgeo hdies h0 hlt hfits
    · have hs := hfirst.roundStripes_lt hlt
      have hpos := hfirst.roundStripes_pos hdies h0
      obtain ⟨fuel, p, h, hstripes, hsize⟩ := stripesEnd_of_fits hgeo hdies hpos hs hfits
      by_cases hfit : layout.portionBytes (layout.roundStripes stripes) ≤ layout.env.eraseSize.toNat
      · exact stripesEnd_of_fits hgeo hdies h0 hlt ⟨hfirst, hfit⟩
      · refine ⟨fuel + 1, p, ?_, hstripes, hsize⟩
        rw [defineStripesPerPortion_round hgeo hdies h0 hlt hfirst, if_neg hfit, if_pos hnear]
        exact h

variable {options geometry : VolumeLayout} {sectorsPerZone : Option UInt32}

theorem correctGeometry_device (h : correctGeometry sectorsPerZone options = .ok geometry) :
    geometry.env.deviceType = options.env.deviceType ∧
      (options.env.deviceType = .zns → sectorSize ∣ zoneSize sectorsPerZone) := by
  unfold correctGeometry at h
  split at h
  case isFalse hzns =>
    cases h
    exact ⟨rfl, fun hdev => absurd hdev hzns⟩
  case isTrue =>
    obtain ⟨corrected, hcheck, h⟩ := Checked.bind_eq_ok.1 h
    refine ⟨?_, fun _ => ?_⟩
    · cases corrected with
      | none =>
        simp only at h
        split at h <;> cases h <;> rfl
      | some sizes =>
        simp only at h
        split at h <;> cases h <;> rfl
    · cases sectorsPerZone with
      | none => cases hcheck
      | some sectors =>
        exact (Nat.dvd_mod_iff (by decide : sectorSize ∣ 4294967296)).2 (Nat.dvd_mul_left _ _)

theorem settleKeyCreationOptions_loop (h : settleKeyCreationOptions sectorsPerZone options = .ok layout)
    (hseg : options.segSize.toNat ≤ 68719476736) : layout.LoopGeometry := by
  have hsizes := settleKeyCreationOptions_sizes h
  obtain ⟨_, hvalid, h⟩ := Checked.bind_eq_ok.1 h
  obtain ⟨geometry, hgeometry, h⟩ := Checked.bind_eq_ok.1 h
  obtain ⟨hsegSize, h⟩ := quot_bind_eq_ok.1 h
  obtain ⟨_, -, h⟩ := Checked.bind_eq_ok.1 h
  obtain ⟨-, h⟩ := failIf_bind_eq_ok.1 h
  obtain rfl := Except.ok.inj h
  obtain ⟨hdevice, hzone⟩ := correctGeometry_device hgeometry
  obtain ⟨herase, hsegment⟩ := hsizes
  simp only at herase hsegment
  by_cases hzns : options.env.deviceType = .zns
  · have hE : geometry.env.eraseSize.toNat = zoneSize sectorsPerZone := by
      rw [herase]
      exact if_pos hzns
    have hS : geometry.segSize.toNat = zoneSize sectorsPerZone := by
      rw [hsegment]
      exact if_pos hzns
    have hge : 512 ≤ zoneSize sectorsPerZone :=
      Nat.le_of_dvd (Nat.pos_of_ne_zero (hS ▸ hsegSize)) (hzone hzns)
    have hone : Word.u32 (geometry.segSize.toNat / geometry.env.eraseSize.toNat) = 1 := by
      rw [hE, hS, Nat.div_self (by omega)]
      rfl
    refine ⟨?_, fun _ => ⟨?_, hone⟩, fun hne => absurd (hdevice.trans hzns) hne⟩
    · exact Nat.le_trans (Nat.le_of_eq hone) (by decide)
    · change _ / geometry.env.eraseSize.toNat ≤ _
      rw [hE]
      refine Nat.le_of_lt_succ (Nat.div_lt_of_lt_mul ?_)
      calc geometry.env.fsSize.toNat / geometry.segSize.toNat * geometry.segSize.toNat % 2 ^ 64
          < 2 ^ 64 := Nat.mod_lt _ (by decide)
        _ ≤ 512 * (36028797018963968 + 1) := by decide
        _ ≤ zoneSize sectorsPerZone * (36028797018963968 + 1) := Nat.mul_le_mul_right _ hge
  · have hsame : geometry = options := by
      have hplain : correctGeometry sectorsPerZone options = .ok options := if_neg hzns
      exact (Except.ok.inj (hplain.symm.trans hgeometry)).symm
    subst hsame
    have hdvd := validateKeyCreationOptions_dvd hvalid
    refine ⟨?_, fun hdev => absurd hdev hzns, fun _ => hdvd⟩
    obtain ⟨hpage, -⟩ := failIf_bind_eq_ok.1 hvalid
    have hge := geometry.pageSize.bytes_ge
    refine Nat.le_trans (Word.u32_le _) (Nat.le_trans (Nat.div_le_div_left ?_ (by decide : 0 < 4096)) ?_)
    · exact Nat.le_trans hge (Nat.le_of_lt (Nat.not_le.1 hpage))
    · exact Nat.div_le_of_le_mul hseg

/-- The loop ends well exactly where the stripes settle in its first round or, for want of less than
a page, in its second one. -/
theorem stripesLoop_ends_iff (hsettle : settleKeyCreationOptions sectorsPerZone options = .ok layout)
    (hseg : options.segSize.toNat ≤ 68719476736) (hdies : 0 < layout.nandDiesCount.toNat)
    (h0 : 0 < stripes) (hlt : stripes < 65536) :
    StripesEnd layout stripes ↔ layout.StripesSettle stripes :=
  stripesEnd_iff (settleKeyCreationOptions_loop hsettle hseg) hdies h0 hlt

end

theorem stripesLoop_ends_1 : ∃ layout,
    settleKeyCreationOptions none (headerOptions 8388608 68719476736 .blk) = .ok layout ∧
      StripesEnd layout 1 := by
  obtain ⟨layout, hsettle⟩ : ∃ layout, settleKeyCreationOptions none
      (headerOptions 8388608 68719476736 .blk) = .ok layout := Checked.exists_ok rfl
  have hlayout := Except.ok.inj hsettle
  refine ⟨layout, hsettle, (stripesLoop_ends_iff hsettle (by decide) ?_ (by decide) (by decide)).2
    ⟨.inl ⟨⟨?_, ?_⟩, ?_⟩⟩⟩ <;> rw [← hlayout] <;> decide

/-- 2342 pages of PEB descriptors and 1098 of LEB descriptors are more than 8 MiB. -/
theorem stripesLoop_aborts_5000 : ∃ layout,
    settleKeyCreationOptions none (headerOptions 8388608 68719476736 .blk) = .ok layout ∧
      ¬StripesEnd layout 5000 := by
  obtain ⟨layout, hsettle⟩ : ∃ layout, settleKeyCreationOptions none
      (headerOptions 8388608 68719476736 .blk) = .ok layout := Checked.exists_ok rfl
  have hlayout := Except.ok.inj hsettle
  have hbig : layout.env.eraseSize.toNat + 4096 ≤ layout.portionBytes (layout.roundStripes 5000) := by
    rw [← hlayout]
    decide
  have hdies : 0 < layout.nandDiesCount.toNat := by
    rw [← hlayout]
    decide
  refine ⟨layout, hsettle, fun h => ?_⟩
  rcases ((stripesEnd_iff (settleKeyCreationOptions_loop hsettle (by decide)) hdies (by decide)
    (by decide)).1 h).settle with hfits | ⟨-, hnear, -⟩
  · exact absurd hfits.fits (by omega)
  · omega

end Ssdfs
