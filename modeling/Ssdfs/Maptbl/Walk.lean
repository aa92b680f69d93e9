import Ssdfs.Maptbl.Map

namespace Ssdfs

variable (layout : VolumeLayout)

def stripeOf (leb : Nat) : Nat :=
  if layout.maptbl.stripesPerPortion = 1 then leb % layout.maptbl.pebsPerPortion % 1016 / 476
  else if layout.pebsPerSeg > layout.maptbl.stripesPerPortion then
    leb % layout.pebsPerSeg / layout.lebIndexPerStripe
  else leb % layout.pebsPerSeg / layout.pebsPerSeg

def nextPage (leb : Nat) : Nat :=
  layout.pageStart (leb / layout.maptbl.pebsPerPortion)
      (leb % layout.maptbl.pebsPerPortion / 1016) +
    layout.pageCount (leb / layout.maptbl.pebsPerPortion)
      (leb % layout.maptbl.pebsPerPortion / 1016)

/-- The stripe begins at or below the PEB and, unless it is empty, reaches behind it. -/
def Enters (portion stripe peb : Nat) : Prop :=
  layout.stripeStart portion stripe ≤ peb ∧ (layout.stripeCount portion stripe = 0 ∨
    peb < layout.stripeStart portion stripe + layout.stripeCount portion stripe)

instance (portion stripe peb : Nat) : Decidable (Enters layout portion stripe peb) :=
  inferInstanceAs (Decidable (_ ∧ _))

def chainEnd (portion : Nat) : Nat → List Nat → Option Nat
  | peb, [] => some peb
  | peb, i :: is =>
    if Enters layout portion i peb then
      chainEnd portion (layout.stripeStart portion i + layout.stripeCount portion i) is
    else none

def stripesFrom (leb : Nat) : List Nat :=
  List.range' (stripeOf layout leb) (layout.maptbl.stripesPerPortion - stripeOf layout leb)

/-- The pages from a LEB on and the stripes from a PEB on stay in step to the end of the
volume, where the last stripe ends at `last`. -/
inductive InStep : Nat → Nat → Nat → Prop
  | stop {leb peb : Nat} : layout.pebsPerVolume ≤ leb → InStep leb peb peb
  | page {leb peb peb' last : Nat} : leb < layout.pebsPerVolume →
      leb / layout.maptbl.pebsPerPortion < layout.maptbl.portionsCount →
      chainEnd layout (leb / layout.maptbl.pebsPerPortion) peb (stripesFrom layout leb) =
        some peb' →
      InStep (nextPage layout leb) peb' last → InStep leb peb last

variable {layout}

theorem lebIndexPerStripe_mul (hacc : layout.Accepted) :
    layout.pebsPerSeg ≤ layout.lebIndexPerStripe * layout.maptbl.stripesPerPortion := by
  have hs := hacc.stripes_pos
  have hdm := Nat.div_add_mod (layout.pebsPerSeg + layout.maptbl.stripesPerPortion - 1)
    layout.maptbl.stripesPerPortion
  have hmod := Nat.mod_lt (layout.pebsPerSeg + layout.maptbl.stripesPerPortion - 1) hs
  unfold VolumeLayout.lebIndexPerStripe
  rw [Nat.mul_comm]
  omega

theorem lebIndexPerStripe_pos (hacc : layout.Accepted) : 0 < layout.lebIndexPerStripe := by
  have hmul := lebIndexPerStripe_mul hacc
  have hpos := hacc.pebsPerSeg_pos
  by_contra h
  rw [Nat.eq_zero_of_not_pos h, Nat.zero_mul] at hmul
  omega

theorem stripes_le_pebs (hacc : layout.Accepted) :
    layout.maptbl.stripesPerPortion ≤ layout.maptbl.pebsPerPortion := by
  rw [hacc.pebs_eq]
  exact Nat.le_mul_of_pos_left _ hacc.stripe_pos

theorem pebs_le_of_one (hacc : layout.Accepted) (h : layout.maptbl.stripesPerPortion = 1) :
    layout.maptbl.pebsPerPortion ≤ 476 := by
  rw [hacc.pebs_eq, h, Nat.mul_one]
  exact hacc.stripe_le

theorem stripeOf_lt (hacc : layout.Accepted) (leb : Nat) :
    stripeOf layout leb < layout.maptbl.stripesPerPortion := by
  have hs := hacc.stripes_pos
  have hmod := Nat.mod_lt leb hacc.pebsPerSeg_pos
  unfold stripeOf
  split
  case isTrue h =>
    have hP := pebs_le_of_one hacc h
    have hlt := Nat.mod_lt leb hacc.pebs_pos
    rw [h]
    omega
  case isFalse h =>
    split
    case isTrue hgt =>
      refine (Nat.div_lt_iff_lt_mul (lebIndexPerStripe_pos hacc)).2 ?_
      rw [Nat.mul_comm]
      exact Nat.lt_of_lt_of_le hmod (lebIndexPerStripe_mul hacc)
    case isFalse hle =>
      rw [Nat.div_eq_of_lt hmod]
      exact hs

theorem getStripeIndex_ok (hacc : layout.Accepted) {hdr : LebTableFragment} {leb : Nat}
    (hleb : leb < 4294967296)
    (hstart : hdr.startLeb = layout.pageStart (leb / layout.maptbl.pebsPerPortion)
      (leb % layout.maptbl.pebsPerPortion / 1016)) :
    getStripeIndex layout hdr leb = .ok (stripeOf layout leb) := by
  have hlt := stripeOf_lt hacc leb
  have hle := stripes_le_pebs hacc
  have hP := hacc.pebs_lt
  have hs := hacc.stripes_pos
  have hpps := hacc.pebsPerSeg_pos
  unfold getStripeIndex
  simp only [rem, Checked.rem, if_neg (Nat.ne_of_gt hpps), Checked.ok_bind]
  unfold stripeOf at hlt ⊢
  split
  case isTrue h =>
    have hdm := Nat.div_add_mod leb layout.maptbl.pebsPerPortion
    have hle : hdr.startLeb ≤ leb ∧ leb - hdr.startLeb =
        leb % layout.maptbl.pebsPerPortion % 1016 := by
      rw [hstart]
      unfold VolumeLayout.pageStart Geometry.pageStart
      omega
    rw [Word.sub64_of_le hle.1 (by omega), hle.2, pebDescPerFragment_page,
      Word.u16_of_lt (by omega)]
  case isFalse h =>
    rw [if_neg h] at hlt
    split
    case isTrue hgt =>
      rw [if_pos hgt] at hlt
      have hpos := lebIndexPerStripe_pos hacc
      have hsum : Word.u32 (layout.pebsPerSeg + layout.maptbl.stripesPerPortion - 1) /
          layout.maptbl.stripesPerPortion = layout.lebIndexPerStripe := by
        rw [Word.u32_of_lt (hacc.aligned hgt).1]
        rfl
      simp only [quot, Checked.quot, if_neg (Nat.ne_of_gt hs), Checked.ok_bind, hsum,
        if_neg (Nat.ne_of_gt hpos)]
      rw [bugOn_of_not (by unfold Word.u16Max; omega), Checked.ok_bind]
    case isFalse hngt =>
      rw [bugOn_of_not (by unfold Word.u16Max; omega), Checked.ok_bind, quot, Checked.quot,
        if_neg (Nat.ne_of_gt hpps)]

/-- A stripe without PEBs that a walk enters in the volume is followed by a gap, unless it is
the last one and begins where the walk stands. -/
theorem stripe_empty (hacc : layout.Accepted) {portion i peb : Nat}
    (hbase : layout.maptbl.pebsPerPortion * portion < layout.pebsPerVolume)
    (hpeb : peb ≤ layout.pebsPerVolume) (hzero : layout.stripeCount portion i = 0)
    (hstart : layout.stripeStart portion i ≤ peb) :
    layout.stripeStart portion i = peb ∨ i + 1 < layout.maptbl.stripesPerPortion := by
  have hs := hacc.stripes_pos
  have hP := hacc.pebs_pos
  have hle := stripes_le_pebs hacc
  rw [VolumeLayout.stripeCount_def] at hzero
  split at hzero
  case isTrue h => exact .inl (by omega)
  case isFalse h =>
    right
    have hrest : layout.restPebs portion =
        min (layout.pebsPerVolume - layout.maptbl.pebsPerPortion * portion)
          layout.maptbl.pebsPerPortion := by
      unfold VolumeLayout.restPebs Geometry.restPebs
      rw [if_neg (by omega)]
    have hc : (layout.restPebs portion + layout.restPebs portion %
        layout.maptbl.stripesPerPortion) / layout.maptbl.stripesPerPortion = 0 := by omega
    rw [Nat.div_eq_zero_iff] at hc
    have hlt : layout.restPebs portion < layout.maptbl.stripesPerPortion := by omega
    have hmod : layout.restPebs portion % layout.maptbl.stripesPerPortion =
        layout.restPebs portion := Nat.mod_eq_of_lt hlt
    have hw : layout.stripeWidth portion = 1 := by
      unfold VolumeLayout.stripeWidth Geometry.stripeWidth
      rw [if_neg (by change layout.restPebs portion % _ ≠ 0; omega)]
      change layout.restPebs portion / _ + 1 = 1
      rw [Nat.div_eq_of_lt hlt]
    have hdef : layout.stripeStart portion i =
        layout.maptbl.pebsPerPortion * portion + layout.stripeWidth portion * i := rfl
    rw [hw] at hdef
    omega

theorem chainEnd_step (hacc : layout.Accepted) {portion : Nat}
    (hbase : layout.maptbl.pebsPerPortion * portion < layout.pebsPerVolume) {rest i peb peb' : Nat}
    (hrest : i + (rest + 1) = layout.maptbl.stripesPerPortion) (hpeb : peb ≤ layout.pebsPerVolume)
    (h : chainEnd layout portion peb (List.range' i (rest + 1)) = some peb') :
    peb ≤ layout.stripeStart portion i + layout.stripeCount portion i ∧
      layout.stripeStart portion i + layout.stripeCount portion i ≤ layout.pebsPerVolume := by
  rw [List.range'_succ] at h
  unfold chainEnd at h
  split at h
  case isFalse => cases h
  case isTrue hc =>
    obtain ⟨hstart, hend⟩ := hc
    by_cases hzero : layout.stripeCount portion i = 0
    · have heq : layout.stripeStart portion i = peb := by
        refine (stripe_empty hacc hbase hpeb hzero hstart).resolve_right fun hlt => ?_
        obtain ⟨rest, rfl⟩ : ∃ r, rest = r + 1 := ⟨rest - 1, by omega⟩
        rw [List.range'_succ] at h
        unfold chainEnd at h
        split at h
        case isFalse => cases h
        case isTrue hc =>
          have hnext := hc.1
          have hw := hacc.stripeWidth_pos hbase
          have h1 : layout.stripeStart portion i =
            layout.maptbl.pebsPerPortion * portion + layout.stripeWidth portion * i := rfl
          have h2 : layout.stripeStart portion (i + 1) = layout.maptbl.pebsPerPortion * portion +
            layout.stripeWidth portion * (i + 1) := rfl
          rw [Nat.mul_succ] at h2
          omega
      omega
    · exact ⟨Nat.le_of_lt (hend.resolve_left hzero),
        Geometry.stripe_end_le_volume _ _ (Nat.pos_of_ne_zero hzero)⟩

theorem chainEnd_covers (hacc : layout.Accepted) {portion : Nat}
    (hbase : layout.maptbl.pebsPerPortion * portion < layout.pebsPerVolume) {rest i peb peb' : Nat}
    (hrest : i + rest = layout.maptbl.stripesPerPortion) (hpeb : peb ≤ layout.pebsPerVolume)
    (h : chainEnd layout portion peb (List.range' i rest) = some peb') :
    peb ≤ peb' ∧ peb' ≤ layout.pebsPerVolume ∧ ∀ x, peb ≤ x → x < peb' →
      ∃ k, k < layout.maptbl.stripesPerPortion ∧ layout.stripeStart portion k ≤ x ∧
        x < layout.stripeStart portion k + layout.stripeCount portion k := by
  induction rest generalizing i peb with
  | zero =>
    cases h
    exact ⟨Nat.le_refl _, hpeb, fun x h1 h2 => by omega⟩
  | succ rest ih =>
    obtain ⟨hge, hvol⟩ := chainEnd_step hacc hbase hrest hpeb h
    rw [List.range'_succ] at h
    unfold chainEnd at h
    split at h
    case isFalse => cases h
    case isTrue hc =>
      have hstart := hc.1
      obtain ⟨hle, hle', hcov⟩ := ih (by omega) hvol h
      refine ⟨by omega, hle', fun x h1 h2 => ?_⟩
      by_cases hx : x < layout.stripeStart portion i + layout.stripeCount portion i
      · exact ⟨i, by omega, by omega, hx⟩
      · exact hcov x (by omega) h2

end Ssdfs
