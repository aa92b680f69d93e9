import Ssdfs.Maptbl.PreErase

namespace Ssdfs

section Walk

variable {layout : VolumeLayout} {n : Nat} {t t' : Tables} {q i peb peb' : Nat}

theorem stripe_end_lt (hacc : layout.Accepted) (hn : n < 65535) (hq : q < n)
    (hi : i < layout.maptbl.stripesPerPortion) :
    layout.stripeStart q i + layout.stripeCount q i < 18446744073709551616 := by
  have hmul := hacc.mul_lt (i := q) (by omega)
  have hs := hacc.stripes_lt
  have hstride : layout.stripeWidth q * i ≤ 476 * 65536 :=
    Nat.mul_le_mul (hacc.stripeWidth_le q) (by omega)
  have hcount := hacc.stripeCount_le q i
  have hdef : layout.stripeStart q i =
      layout.maptbl.pebsPerPortion * q + layout.stripeWidth q * i := rfl
  omega

theorem Tables.SameHeaders.clearOn_iff (hacc : layout.Accepted)
    (h : (Tables.fresh layout n).SameHeaders t) (hq : q < n)
    (hi : i < layout.maptbl.stripesPerPortion) (hlo : layout.stripeStart q i ≤ peb) :
    (∀ k < layout.stripeCount q i - (peb - layout.stripeStart q i),
      ((t.stripe layout q i).desc (peb - layout.stripeStart q i + k)).Clear) ↔
        t.ClearOn peb (layout.stripeStart q i + layout.stripeCount q i) := by
  obtain ⟨-, hstart, hcount⟩ := h.stripe_ready hacc hq hi
  constructor
  · intro hclear f p k j hj hlo' hhi
    have hkey := h.stripe_key hacc hq hi hj (by omega) hhi
    cases hkey
    rw [hstart] at hlo' hhi
    have := hclear (j - (peb - layout.stripeStart q i)) (by omega)
    rwa [Nat.add_sub_cancel' (by omega)] at this
  · intro hclear k hk
    refine hclear _ _ _ _ ?_ ?_ ?_ <;> simp only [hstart, hcount] <;> omega

theorem markStripe_iff (hacc : layout.Accepted) (hn : n < 65535)
    (h : (Tables.fresh layout n).SameHeaders t) (hq : q < n)
    (hi : i < layout.maptbl.stripesPerPortion) :
    markStripe layout (q / layout.maptbl.portionsPerFragment)
        (q % layout.maptbl.portionsPerFragment) i (t, peb) = .ok (t', peb') ↔
      Enters layout q i peb ∧
      peb' = layout.stripeStart q i + layout.stripeCount q i ∧ t.ClearOn peb peb' ∧
      t' = t.preErase peb peb' := by
  obtain ⟨hready, hstart, hcount⟩ := h.stripe_ready hacc hq hi
  have hend := stripe_end_lt hacc hn hq hi
  have hle := hacc.stripeCount_le q i
  have hget : getPebtblFragment layout t (q / layout.maptbl.portionsPerFragment)
      (q % layout.maptbl.portionsPerFragment) i = .ok (t.stripe layout q i) := if_pos hi
  unfold markStripe
  simp only [hget, Checked.ok_bind, hstart, hcount, Word.u64_of_lt hend]
  rw [bugOn_of_not (by rw [hready.magic]; simp), Checked.ok_bind, bugOn_bind_eq_ok]
  by_cases hzero : layout.stripeCount q i = 0
  · rw [if_pos hzero, hzero, Nat.add_zero]
    constructor
    · rintro ⟨hlo, hok⟩
      cases hok
      exact ⟨⟨by omega, .inl hzero⟩, rfl, fun f p k j _ h1 h2 => by omega,
        (Tables.preErase_of_le (by omega)).symm⟩
    · rintro ⟨⟨hlo, -⟩, rfl, -, rfl⟩
      rw [Tables.preErase_of_le hlo]
      exact ⟨by omega, rfl⟩
  · rw [if_neg hzero, bugOn_bind_eq_ok, bugOn_bind_eq_ok]
    constructor
    · rintro ⟨hlo, hhi, hidx, hok⟩
      rw [Word.sub64_of_le (by omega) (by omega)] at hok
      obtain ⟨hdr, hloop, hok⟩ := Checked.bind_eq_ok.1 hok
      rw [← hcount] at hloop
      obtain ⟨hclear, rfl⟩ := (markLoop_iff hready (by omega)).1 hloop
      rw [hcount] at hclear
      cases hok
      refine ⟨⟨by omega, .inr (by omega)⟩, rfl,
        (h.clearOn_iff hacc hq hi (by omega)).1 hclear, ?_⟩
      rw [← h.setPebtbl_preErase hacc hq hi (by omega), hstart, hcount]
      congr 2 <;> omega
    · rintro ⟨⟨hlo, hhi⟩, rfl, hclear, rfl⟩
      have hhi' := hhi.resolve_left hzero
      rw [Word.sub64_of_le hlo (by omega)]
      refine ⟨by omega, by omega, by unfold Word.u16Max; omega, ?_⟩
      refine Checked.bind_eq_ok.2 ⟨_, (markLoop_iff hready ?_).2 ⟨?_, rfl⟩, ?_⟩
      · omega
      · exact (h.clearOn_iff hacc hq hi hlo).2 hclear
      · rw [← h.setPebtbl_preErase hacc hq hi hlo, hstart]
        congr 4 <;> omega

theorem markStripes_iff (hacc : layout.Accepted) (hn : n < 65535)
    (h : (Tables.fresh layout n).SameHeaders t) (hq : q < n)
    (hbase : layout.maptbl.pebsPerPortion * q < layout.pebsPerVolume) {rest : Nat}
    (hrest : i + rest = layout.maptbl.stripesPerPortion) (hpeb : peb ≤ layout.pebsPerVolume) :
    Checked.forEach (markStripe layout (q / layout.maptbl.portionsPerFragment)
        (q % layout.maptbl.portionsPerFragment)) (List.range' i rest) (t, peb) =
        .ok (t', peb') ↔
      chainEnd layout q peb (List.range' i rest) = some peb' ∧ t.ClearOn peb peb' ∧
        t' = t.preErase peb peb' := by
  induction rest generalizing i t peb with
  | zero =>
    constructor
    · intro hok
      cases hok
      exact ⟨rfl, fun f p k j _ h1 h2 => by omega,
        (Tables.preErase_of_le (Nat.le_refl _)).symm⟩
    · rintro ⟨hchain, -, rfl⟩
      cases hchain
      rw [Tables.preErase_of_le (Nat.le_refl _)]
      rfl
  | succ rest ih =>
    constructor
    · intro hok
      rw [List.range'_succ] at hok
      obtain ⟨⟨u, mid⟩, hfirst, hok⟩ := Checked.bind_eq_ok.1 hok
      obtain ⟨hcond, rfl, hclear, rfl⟩ := (markStripe_iff hacc hn h hq (by omega)).1 hfirst
      have hmid : layout.stripeStart q i + layout.stripeCount q i ≤ layout.pebsPerVolume := by
        by_cases hzero : layout.stripeCount q i = 0
        · have hstart := hcond.1
          omega
        · exact Geometry.stripe_end_le_volume _ _ (Nat.pos_of_ne_zero hzero)
      obtain ⟨hchain, hclear', rfl⟩ := (ih (h.preErase _ _) (by omega) hmid).1 hok
      have hchain' : chainEnd layout q peb (List.range' i (rest + 1)) = some peb' := by
        rw [List.range'_succ]
        unfold chainEnd
        rw [if_pos hcond]
        exact hchain
      obtain ⟨hle, -⟩ := chainEnd_step hacc hbase hrest hpeb hchain'
      obtain ⟨hle', -⟩ := chainEnd_covers hacc hbase (by omega) hmid hchain
      exact ⟨hchain', hclear.append (Tables.preErase_clearOn.1 hclear'),
        Tables.preErase_append hle hle'⟩
    · rintro ⟨hchain, hclear, rfl⟩
      obtain ⟨hle, hmid⟩ := chainEnd_step hacc hbase hrest hpeb hchain
      rw [List.range'_succ] at hchain ⊢
      unfold chainEnd at hchain
      split at hchain
      case isFalse => cases hchain
      case isTrue hcond =>
        obtain ⟨hle', -⟩ := chainEnd_covers hacc hbase (by omega) hmid hchain
        refine Checked.bind_eq_ok.2 ⟨(t.preErase peb _, _), (markStripe_iff hacc hn h hq
          (by omega)).2 ⟨hcond, rfl, hclear.mono (Nat.le_refl _) hle', rfl⟩, ?_⟩
        exact (ih (h.preErase _ _) (by omega) hmid).2 ⟨hchain,
          Tables.preErase_clearOn.2 (hclear.mono hle (Nat.le_refl _)),
          (Tables.preErase_append hle hle').symm⟩

abbrev pageOf (layout : VolumeLayout) (leb : Nat) : Nat :=
  layout.pageStart (leb / layout.maptbl.pebsPerPortion) (leb % layout.maptbl.pebsPerPortion / 1016)

theorem pageOf_bounds (hacc : layout.Accepted) {leb : Nat} (hleb : leb < layout.pebsPerVolume) :
    pageOf layout leb ≤ leb ∧ leb < nextPage layout leb ∧
      nextPage layout leb ≤ layout.pebsPerVolume := by
  obtain ⟨hmem, -⟩ := Geometry.mem_page_of_lt hacc.pebs_pos hleb
  obtain ⟨hlo, hhi⟩ := Geometry.mem_pageRange.1 hmem
  exact ⟨hlo, hhi, Geometry.page_end_le_volume _ _ (by omega)⟩

theorem Tables.SameHeaders.page (hacc : layout.Accepted)
    (h : (Tables.fresh layout layout.maptbl.portionsCount).SameHeaders t) {leb : Nat}
    (hleb : leb < layout.pebsPerVolume)
    (hportion : leb / layout.maptbl.pebsPerPortion < layout.maptbl.portionsCount) :
    (t.lebFragment (lebtblSlot layout leb)).magic = lebTableMagic ∧
      (t.lebFragment (lebtblSlot layout leb)).startLeb = pageOf layout leb ∧
      Word.u64 ((t.lebFragment (lebtblSlot layout leb)).startLeb +
        (t.lebFragment (lebtblSlot layout leb)).lebsCount) = nextPage layout leb := by
  obtain ⟨-, hpage, -⟩ := Geometry.mem_page_of_lt hacc.pebs_pos hleb
  obtain ⟨-, -, hend⟩ := pageOf_bounds hacc hleb
  have hhdr := h.lebHeader (lebtblSlot layout leb).fragmentIndex
    (lebtblSlot layout leb).portionIndex (lebtblSlot layout leb).mempageIndex
  simp only [lebtblSlot, Tables.fresh_index _ _ hacc.portions_pos, if_pos hportion,
    freshPortion, if_pos hpage] at hhdr
  refine ⟨hhdr.magic, hhdr.startLeb, ?_⟩
  unfold Tables.lebFragment lebtblSlot
  simp only [hhdr.startLeb, hhdr.lebsCount]
  exact Word.u64_of_lt (Nat.lt_of_le_of_lt hend layout.pebsPerVolume_lt)

theorem checkedLebtblFragment_iff (hacc : layout.Accepted)
    (hn : layout.maptbl.portionsCount < 65535)
    (h : (Tables.fresh layout layout.maptbl.portionsCount).SameHeaders t) {leb : Nat}
    (hleb : leb < layout.pebsPerVolume) {slot : LebtblSlot} :
    checkedLebtblFragment layout t leb = .ok slot ↔
      leb / layout.maptbl.pebsPerPortion < layout.maptbl.portionsCount ∧
        slot = lebtblSlot layout leb := by
  constructor
  · intro hslot
    obtain ⟨hlt, rfl, -⟩ := checkedLebtblFragment_ok hacc hn h hslot
    refine ⟨?_, rfl⟩
    unfold checkedLebtblFragment at hslot
    obtain ⟨slot, -, hslot⟩ := Checked.bind_eq_ok.1 hslot
    obtain ⟨-, hslot⟩ := bugOn_bind_eq_ok.1 hslot
    obtain ⟨-, hslot⟩ := bugOn_bind_eq_ok.1 hslot
    obtain ⟨hhi, hslot⟩ := bugOn_bind_eq_ok.1 hslot
    cases hslot
    have hhdr := h.lebHeader (lebtblSlot layout leb).fragmentIndex
      (lebtblSlot layout leb).portionIndex (lebtblSlot layout leb).mempageIndex
    unfold Tables.lebFragment at hhi
    rw [hhdr.startLeb, hhdr.lebsCount] at hhi
    by_contra hge
    simp only [lebtblSlot, Tables.fresh_index _ _ hacc.portions_pos, if_neg hge,
      PortionTables.zero, LebTableFragment.zero] at hhi
    exact hhi (Nat.zero_le _)
  · rintro ⟨hportion, rfl⟩
    have hP := hacc.pebs_lt
    have hmul : layout.maptbl.portionsCount * layout.maptbl.pebsPerPortion ≤ 65535 * 65535 :=
      Nat.mul_le_mul (by omega) (by omega)
    have hlt := (Nat.div_lt_iff_lt_mul hacc.pebs_pos).1 hportion
    have hget := (getLebtblFragment_eq_ok hacc (show leb < 4294967296 by omega)).2
      ⟨hacc.fragment_lt hportion, rfl⟩
    obtain ⟨hmagic, hstart, hnext⟩ := h.page hacc hleb hportion
    obtain ⟨hlo, hhi, -⟩ := pageOf_bounds hacc hleb
    unfold checkedLebtblFragment
    rw [hget, Checked.ok_bind]
    simp only [hnext]
    rw [bugOn_of_not (by simp [hmagic]), Checked.ok_bind, bugOn_of_not (by omega),
      Checked.ok_bind, bugOn_of_not (by omega), Checked.ok_bind]

end Walk

section Run

variable {layout : VolumeLayout} {t t' : Tables} {leb peb last : Nat}

theorem portion_base (layout : VolumeLayout) (hleb : leb < layout.pebsPerVolume) :
    layout.maptbl.pebsPerPortion * (leb / layout.maptbl.pebsPerPortion) < layout.pebsPerVolume :=
  Nat.lt_of_le_of_lt (Nat.mul_div_le _ _) hleb

theorem stripesFrom_length (hacc : layout.Accepted) (leb : Nat) :
    stripeOf layout leb + (layout.maptbl.stripesPerPortion - stripeOf layout leb) =
      layout.maptbl.stripesPerPortion :=
  Nat.add_sub_cancel' (Nat.le_of_lt (stripeOf_lt hacc leb))

theorem InStep.covers (hacc : layout.Accepted) (h : InStep layout leb peb last)
    (hpeb : peb ≤ layout.pebsPerVolume) :
    peb ≤ last ∧ last ≤ layout.pebsPerVolume ∧ ∀ x, peb ≤ x → x < last →
      ∃ q k, q < layout.maptbl.portionsCount ∧ k < layout.maptbl.stripesPerPortion ∧
        layout.stripeStart q k ≤ x ∧ x < layout.stripeStart q k + layout.stripeCount q k := by
  induction h with
  | stop => exact ⟨Nat.le_refl _, hpeb, fun x h1 h2 => by omega⟩
  | @page leb peb mid last hleb hportion hchain _ ih =>
    obtain ⟨hle, hmid, hcov⟩ := chainEnd_covers hacc (portion_base layout hleb)
      (stripesFrom_length hacc leb) hpeb hchain
    obtain ⟨hle', hlast, hcov'⟩ := ih hmid
    refine ⟨Nat.le_trans hle hle', hlast, fun x h1 h2 => ?_⟩
    by_cases hx : x < mid
    · obtain ⟨k, hk⟩ := hcov x h1 hx
      exact ⟨_, k, hportion, hk⟩
    · exact hcov' x (by omega) h2

theorem markFrom_ok (hacc : layout.Accepted) (hn : layout.maptbl.portionsCount < 65535)
    {fuel : Nat} (h : (Tables.fresh layout layout.maptbl.portionsCount).SameHeaders t)
    (hpeb : peb ≤ layout.pebsPerVolume)
    (hrun : markFrom layout fuel leb (t, peb) = .ok (t', last)) :
    InStep layout leb peb last ∧ t.ClearOn peb last ∧ t' = t.preErase peb last := by
  induction fuel generalizing leb t peb with
  | zero =>
    unfold markFrom at hrun
    split at hrun
    case isTrue => cases hrun
    case isFalse hleb =>
      cases hrun
      exact ⟨.stop (Nat.not_lt.1 hleb), fun f p i j _ h1 h2 => by omega,
        (Tables.preErase_of_le (Nat.le_refl _)).symm⟩
  | succ fuel ih =>
    unfold markFrom at hrun
    split at hrun
    case isTrue hleb =>
      obtain ⟨slot, hslot, hrun⟩ := Checked.bind_eq_ok.1 hrun
      obtain ⟨hlt, -⟩ := checkedLebtblFragment_ok hacc hn h hslot
      obtain ⟨hportion, rfl⟩ := (checkedLebtblFragment_iff hacc hn h hleb).1 hslot
      obtain ⟨-, hstart, hnext⟩ := h.page hacc hleb hportion
      simp only [getStripeIndex_ok hacc hlt hstart, Checked.ok_bind, hnext] at hrun
      obtain ⟨⟨u, mid⟩, hstripes, hrun⟩ := Checked.bind_eq_ok.1 hrun
      obtain ⟨hchain, hclear, rfl⟩ := (markStripes_iff hacc hn h hportion
        (portion_base layout hleb) (stripesFrom_length hacc leb) hpeb).1 hstripes
      obtain ⟨hle, hmid, -⟩ := chainEnd_covers hacc (portion_base layout hleb)
        (stripesFrom_length hacc leb) hpeb hchain
      obtain ⟨hstep, hclear', rfl⟩ := ih (h.preErase _ _) hmid hrun
      obtain ⟨hle', -⟩ := hstep.covers hacc hmid
      exact ⟨.page hleb hportion hchain hstep,
        hclear.append (Tables.preErase_clearOn.1 hclear'), Tables.preErase_append hle hle'⟩
    case isFalse hleb =>
      cases hrun
      exact ⟨.stop (Nat.not_lt.1 hleb), fun f p i j _ h1 h2 => by omega,
        (Tables.preErase_of_le (Nat.le_refl _)).symm⟩

theorem InStep.run (hacc : layout.Accepted) (hn : layout.maptbl.portionsCount < 65535)
    (h : (Tables.fresh layout layout.maptbl.portionsCount).SameHeaders t)
    (hpeb : peb ≤ layout.pebsPerVolume) (hstep : InStep layout leb peb last)
    (hclear : t.ClearOn peb last) :
    ∃ fuel, markFrom layout fuel leb (t, peb) = .ok (t.preErase peb last, last) := by
  induction hstep generalizing t with
  | stop hleb =>
    refine ⟨0, ?_⟩
    unfold markFrom
    rw [if_neg (Nat.not_lt.2 hleb), Tables.preErase_of_le (Nat.le_refl _)]
  | @page leb peb mid last hleb hportion hchain hstep ih =>
    obtain ⟨hle, hmid, -⟩ := chainEnd_covers hacc (portion_base layout hleb)
      (stripesFrom_length hacc leb) hpeb hchain
    obtain ⟨hle', -⟩ := hstep.covers hacc hmid
    obtain ⟨fuel, hrun⟩ := ih (h.preErase peb mid) hmid
      (Tables.preErase_clearOn.2 (hclear.mono hle (Nat.le_refl _)))
    rw [Tables.preErase_append hle hle'] at hrun
    have hslot := (checkedLebtblFragment_iff hacc hn h hleb).2 ⟨hportion, rfl⟩
    obtain ⟨hlt, -⟩ := checkedLebtblFragment_ok hacc hn h hslot
    obtain ⟨-, hstart, hnext⟩ := h.page hacc hleb hportion
    refine ⟨fuel + 1, ?_⟩
    unfold markFrom
    rw [if_pos hleb]
    simp only [hslot, getStripeIndex_ok hacc hlt hstart, Checked.ok_bind, hnext]
    refine Checked.bind_eq_ok.2 ⟨_, (markStripes_iff hacc hn h hportion
      (portion_base layout hleb) (stripesFrom_length hacc leb) hpeb).2
        ⟨hchain, hclear.mono (Nat.le_refl _) hle', rfl⟩, hrun⟩

end Run

end Ssdfs
