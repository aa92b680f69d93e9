import Ssdfs.Maptbl.Coverage
import Ssdfs.Maptbl.Map

namespace Ssdfs

structure LebTableFragment.SameHeader (a b : LebTableFragment) : Prop where
  magic : a.magic = b.magic
  startLeb : a.startLeb = b.startLeb
  lebsCount : a.lebsCount = b.lebsCount
  migratingLebs : a.migratingLebs = b.migratingLebs
  bytesCount : a.bytesCount = b.bytesCount

structure PebTableFragment.SameHeader (a b : PebTableFragment) : Prop where
  magic : a.magic = b.magic
  startPeb : a.startPeb = b.startPeb
  pebsCount : a.pebsCount = b.pebsCount
  lastSelectedPeb : a.lastSelectedPeb = b.lastSelectedPeb
  bytesCount : a.bytesCount = b.bytesCount

theorem LebTableFragment.SameHeader.trans {a b c : LebTableFragment} (h : a.SameHeader b)
    (h' : b.SameHeader c) : a.SameHeader c :=
  ⟨h.1.trans h'.1, h.2.trans h'.2, h.3.trans h'.3, h.4.trans h'.4, h.5.trans h'.5⟩

theorem PebTableFragment.SameHeader.trans {a b c : PebTableFragment} (h : a.SameHeader b)
    (h' : b.SameHeader c) : a.SameHeader c :=
  ⟨h.1.trans h'.1, h.2.trans h'.2, h.3.trans h'.3, h.4.trans h'.4, h.5.trans h'.5⟩

/-- The descriptor of a PEB that the check of the volume has found bad or recovering. -/
def PebDescriptor.Bad (d : PebDescriptor) : Prop := d.state = .bad ∨ d.state = .recovering

/-- Tables that differ from the prepared ones in PEBs marked as bad or recovering, and so as
used. -/
structure Tables.Marked (prepared t : Tables) : Prop where
  lebtbl : ∀ f p, (t f p).lebtbl = (prepared f p).lebtbl
  pebtbl : ∀ f p i, ((t f p).pebtbl i).SameHeader ((prepared f p).pebtbl i)
  type : ∀ f p i j, (((t f p).pebtbl i).desc j).type = .unknown
  state : ∀ f p i j, (((t f p).pebtbl i).desc j).state = .unknown ∨
    (((t f p).pebtbl i).desc j).Bad
  used : ∀ f p i, ∀ j < ((t f p).pebtbl i).pebsCount,
    ((t f p).pebtbl i).usedBmap j = true ↔ (((t f p).pebtbl i).desc j).Bad

abbrev Tables.stripe (layout : VolumeLayout) (t : Tables) (q i : Nat) : PebTableFragment :=
  (t (q / layout.maptbl.portionsPerFragment) (q % layout.maptbl.portionsPerFragment)).pebtbl i

structure PebPos where
  fragmentIndex : Nat
  portionIndex : Nat
  stripeIndex : Nat
  itemIndex : Nat
  deriving Repr, DecidableEq

def Tables.pebFragment (t : Tables) (pos : PebPos) : PebTableFragment :=
  (t pos.fragmentIndex pos.portionIndex).pebtbl pos.stripeIndex

def Tables.pebAt (t : Tables) (pos : PebPos) : Nat :=
  (t.pebFragment pos).startPeb + pos.itemIndex

def decodeLeb (layout : VolumeLayout) (t : Tables) (leb : Nat) : Mkfs PebPos := do
  let slot ← getLebtblFragment layout leb
  let physicalIndex := ((t.lebFragment slot).desc slot.lebDescIndex).physicalIndex
  .ok ⟨slot.fragmentIndex, slot.portionIndex,
    physicalIndex / pebDescPerFragment pageCacheSize,
    physicalIndex % pebDescPerFragment pageCacheSize⟩

def lookedUpIn (layout : VolumeLayout) (f p m leb : Nat) : Bool :=
  match getLebtblFragment layout leb with
  | .ok slot => slot.fragmentIndex = f ∧ slot.portionIndex = p ∧ slot.mempageIndex = m
  | .error _ => false

structure Tables.SameHeaders (prepared t : Tables) : Prop where
  lebHeader : ∀ f p m, ((t f p).lebtbl m).SameHeader ((prepared f p).lebtbl m)
  pebHeader : ∀ f p i, ((t f p).pebtbl i).SameHeader ((prepared f p).pebtbl i)

/-- The tables `t₀` after mappings: the used PEBs are the bad and the mapped ones, and the bad ones
are those of `t₀`. -/
structure Tables.Taken (layout : VolumeLayout) (n : Nat) (t t₀ : Tables) : Prop
    extends (Tables.fresh layout n).SameHeaders t where
  desc : ∀ f p i j, (((t f p).pebtbl i).desc j).state = .using ∨
    ((((t f p).pebtbl i).desc j).type = .unknown ∧
      ((((t f p).pebtbl i).desc j).state = .unknown ∨ (((t f p).pebtbl i).desc j).Bad))
  used : ∀ f p i, ∀ j < ((t f p).pebtbl i).pebsCount, ((t f p).pebtbl i).usedBmap j = true ↔
    (((t f p).pebtbl i).desc j).Bad ∨ (((t f p).pebtbl i).desc j).state = .using
  bad : ∀ f p i j, (((t f p).pebtbl i).desc j).Bad ∨ (((t₀ f p).pebtbl i).desc j).Bad →
    ((t f p).pebtbl i).desc j = ((t₀ f p).pebtbl i).desc j

/-- The tables `t₀` after the mappings of the given pairs of a LEB and a PEB. -/
structure Tables.Mapped (layout : VolumeLayout) (n : Nat) (t t₀ : Tables)
    (calls : List (Nat × Nat)) : Prop extends Tables.Taken layout n t t₀ where
  kept : ∀ f p i j, ((((t f p).pebtbl i).desc j).state = .using ∧
      ((t f p).pebtbl i).startPeb + j ∈ calls.map Prod.snd) ∨
    ((t f p).pebtbl i).desc j = ((t₀ f p).pebtbl i).desc j
  small : ∀ c ∈ calls, c.1 < 4294967296
  decodes : ∀ c ∈ calls, ∃ pos, decodeLeb layout t c.1 = .ok pos ∧
    pos.itemIndex < (t.pebFragment pos).pebsCount ∧ t.pebAt pos = c.2 ∧
    (t.pebFragment pos).usedBmap pos.itemIndex = true
  mapped : ∀ f p m, ((t f p).lebtbl m).mappedLebs =
    (calls.filter fun c => lookedUpIn layout f p m c.1).length

section Fresh

variable {layout : VolumeLayout} {n : Nat}

theorem Tables.fresh_pebtbl {f p i j : Nat}
    (h : j < ((Tables.fresh layout n f p).pebtbl i).pebsCount) :
    p < layout.maptbl.portionsPerFragment ∧ layout.maptbl.portionsPerFragment * f + p < n ∧
      i < layout.maptbl.stripesPerPortion ∧ (Tables.fresh layout n f p).pebtbl i =
        freshPebTable layout (layout.maptbl.portionsPerFragment * f + p) i := by
  unfold Tables.fresh at h ⊢
  split at h
  case isTrue hp =>
    unfold freshPortion at h ⊢
    simp only at h ⊢
    split at h
    case isTrue hi => exact ⟨hp.1, hp.2, hi, by rw [if_pos hp]; simp only [if_pos hi]⟩
    case isFalse hi => simp [PebTableFragment.zero] at h
  case isFalse => simp [PortionTables.zero, PebTableFragment.zero] at h

theorem Tables.fresh_peb_mem {f p i j : Nat}
    (h : j < ((Tables.fresh layout n f p).pebtbl i).pebsCount) :
    ((Tables.fresh layout n f p).pebtbl i).startPeb + j ∈
      Geometry.stripeRange layout.pebsPerVolume layout.maptbl.pebsPerPortion
        layout.maptbl.stripesPerPortion (layout.maptbl.portionsPerFragment * f + p, i) := by
  obtain ⟨-, -, -, heq⟩ := Tables.fresh_pebtbl h
  rw [heq] at h ⊢
  rw [Geometry.mem_stripeRange]
  exact ⟨Nat.le_add_right _ _, Nat.add_lt_add_left h _⟩

theorem Tables.fresh_peb_lt {f p i j : Nat}
    (h : j < ((Tables.fresh layout n f p).pebtbl i).pebsCount) :
    ((Tables.fresh layout n f p).pebtbl i).startPeb + j < layout.pebsPerVolume := by
  have hmem := Geometry.mem_stripeRange.1 (Tables.fresh_peb_mem h)
  exact Nat.lt_of_lt_of_le hmem.2 (Geometry.stripe_end_le_volume _ _ (by omega))

theorem Tables.fresh_peb_inj (hacc : layout.Accepted) {f p i j f' p' i' j' : Nat}
    (h : j < ((Tables.fresh layout n f p).pebtbl i).pebsCount)
    (h' : j' < ((Tables.fresh layout n f' p').pebtbl i').pebsCount)
    (heq : ((Tables.fresh layout n f p).pebtbl i).startPeb + j =
      ((Tables.fresh layout n f' p').pebtbl i').startPeb + j') :
    (f, p, i) = (f', p', i') := by
  obtain ⟨hp, -, hi, -⟩ := Tables.fresh_pebtbl h
  obtain ⟨hp', -, hi', -⟩ := Tables.fresh_pebtbl h'
  have hmem := Tables.fresh_peb_mem h
  rw [heq] at hmem
  have hk := Geometry.stripe_disjoint hacc.stripes_pos hacc.stripes_dvd hi hi' hmem
    (Tables.fresh_peb_mem h')
  rw [Prod.mk.injEq] at hk
  obtain ⟨hk, rfl⟩ := hk
  have hf : f = f' := by
    have := congrArg (· / layout.maptbl.portionsPerFragment) hk
    simpa only [Nat.mul_add_div hacc.portions_pos, Nat.div_eq_of_lt hp, Nat.div_eq_of_lt hp',
      Nat.add_zero] using this
  subst hf
  have hpp : p = p' := by omega
  rw [hpp]

end Fresh

section Slot

variable {layout : VolumeLayout}

theorem lebtblSlot_inj (leb leb' : Nat) (h : lebtblSlot layout leb = lebtblSlot layout leb') :
    leb = leb' := by
  unfold lebtblSlot at h
  simp only [LebtblSlot.mk.injEq] at h
  obtain ⟨hf, hp, hm, hd⟩ := h
  have hportion : leb / layout.maptbl.pebsPerPortion = leb' / layout.maptbl.pebsPerPortion := by
    rw [← Nat.div_add_mod (leb / layout.maptbl.pebsPerPortion) layout.maptbl.portionsPerFragment,
      ← Nat.div_add_mod (leb' / layout.maptbl.pebsPerPortion) layout.maptbl.portionsPerFragment,
      hf, hp]
  have hrest : leb % layout.maptbl.pebsPerPortion = leb' % layout.maptbl.pebsPerPortion := by
    rw [← Nat.div_add_mod (leb % layout.maptbl.pebsPerPortion) 1016,
      ← Nat.div_add_mod (leb' % layout.maptbl.pebsPerPortion) 1016, hm, hd]
  rw [← Nat.div_add_mod leb layout.maptbl.pebsPerPortion,
    ← Nat.div_add_mod leb' layout.maptbl.pebsPerPortion, hportion, hrest]

/-- A lookup that passes the checks of its page has not wrapped. -/
theorem checkedLebtblFragment_ok (hacc : layout.Accepted) {n leb : Nat} (hn : n < 65535)
    {t : Tables} (h : (Tables.fresh layout n).SameHeaders t) {slot : LebtblSlot}
    (hslot : checkedLebtblFragment layout t leb = .ok slot) :
    leb < 4294967296 ∧ slot = lebtblSlot layout leb ∧ getLebtblFragment layout leb = .ok slot ∧
      leb < (t.lebFragment slot).startLeb + (t.lebFragment slot).lebsCount := by
  unfold checkedLebtblFragment at hslot
  obtain ⟨slot', hget, hslot⟩ := Checked.bind_eq_ok.1 hslot
  obtain ⟨-, hslot⟩ := bugOn_bind_eq_ok.1 hslot
  obtain ⟨hlo, hslot⟩ := bugOn_bind_eq_ok.1 hslot
  obtain ⟨hhi, hslot⟩ := bugOn_bind_eq_ok.1 hslot
  cases hslot
  have hhdr := h.lebHeader slot.fragmentIndex slot.portionIndex slot.mempageIndex
  have hlt := Nat.lt_of_lt_of_le (Nat.not_le.1 hhi) (Word.u64_le _)
  have hlt' := hlt
  unfold Tables.lebFragment at hlt'
  rw [hhdr.startLeb, hhdr.lebsCount] at hlt'
  have hleb := Tables.fresh_leb_lt hacc hn hlt'
  exact ⟨hleb, ((getLebtblFragment_eq_ok hacc hleb).1 hget).2, hget, hlt⟩

end Slot

theorem findUnusedPeb_ok {hdr : PebTableFragment} (h : findUnusedPeb hdr ≠ Word.u16Max) :
    findUnusedPeb hdr < hdr.pebsCount ∧ hdr.usedBmap (findUnusedPeb hdr) = false ∧
      ∀ k < findUnusedPeb hdr, hdr.usedBmap k = true := by
  have hword : 0 < bitsPerLong := by decide
  obtain ⟨hset, hclear⟩ := Bitmap.firstClear_spec hword (n := hdr.pebsCount)
  unfold findUnusedPeb at h ⊢
  simp only at h ⊢
  split at h
  case isTrue => exact absurd rfl h
  case isFalse hlt =>
    rw [if_neg hlt]
    have hlt := Nat.not_le.1 hlt
    exact ⟨hlt, hclear hlt, fun k hk => hset k (by omega)⟩

theorem checkPebtbl_ok {hdr : PebTableFragment} {j : Nat} {f : Unit → Mkfs PebTableFragment}
    {hdr' : PebTableFragment} (h : checkPebtbl hdr j >>= f = .ok hdr') :
    (j < hdr.pebsCount ∧ (hdr.desc j).state = .unknown ∧ (hdr.desc j).type = .unknown) ∧
      f () = .ok hdr' := by
  unfold checkPebtbl at h
  simp only [bind_assoc] at h
  obtain ⟨-, h⟩ := bugOn_bind_eq_ok.1 h
  obtain ⟨-, h⟩ := bugOn_bind_eq_ok.1 h
  obtain ⟨hj, h⟩ := bugOn_bind_eq_ok.1 h
  obtain ⟨-, h⟩ := bugOn_bind_eq_ok.1 h
  obtain ⟨hs, h⟩ := bugOn_bind_eq_ok.1 h
  obtain ⟨ht, h⟩ := bugOn_bind_eq_ok.1 h
  exact ⟨⟨Nat.not_le.1 hj, Classical.not_not.1 hs, Classical.not_not.1 ht⟩, h⟩

theorem definePebAsUsed_ok {hdr hdr' : PebTableFragment} {j : Nat} {metaIndex : Option MetaIndex}
    (h : definePebAsUsed j metaIndex hdr = .ok hdr') :
    j < hdr.pebsCount ∧ (hdr.desc j).state = .unknown ∧
      hdr' = hdr.use j (metaPebType metaIndex) := by
  unfold definePebAsUsed at h
  obtain ⟨-, h⟩ := bugOn_bind_eq_ok.1 h
  obtain ⟨⟨hj, hs, -⟩, h⟩ := checkPebtbl_ok h
  cases h
  exact ⟨hj, hs, rfl⟩

theorem defineLebAsMapped_ok {hdr hdr' : LebTableFragment} {d phys : Nat}
    (h : defineLebAsMapped d phys hdr = .ok hdr') :
    hdr.mappedLebs ≤ hdr.lebsCount ∧ hdr' = hdr.map d phys := by
  unfold defineLebAsMapped at h
  obtain ⟨-, h⟩ := bugOn_bind_eq_ok.1 h
  obtain ⟨-, h⟩ := bugOn_bind_eq_ok.1 h
  obtain ⟨hle, h⟩ := bugOn_bind_eq_ok.1 h
  obtain ⟨-, h⟩ := bugOn_bind_eq_ok.1 h
  obtain ⟨-, h⟩ := bugOn_bind_eq_ok.1 h
  obtain ⟨-, h⟩ := bugOn_bind_eq_ok.1 h
  cases h
  exact ⟨Nat.not_lt.1 hle, rfl⟩

section Step

variable {layout : VolumeLayout} {n : Nat} {calls : List (Nat × Nat)}
  {t₀ t t' : Tables}
  {leb peb : Nat} {metaIndex : Option MetaIndex}

/-- The tables after one mapping: a PEB descriptor and its used bit, a LEB descriptor and its
page's counter. -/
def Tables.mapAt (t : Tables) (slot : LebtblSlot) (stripe item : Nat) (type : PebType) : Tables :=
  (t.setPebtbl slot.fragmentIndex slot.portionIndex stripe
    (((t slot.fragmentIndex slot.portionIndex).pebtbl stripe).use item type)).setLebtbl
      slot.fragmentIndex slot.portionIndex slot.mempageIndex
      ((t.lebFragment slot).map slot.lebDescIndex (476 * stripe + item))

theorem Tables.SameHeaders.pebsCount_le (h : (Tables.fresh layout n).SameHeaders t)
    (hacc : layout.Accepted) (f p i : Nat) : ((t f p).pebtbl i).pebsCount ≤ 476 := by
  rw [(h.pebHeader f p i).pebsCount]
  by_contra hlt
  obtain ⟨-, -, -, heq⟩ := Tables.fresh_pebtbl (Nat.not_le.1 hlt)
  rw [heq] at hlt
  exact hlt (hacc.stripeCount_le _ _)

theorem Tables.SameHeaders.peb_lt (h : (Tables.fresh layout n).SameHeaders t) {f p i j : Nat}
    (hj : j < ((t f p).pebtbl i).pebsCount) :
    ((t f p).pebtbl i).startPeb + j < layout.pebsPerVolume := by
  rw [(h.pebHeader f p i).pebsCount] at hj
  rw [(h.pebHeader f p i).startPeb]
  exact Tables.fresh_peb_lt hj

theorem Tables.SameHeaders.lebsCount_le (h : (Tables.fresh layout n).SameHeaders t) (f p m : Nat) :
    ((t f p).lebtbl m).lebsCount ≤ 1016 := by
  rw [(h.lebHeader f p m).lebsCount]
  unfold Tables.fresh
  split
  · unfold freshPortion
    simp only
    split
    · exact Geometry.pageCount_le _ _
    · exact Nat.zero_le _
  · exact Nat.zero_le _

theorem getPebtblFragment_ok {f p i : Nat} {hdr : PebTableFragment}
    (h : getPebtblFragment layout t f p i = .ok hdr) :
    i < layout.maptbl.stripesPerPortion ∧ hdr = (t f p).pebtbl i := by
  unfold getPebtblFragment at h
  split at h
  · cases h
    exact ⟨‹_›, rfl⟩
  · cases h

theorem definePebIndexInPortion_ok {i j phys : Nat} (hi : i < 65536) (hj : j < 476)
    (h : definePebIndexInPortion i j = .ok phys) : phys = 476 * i + j ∧ phys < 65535 := by
  unfold definePebIndexInPortion at h
  rw [pebDescPerFragment_page, Word.u32_of_lt (n := 476 * i) (by omega),
    Word.u32_of_lt (by omega)] at h
  obtain ⟨hlt, h⟩ := bugOn_bind_eq_ok.1 h
  cases h
  exact ⟨rfl, Nat.not_le.1 hlt⟩

/-- What a call that maps a LEB finds and does: the first PEB of the LEB's stripe that is not
used is taken. -/
structure MapsLeb (layout : VolumeLayout) (t t' : Tables) (leb peb : Nat) (slot : LebtblSlot)
    (i j : Nat) (type : PebType) : Prop where
  leb_lt : leb < 4294967296
  slot_eq : slot = lebtblSlot layout leb
  get : getLebtblFragment layout leb = .ok slot
  described : leb < (t.lebFragment slot).startLeb + (t.lebFragment slot).lebsCount
  stripe : getStripeIndex layout (t.lebFragment slot) leb = .ok i
  counted : (t.lebFragment slot).mappedLebs ≤ 1016
  item_lt : j < 476
  index_lt : 476 * i + j < 65535
  item_mem : j < (t.pebFragment ⟨slot.fragmentIndex, slot.portionIndex, i, j⟩).pebsCount
  clear : (t.pebFragment ⟨slot.fragmentIndex, slot.portionIndex, i, j⟩).usedBmap j = false
  first : ∀ k < j,
    (t.pebFragment ⟨slot.fragmentIndex, slot.portionIndex, i, j⟩).usedBmap k = true
  peb_eq : peb = t.pebAt ⟨slot.fragmentIndex, slot.portionIndex, i, j⟩
  tables_eq : t' = t.mapAt slot i j type

theorem mapLeb2peb_ok (hacc : layout.Accepted) (hn : n < 65535)
    (h : (Tables.fresh layout n).SameHeaders t)
    (hcall : mapLeb2peb layout t leb metaIndex = .ok (t', peb)) (hpeb : peb ≠ Word.u64Max) :
    ∃ slot i j type, MapsLeb layout t t' leb peb slot i j type := by
  unfold mapLeb2peb at hcall
  obtain ⟨slot, hslot, hcall⟩ := Checked.bind_eq_ok.1 hcall
  obtain ⟨hleb, hslot, hget, hdesc⟩ := checkedLebtblFragment_ok hacc hn h hslot
  obtain ⟨i, hstripe, hcall⟩ := Checked.bind_eq_ok.1 hcall
  obtain ⟨pebtbl, hpebtbl, hcall⟩ := Checked.bind_eq_ok.1 hcall
  obtain ⟨hi, rfl⟩ := getPebtblFragment_ok hpebtbl
  obtain ⟨-, hcall⟩ := bugOn_bind_eq_ok.1 hcall
  simp only at hcall
  split at hcall
  case isTrue => cases hcall; exact absurd rfl hpeb
  case isFalse hfound =>
    obtain ⟨hj, hclear, hfirst⟩ := findUnusedPeb_ok hfound
    generalize findUnusedPeb ((t slot.fragmentIndex slot.portionIndex).pebtbl i) = j at *
    obtain ⟨pebtbl', huse, hcall⟩ := Checked.bind_eq_ok.1 hcall
    obtain ⟨-, -, rfl⟩ := definePebAsUsed_ok huse
    obtain ⟨phys, hphys, hcall⟩ := Checked.bind_eq_ok.1 hcall
    have hj476 := Nat.lt_of_lt_of_le hj (h.pebsCount_le hacc _ _ _)
    obtain ⟨rfl, hindex⟩ :=
      definePebIndexInPortion_ok (Nat.lt_trans hi hacc.stripes_lt) hj476 hphys
    obtain ⟨lebtbl, hmap, hcall⟩ := Checked.bind_eq_ok.1 hcall
    obtain ⟨hmapped, rfl⟩ := defineLebAsMapped_ok hmap
    cases hcall
    unfold Tables.lebFragment at hmapped
    rw [Tables.setPebtbl_lebtbl] at hmapped
    refine ⟨slot, i, j, metaPebType metaIndex, hleb, hslot, hget, hdesc, hstripe,
      Nat.le_trans hmapped (h.lebsCount_le _ _ _), hj476, hindex, hj, hclear, hfirst, ?_, ?_⟩
    · exact Word.u64_of_lt (Nat.lt_trans (h.peb_lt hj) layout.pebsPerVolume_lt)
    · unfold Tables.mapAt Tables.lebFragment
      rw [Tables.setPebtbl_lebtbl]

section MapAt

variable (t : Tables) (slot : LebtblSlot) (i j : Nat) (type : PebType)

theorem Tables.mapAt_lebtbl (f p m : Nat) : (t.mapAt slot i j type f p).lebtbl m =
    if (f, p, m) = (slot.fragmentIndex, slot.portionIndex, slot.mempageIndex) then
      (t.lebFragment slot).map slot.lebDescIndex (476 * i + j)
    else (t f p).lebtbl m := by
  unfold Tables.mapAt
  split
  case isTrue h => cases h; rw [Tables.setLebtbl_self]
  case isFalse h => rw [Tables.setLebtbl_of_ne _ _ _ _ _ h, Tables.setPebtbl_lebtbl]

theorem Tables.mapAt_pebtbl (f p k : Nat) : (t.mapAt slot i j type f p).pebtbl k =
    if (f, p, k) = (slot.fragmentIndex, slot.portionIndex, i) then
      ((t slot.fragmentIndex slot.portionIndex).pebtbl i).use j type
    else (t f p).pebtbl k := by
  unfold Tables.mapAt
  rw [Tables.setLebtbl_pebtbl]
  split
  case isTrue h => cases h; rw [Tables.setPebtbl_self]
  case isFalse h => rw [Tables.setPebtbl_of_ne _ _ _ _ _ h]

theorem Tables.mapAt_pebHeader (f p k : Nat) :
    ((t.mapAt slot i j type f p).pebtbl k).SameHeader ((t f p).pebtbl k) := by
  rw [Tables.mapAt_pebtbl]
  split
  case isTrue h => cases h; exact ⟨rfl, rfl, rfl, rfl, rfl⟩
  case isFalse => exact ⟨rfl, rfl, rfl, rfl, rfl⟩

theorem Tables.mapAt_lebHeader (f p m : Nat) :
    ((t.mapAt slot i j type f p).lebtbl m).SameHeader ((t f p).lebtbl m) := by
  rw [Tables.mapAt_lebtbl]
  split
  case isTrue h => cases h; exact ⟨rfl, rfl, rfl, rfl, rfl⟩
  case isFalse => exact ⟨rfl, rfl, rfl, rfl, rfl⟩

variable {t slot i j type} in
theorem Tables.SameHeaders.mapAt {prepared : Tables} (h : prepared.SameHeaders t) :
    prepared.SameHeaders (t.mapAt slot i j type) :=
  ⟨fun f p m => (t.mapAt_lebHeader slot i j type f p m).trans (h.lebHeader f p m),
    fun f p k => (t.mapAt_pebHeader slot i j type f p k).trans (h.pebHeader f p k)⟩

theorem Tables.mapAt_desc (f p k l : Nat) : ((t.mapAt slot i j type f p).pebtbl k).desc l =
    if (f, p, k, l) = (slot.fragmentIndex, slot.portionIndex, i, j) then
      { ((t f p).pebtbl k).desc l with type, state := .using }
    else ((t f p).pebtbl k).desc l := by
  rw [Tables.mapAt_pebtbl]
  by_cases hk : (f, p, k) = (slot.fragmentIndex, slot.portionIndex, i)
  · cases hk
    rw [if_pos rfl]
    by_cases hl : l = j
    · subst hl
      rw [if_pos rfl]
      exact Function.update_self _ _ _
    · rw [if_neg (by simp [hl])]
      exact Function.update_of_ne hl _ _
  · rw [if_neg hk, if_neg fun h => hk (by cases h; rfl)]

theorem Tables.mapAt_used (f p k l : Nat) : ((t.mapAt slot i j type f p).pebtbl k).usedBmap l =
    if (f, p, k, l) = (slot.fragmentIndex, slot.portionIndex, i, j) then true
    else ((t f p).pebtbl k).usedBmap l := by
  rw [Tables.mapAt_pebtbl]
  by_cases hk : (f, p, k) = (slot.fragmentIndex, slot.portionIndex, i)
  · cases hk
    rw [if_pos rfl]
    by_cases hl : l = j
    · subst hl
      rw [if_pos rfl]
      exact Function.update_self _ _ _
    · rw [if_neg (by simp [hl])]
      exact Function.update_of_ne hl _ _
  · rw [if_neg hk, if_neg fun h => hk (by cases h; rfl)]

theorem Tables.mapAt_lebDesc_of_ne {slot' : LebtblSlot} (h : slot' ≠ slot) :
    ((t.mapAt slot i j type).lebFragment slot').desc slot'.lebDescIndex =
      (t.lebFragment slot').desc slot'.lebDescIndex := by
  unfold Tables.lebFragment
  rw [Tables.mapAt_lebtbl]
  split
  case isTrue hk =>
    obtain ⟨f, p, m, d⟩ := slot
    obtain ⟨f', p', m', d'⟩ := slot'
    cases hk
    exact Function.update_of_ne (fun hd => h (by simp only at hd; rw [hd])) _ _
  case isFalse => rfl

theorem Tables.mapAt_lebDesc_self :
    ((t.mapAt slot i j type).lebFragment slot).desc slot.lebDescIndex =
      ⟨476 * i + j, Word.u16Max⟩ := by
  unfold Tables.lebFragment
  rw [Tables.mapAt_lebtbl, if_pos rfl]
  exact Function.update_self _ _ _

end MapAt

theorem decodeLeb_eq {slot : LebtblSlot} (h : getLebtblFragment layout leb = .ok slot) :
    decodeLeb layout t leb = .ok ⟨slot.fragmentIndex, slot.portionIndex,
      ((t.lebFragment slot).desc slot.lebDescIndex).physicalIndex / 476,
      ((t.lebFragment slot).desc slot.lebDescIndex).physicalIndex % 476⟩ := by
  unfold decodeLeb
  rw [h]
  rfl

theorem decodeLeb_mapAt_self {slot : LebtblSlot} (h : getLebtblFragment layout leb = .ok slot)
    {i j : Nat} (hj : j < 476) (type : PebType) :
    decodeLeb layout (t.mapAt slot i j type) leb =
      .ok ⟨slot.fragmentIndex, slot.portionIndex, i, j⟩ := by
  rw [decodeLeb_eq h, Tables.mapAt_lebDesc_self]
  simp only
  rw [Nat.mul_add_div (by decide), Nat.div_eq_of_lt hj, Nat.add_zero, Nat.mul_add_mod,
    Nat.mod_eq_of_lt hj]

theorem decodeLeb_mapAt_of_ne (hacc : layout.Accepted) {leb' : Nat} (hleb' : leb' < 4294967296)
    (hne : leb' ≠ leb) {pos : PebPos} (hpos : decodeLeb layout t leb' = .ok pos) (i j : Nat)
    (type : PebType) :
    decodeLeb layout (t.mapAt (lebtblSlot layout leb) i j type) leb' = .ok pos := by
  have hpos' := hpos
  unfold decodeLeb at hpos'
  obtain ⟨slot', hget', -⟩ := Checked.bind_eq_ok.1 hpos'
  have hslot' := ((getLebtblFragment_eq_ok hacc hleb').1 hget').2
  have hslot : slot' ≠ lebtblSlot layout leb := fun heq =>
    hne (lebtblSlot_inj _ _ (hslot'.symm.trans heq))
  rw [← hpos, decodeLeb_eq hget', decodeLeb_eq hget', Tables.mapAt_lebDesc_of_ne _ _ _ _ _ hslot]

theorem lookedUpIn_eq {slot : LebtblSlot} (h : getLebtblFragment layout leb = .ok slot)
    (f p m : Nat) : lookedUpIn layout f p m leb = true ↔
      (f, p, m) = (slot.fragmentIndex, slot.portionIndex, slot.mempageIndex) := by
  unfold lookedUpIn
  rw [h]
  simp only [decide_eq_true_eq, Prod.mk.injEq]
  exact ⟨fun ⟨hf, hp, hm⟩ => ⟨hf.symm, hp.symm, hm.symm⟩,
    fun ⟨hf, hp, hm⟩ => ⟨hf.symm, hp.symm, hm.symm⟩⟩

theorem Tables.Taken.step (h : t.Taken layout n t₀) {slot : LebtblSlot} {i j : Nat} {type : PebType}
    (hmaps : MapsLeb layout t t' leb peb slot i j type) : t'.Taken layout n t₀ := by
  obtain ⟨-, -, -, -, -, -, -, -, hcount, hclear, -, -, rfl⟩ := hmaps
  constructor
  case toSameHeaders => exact h.toSameHeaders.mapAt
  case desc =>
    intro f p k l
    rw [Tables.mapAt_desc]
    split
    · exact .inl rfl
    · exact h.desc f p k l
  case used =>
    intro f p k l hl
    rw [(t.mapAt_pebHeader slot i j type f p k).pebsCount] at hl
    rw [Tables.mapAt_desc, Tables.mapAt_used]
    split
    · simp
    · exact h.used f p k l hl
  case bad =>
    intro f p k l
    rw [Tables.mapAt_desc]
    split
    case isTrue heq =>
      cases heq
      have hgood : ¬(((t slot.fragmentIndex slot.portionIndex).pebtbl i).desc j).Bad := fun hbad => by
        rw [Tables.pebFragment, (h.used _ _ _ _ hcount).2 (.inl hbad)] at hclear
        cases hclear
      rintro (hbad | hbad)
      · rcases hbad with hs | hs <;> cases hs
      · rw [← h.bad _ _ _ _ (.inr hbad)] at hbad
        exact absurd hbad hgood
    case isFalse => exact h.bad f p k l

/-- One mapping keeps the tables' invariant. -/
theorem Tables.Mapped.step (hacc : layout.Accepted) (h : t.Mapped layout n t₀ calls)
    (hnew : leb ∉ calls.map Prod.fst) {slot : LebtblSlot} {i j : Nat} {type : PebType}
    (hmaps : MapsLeb layout t t' leb peb slot i j type) :
    t'.Mapped layout n t₀ (calls ++ [(leb, peb)]) := by
  have htaken := h.toTaken.step hmaps
  obtain ⟨hleb, hslot, hget, -, -, hmapped, hj, -, hcount, -, -, rfl, rfl⟩ := hmaps
  have hpebHdr := t.mapAt_pebHeader slot i j type
  have hlebHdr := t.mapAt_lebHeader slot i j type
  constructor
  case toTaken => exact htaken
  case kept =>
    intro f p k l
    rw [Tables.mapAt_desc, (hpebHdr f p k).startPeb, List.map_append, List.mem_append]
    split
    case isTrue heq =>
      cases heq
      exact .inl ⟨rfl, .inr (List.mem_singleton.2 rfl)⟩
    case isFalse => exact (h.kept f p k l).imp_left fun hk => ⟨hk.1, .inl hk.2⟩
  case small =>
    intro c hc
    rcases List.mem_append.1 hc with hc | hc
    · exact h.small c hc
    · cases List.mem_singleton.1 hc
      exact hleb
  case decodes =>
    intro c hc
    rcases List.mem_append.1 hc with hc | hc
    · obtain ⟨pos, hpos, hitem, hpeb, hused⟩ := h.decodes c hc
      refine ⟨pos, ?_, ?_, ?_, ?_⟩
      · have hne : c.1 ≠ leb := fun heq => hnew (List.mem_map.2 ⟨c, hc, heq⟩)
        rw [hslot]
        exact decodeLeb_mapAt_of_ne hacc (h.small c hc) hne hpos i j type
      · exact (hpebHdr pos.fragmentIndex pos.portionIndex pos.stripeIndex).pebsCount ▸ hitem
      · unfold Tables.pebAt Tables.pebFragment
        rw [(hpebHdr pos.fragmentIndex pos.portionIndex pos.stripeIndex).startPeb]
        exact hpeb
      · unfold Tables.pebFragment
        rw [Tables.mapAt_used]
        split
        · rfl
        · exact hused
    · cases List.mem_singleton.1 hc
      refine ⟨_, decodeLeb_mapAt_self hget hj type, ?_, ?_, ?_⟩
      · exact (hpebHdr slot.fragmentIndex slot.portionIndex i).pebsCount ▸ hcount
      · unfold Tables.pebAt Tables.pebFragment
        rw [(hpebHdr slot.fragmentIndex slot.portionIndex i).startPeb]
      · unfold Tables.pebFragment
        rw [Tables.mapAt_used, if_pos rfl]
  case mapped =>
    intro f p m
    rw [Tables.mapAt_lebtbl, List.filter_append, List.length_append]
    by_cases hk : (f, p, m) = (slot.fragmentIndex, slot.portionIndex, slot.mempageIndex)
    · have hlook := (lookedUpIn_eq hget f p m).2 hk
      rw [if_pos hk, ← h.mapped]
      cases hk
      simp only [List.filter_cons, hlook, if_true, List.filter_nil, List.length_singleton]
      exact Word.u16_of_lt (by omega)
    · have hlook : ¬lookedUpIn layout f p m leb = true := fun hl =>
        hk ((lookedUpIn_eq hget f p m).1 hl)
      rw [if_neg hk, ← h.mapped]
      simp only [List.filter_cons, hlook, List.filter_nil]
      rfl

theorem Tables.fresh_pebtbl_cases (f p i : Nat) : (Tables.fresh layout n f p).pebtbl i = .zero ∨
    ∃ k, (Tables.fresh layout n f p).pebtbl i = freshPebTable layout k i := by
  unfold Tables.fresh
  split
  · unfold freshPortion
    simp only
    split
    · exact .inr ⟨_, rfl⟩
    · exact .inl rfl
  · exact .inl rfl

theorem Tables.fresh_desc (f p i j : Nat) :
    ((Tables.fresh layout n f p).pebtbl i).desc j = ⟨0, .unknown, .unknown⟩ := by
  rcases Tables.fresh_pebtbl_cases (n := n) f p i with h | ⟨k, h⟩ <;>
    · rw [h]; rfl

theorem Tables.fresh_marked : (Tables.fresh layout n).Marked (Tables.fresh layout n) := by
  constructor
  case lebtbl => exact fun f p => rfl
  case pebtbl => exact fun f p i => ⟨rfl, rfl, rfl, rfl, rfl⟩
  case type => exact fun f p i j => by rw [Tables.fresh_desc]
  case state => exact fun f p i j => by rw [Tables.fresh_desc]; exact .inl rfl
  case used =>
    intro f p i j _
    rw [Tables.fresh_desc]
    rcases Tables.fresh_pebtbl_cases (n := n) f p i with h | ⟨k, h⟩ <;>
      · rw [h]
        simp [PebDescriptor.Bad, PebTableFragment.zero, freshPebTable]

theorem Tables.Marked.sameHeaders {prepared : Tables} (h : prepared.Marked t) :
    prepared.SameHeaders t :=
  ⟨fun f p m => by rw [h.lebtbl]; exact ⟨rfl, rfl, rfl, rfl, rfl⟩, h.pebtbl⟩

theorem Tables.Marked.taken (h : (Tables.fresh layout n).Marked t) : t.Taken layout n t := by
  constructor
  case toSameHeaders => exact h.sameHeaders
  case desc => exact fun f p k l => .inr ⟨h.type f p k l, h.state f p k l⟩
  case used =>
    intro f p k l hl
    rw [h.used f p k l hl]
    refine ⟨.inl, fun hor => hor.resolve_right fun hs => ?_⟩
    rcases h.state f p k l with hu | hu | hu <;> · rw [hs] at hu; cases hu
  case bad => exact fun f p k l _ => rfl

theorem Tables.Marked.mapped (h : (Tables.fresh layout n).Marked t) : t.Mapped layout n t [] := by
  constructor
  case toTaken => exact h.taken
  case kept => exact fun f p k l => .inr rfl
  case small => simp
  case decodes => simp
  case mapped =>
    intro f p m
    rw [h.lebtbl]
    unfold Tables.fresh
    split
    · unfold freshPortion
      simp only
      split <;> rfl
    · rfl

end Step

end Ssdfs
