import Ssdfs.Maptbl.MapRun
import Ssdfs.Maptbl.Walk

namespace Ssdfs

def markStripe (layout : VolumeLayout) (f p i : Nat) (st : Tables × Nat) : Mkfs (Tables × Nat) := do
  let hdr ← getPebtblFragment layout st.1 f p i
  bugOn (hdr.magic ≠ pebTableMagic)
  bugOn (st.2 < hdr.startPeb)
  if hdr.pebsCount = 0 then .ok (st.1, Word.u64 (hdr.startPeb + hdr.pebsCount))
  else do
    bugOn (st.2 ≥ Word.u64 (hdr.startPeb + hdr.pebsCount))
    let pebIndex := Word.sub64 st.2 hdr.startPeb
    bugOn (pebIndex ≥ Word.u16Max ∨ pebIndex ≥ hdr.pebsCount)
    let hdr' ← Checked.forRange (hdr.pebsCount - pebIndex)
      (fun k => definePebAsPreErased (pebIndex + k)) hdr
    .ok (st.1.setPebtbl f p i hdr', Word.u64 (hdr.startPeb + hdr.pebsCount))

def markFrom (layout : VolumeLayout) : Nat → Nat → Tables × Nat → Mkfs (Tables × Nat)
  | 0, lebId, st => if lebId < layout.pebsPerVolume then .error .fuel else .ok st
  | fuel + 1, lebId, st =>
    if lebId < layout.pebsPerVolume then do
      let slot ← checkedLebtblFragment layout st.1 lebId
      let hdr := st.1.lebFragment slot
      let stripeIndex ← getStripeIndex layout hdr lebId
      let st ← Checked.forEach (markStripe layout slot.fragmentIndex slot.portionIndex)
        (List.range' stripeIndex (layout.maptbl.stripesPerPortion - stripeIndex)) st
      markFrom layout fuel (Word.u64 (hdr.startLeb + hdr.lebsCount)) st
    else .ok st

/-- The tables, and the number of pre-erased PEBs that the layout gets, unless the volume is
to be erased. -/
def markUnallocatedPebsAsPreErased (fuel : Nat) (layout : VolumeLayout) (t : Tables)
    (a : SegsArray) : Mkfs (Tables × Option Nat) :=
  if layout.needEraseDevice then .ok (t, none)
  else if a.segsCapacity = 0 ∨ (a.segs (a.segsCapacity - 1)).pebsCapacity = 0 then .error .stray
  else do
    bugOn (a.lebAt a.lastSite ≥ layout.pebsPerVolume)
    bugOn (a.pebAt a.lastSite ≥ layout.pebsPerVolume)
    let lebId := Word.u64 (a.lebAt a.lastSite + 1)
    let unallocatedPebs := Word.sub64 layout.pebsPerVolume lebId
    let st ← markFrom layout fuel lebId (t, Word.u64 (a.pebAt a.lastSite + 1))
    .ok (st.1, some unallocatedPebs)

def PebTableFragment.preEraseRange (hdr : PebTableFragment) (lo hi : Nat) : PebTableFragment :=
  { hdr with
    desc := fun j =>
      if j < hdr.pebsCount ∧ lo ≤ hdr.startPeb + j ∧ hdr.startPeb + j < hi then
        { hdr.desc j with type := .unknown, state := .preErase }
      else hdr.desc j
    dirtyBmap := fun j =>
      if j < hdr.pebsCount ∧ lo ≤ hdr.startPeb + j ∧ hdr.startPeb + j < hi then true
      else hdr.dirtyBmap j }

def Tables.preErase (t : Tables) (lo hi : Nat) : Tables := fun f p =>
  ⟨(t f p).lebtbl, fun i => ((t f p).pebtbl i).preEraseRange lo hi⟩

structure PebTableFragment.Ready (hdr : PebTableFragment) : Prop where
  magic : hdr.magic = pebTableMagic
  last : hdr.lastSelectedPeb = 0
  bytes : hdr.bytesCount = pebTableFragmentHeaderSize + hdr.pebsCount * pebDescriptorSize

def PebDescriptor.Clear (d : PebDescriptor) : Prop := d.state = .unknown ∧ d.type = .unknown

section Fragment

variable {hdr hdr' : PebTableFragment} {lo hi : Nat}

theorem PebTableFragment.preEraseRange_of_disjoint
    (h : ∀ j < hdr.pebsCount, hdr.startPeb + j < lo ∨ hi ≤ hdr.startPeb + j) :
    hdr.preEraseRange lo hi = hdr := by
  have hno : ∀ j, ¬(j < hdr.pebsCount ∧ lo ≤ hdr.startPeb + j ∧ hdr.startPeb + j < hi) := by
    rintro j ⟨h1, h2, h3⟩
    have := h j h1
    omega
  unfold PebTableFragment.preEraseRange
  simp only [hno, if_false]

theorem PebTableFragment.preEraseRange_append {mid : Nat} (h1 : lo ≤ mid) (h2 : mid ≤ hi) :
    (hdr.preEraseRange lo mid).preEraseRange mid hi = hdr.preEraseRange lo hi := by
  unfold PebTableFragment.preEraseRange
  congr 1
  · funext j
    simp only
    by_cases hmid : hdr.startPeb + j < mid
    · rw [if_neg (by omega)]
      exact if_congr (by omega) rfl rfl
    · exact if_congr (by omega) rfl (if_neg (by omega))
  · funext j
    simp only
    by_cases hmid : hdr.startPeb + j < mid
    · rw [if_neg (by omega)]
      exact if_congr (by omega) rfl rfl
    · refine if_congr (by omega) ?_ (if_neg (by omega))
      rw [if_neg (by omega)]

theorem PebTableFragment.preErase_eq {j : Nat} (hj : j < hdr.pebsCount) :
    hdr.preErase j = hdr.preEraseRange (hdr.startPeb + j) (hdr.startPeb + j + 1) := by
  unfold PebTableFragment.preErase PebTableFragment.setDesc PebTableFragment.preEraseRange
  simp only
  congr 1
  · funext k
    by_cases hk : k = j
    · subst hk
      rw [Function.update_self, if_pos (by omega)]
    · rw [Function.update_of_ne hk, if_neg (by omega)]
  · funext k
    by_cases hk : k = j
    · subst hk
      rw [Function.update_self, if_pos (by omega)]
    · rw [Function.update_of_ne hk, if_neg (by omega)]

theorem checkPebtbl_iff {j : Nat} (hready : hdr.Ready) :
    checkPebtbl hdr j = .ok () ↔ j < hdr.pebsCount ∧ (hdr.desc j).Clear := by
  unfold checkPebtbl PebDescriptor.Clear
  simp only [bugOn_bind_eq_ok, bugOn_eq_ok, hready.magic, hready.last, hready.bytes]
  constructor
  · rintro ⟨-, h1, h2, -, h3, h4⟩
    exact ⟨by omega, Classical.not_not.1 h3, Classical.not_not.1 h4⟩
  · rintro ⟨h1, h2, h3⟩
    exact ⟨by simp, by omega, by omega, by simp, by simp [h2], by simp [h3]⟩

theorem definePebAsPreErased_iff {j : Nat} (hready : hdr.Ready) :
    definePebAsPreErased j hdr = .ok hdr' ↔ j < hdr.pebsCount ∧ (hdr.desc j).Clear ∧
      hdr' = hdr.preEraseRange (hdr.startPeb + j) (hdr.startPeb + j + 1) := by
  unfold definePebAsPreErased
  constructor
  · intro h
    obtain ⟨⟨⟩, hcheck, h⟩ := Checked.bind_eq_ok.1 h
    obtain ⟨hj, hclear⟩ := (checkPebtbl_iff hready).1 hcheck
    cases h
    exact ⟨hj, hclear, PebTableFragment.preErase_eq hj⟩
  · rintro ⟨hj, hclear, rfl⟩
    rw [(checkPebtbl_iff hready).2 ⟨hj, hclear⟩, Checked.ok_bind, PebTableFragment.preErase_eq hj]

theorem markLoop_iff (hready : hdr.Ready) {j n : Nat} (hn : j + n ≤ hdr.pebsCount) :
    Checked.forRange n (fun k => definePebAsPreErased (j + k)) hdr = .ok hdr' ↔
      (∀ k < n, (hdr.desc (j + k)).Clear) ∧
        hdr' = hdr.preEraseRange (hdr.startPeb + j) (hdr.startPeb + j + n) := by
  induction n generalizing hdr' with
  | zero =>
    rw [PebTableFragment.preEraseRange_of_disjoint (fun k _ => by omega)]
    simp [Checked.forRange, eq_comm]
  | succ n ih =>
    unfold Checked.forRange
    rw [Checked.bind_eq_ok]
    have hready' : (hdr.preEraseRange (hdr.startPeb + j) (hdr.startPeb + j + n)).Ready :=
      ⟨hready.magic, hready.last, hready.bytes⟩
    have hdesc : (hdr.preEraseRange (hdr.startPeb + j) (hdr.startPeb + j + n)).desc (j + n) =
        hdr.desc (j + n) := if_neg (by omega)
    have happ : (hdr.preEraseRange (hdr.startPeb + j) (hdr.startPeb + j + n)).preEraseRange
        (hdr.startPeb + (j + n)) (hdr.startPeb + (j + n) + 1) =
          hdr.preEraseRange (hdr.startPeb + j) (hdr.startPeb + j + (n + 1)) := by
      rw [← Nat.add_assoc, PebTableFragment.preEraseRange_append (by omega) (by omega)]
      rfl
    constructor
    · rintro ⟨mid, hmid, hlast⟩
      obtain ⟨hclear, rfl⟩ := (ih (by omega)).1 hmid
      obtain ⟨-, hclear', rfl⟩ := (definePebAsPreErased_iff hready').1 hlast
      rw [hdesc] at hclear'
      refine ⟨fun k hk => ?_, happ⟩
      rcases Nat.lt_succ_iff_lt_or_eq.1 hk with hlt | rfl
      · exact hclear k hlt
      · exact hclear'
    · rintro ⟨hclear, rfl⟩
      refine ⟨_, (ih (by omega)).2 ⟨fun k hk => hclear k (by omega), rfl⟩, ?_⟩
      refine (definePebAsPreErased_iff hready').2 ⟨?_, ?_, happ.symm⟩
      · change j + n < hdr.pebsCount
        omega
      · rw [hdesc]
        exact hclear n (by omega)

end Fragment

def Tables.ClearOn (t : Tables) (lo hi : Nat) : Prop :=
  ∀ f p i j, j < ((t f p).pebtbl i).pebsCount → lo ≤ ((t f p).pebtbl i).startPeb + j →
    ((t f p).pebtbl i).startPeb + j < hi → (((t f p).pebtbl i).desc j).Clear

section Range

variable {layout : VolumeLayout} {t : Tables} {lo mid hi : Nat}

theorem Tables.preErase_of_le (h : hi ≤ lo) : t.preErase lo hi = t := by
  funext f p
  refine PortionTables.ext rfl (funext fun i => ?_)
  exact PebTableFragment.preEraseRange_of_disjoint fun j _ => by omega

theorem Tables.preErase_append (h1 : lo ≤ mid) (h2 : mid ≤ hi) :
    (t.preErase lo mid).preErase mid hi = t.preErase lo hi := by
  funext f p
  exact PortionTables.ext rfl (funext fun i => PebTableFragment.preEraseRange_append h1 h2)

theorem Tables.preErase_desc_of_not {f p i j : Nat}
    (h : ¬(lo ≤ ((t f p).pebtbl i).startPeb + j ∧ ((t f p).pebtbl i).startPeb + j < hi)) :
    ((t.preErase lo hi f p).pebtbl i).desc j = ((t f p).pebtbl i).desc j :=
  if_neg fun hc => h hc.2

theorem Tables.preErase_clearOn : (t.preErase lo mid).ClearOn mid hi ↔ t.ClearOn mid hi := by
  refine forall₄_congr fun f p i j => ?_
  refine forall_congr' fun _ => forall_congr' fun hlo => forall_congr' fun _ => ?_
  rw [Tables.preErase_desc_of_not]
  change mid ≤ ((t f p).pebtbl i).startPeb + j at hlo
  omega

theorem Tables.ClearOn.mono {lo' hi' : Nat} (h : t.ClearOn lo hi) (h1 : lo ≤ lo') (h2 : hi' ≤ hi) :
    t.ClearOn lo' hi' :=
  fun f p i j hj hlo hhi => h f p i j hj (by omega) (by omega)

theorem Tables.ClearOn.append (h1 : t.ClearOn lo mid) (h2 : t.ClearOn mid hi) :
    t.ClearOn lo hi := by
  intro f p i j hj hlo hhi
  by_cases hmid : ((t f p).pebtbl i).startPeb + j < mid
  · exact h1 f p i j hj hlo hmid
  · exact h2 f p i j hj (by omega) hhi

theorem Tables.SameHeaders.preErase {prepared : Tables} (h : prepared.SameHeaders t) (lo hi : Nat) :
    prepared.SameHeaders (t.preErase lo hi) :=
  ⟨h.lebHeader, fun f p i => by
    obtain ⟨h1, h2, h3, h4, h5⟩ := h.pebHeader f p i
    exact ⟨h1, h2, h3, h4, h5⟩⟩

end Range

section Stripe

variable {layout : VolumeLayout} {n : Nat} {t t' : Tables} {q i peb peb' : Nat}

theorem Tables.fresh_stripe (hacc : layout.Accepted) (hq : q < n)
    (hi : i < layout.maptbl.stripesPerPortion) :
    (Tables.fresh layout n).stripe layout q i = freshPebTable layout q i := by
  unfold Tables.stripe
  rw [Tables.fresh_index _ _ hacc.portions_pos, if_pos hq]
  exact if_pos hi

theorem Tables.SameHeaders.stripe_ready (hacc : layout.Accepted)
    (h : (Tables.fresh layout n).SameHeaders t) (hq : q < n)
    (hi : i < layout.maptbl.stripesPerPortion) :
    (t.stripe layout q i).Ready ∧ (t.stripe layout q i).startPeb = layout.stripeStart q i ∧
      (t.stripe layout q i).pebsCount = layout.stripeCount q i := by
  have hhdr := h.pebHeader (q / layout.maptbl.portionsPerFragment)
    (q % layout.maptbl.portionsPerFragment) i
  have hfresh := Tables.fresh_stripe hacc hq hi
  unfold Tables.stripe at hfresh ⊢
  rw [hfresh] at hhdr
  refine ⟨⟨hhdr.magic, hhdr.lastSelectedPeb, ?_⟩, hhdr.startPeb, hhdr.pebsCount⟩
  rw [hhdr.bytesCount, hhdr.pebsCount, Nat.mul_comm]
  rfl

theorem Tables.SameHeaders.stripe_key (hacc : layout.Accepted)
    (h : (Tables.fresh layout n).SameHeaders t) (hq : q < n)
    (hi : i < layout.maptbl.stripesPerPortion) {f p k j : Nat}
    (hj : j < ((t f p).pebtbl k).pebsCount)
    (hlo : layout.stripeStart q i ≤ ((t f p).pebtbl k).startPeb + j)
    (hhi : ((t f p).pebtbl k).startPeb + j < layout.stripeStart q i + layout.stripeCount q i) :
    (f, p, k) = (q / layout.maptbl.portionsPerFragment,
      q % layout.maptbl.portionsPerFragment, i) := by
  have hfresh := Tables.fresh_stripe hacc hq hi
  unfold Tables.stripe at hfresh
  have hhdr := h.pebHeader f p k
  rw [hhdr.startPeb] at hlo hhi
  rw [hhdr.pebsCount] at hj
  have hcount : ((Tables.fresh layout n f p).pebtbl k).startPeb + j - layout.stripeStart q i <
      ((Tables.fresh layout n (q / layout.maptbl.portionsPerFragment)
        (q % layout.maptbl.portionsPerFragment)).pebtbl i).pebsCount := by
    rw [hfresh]
    change _ < layout.stripeCount q i
    omega
  refine Tables.fresh_peb_inj hacc hj hcount ?_
  rw [hfresh]
  change _ = layout.stripeStart q i + _
  omega

theorem Tables.SameHeaders.setPebtbl_preErase (hacc : layout.Accepted)
    (h : (Tables.fresh layout n).SameHeaders t) (hq : q < n)
    (hi : i < layout.maptbl.stripesPerPortion) (hlo : layout.stripeStart q i ≤ peb) :
    t.setPebtbl (q / layout.maptbl.portionsPerFragment) (q % layout.maptbl.portionsPerFragment) i
        ((t.stripe layout q i).preEraseRange peb
          (layout.stripeStart q i + layout.stripeCount q i)) =
      t.preErase peb (layout.stripeStart q i + layout.stripeCount q i) := by
  funext f p
  refine PortionTables.ext (Tables.setPebtbl_lebtbl _ _ _ _ _ _ _) (funext fun k => ?_)
  by_cases hkey : (f, p, k) = (q / layout.maptbl.portionsPerFragment,
      q % layout.maptbl.portionsPerFragment, i)
  · cases hkey
    rw [Tables.setPebtbl_self]
    rfl
  · rw [Tables.setPebtbl_of_ne _ _ _ _ _ hkey]
    symm
    refine PebTableFragment.preEraseRange_of_disjoint fun j hj => ?_
    by_contra hc
    exact hkey (h.stripe_key hacc hq hi hj (by omega) (by omega))

end Stripe

end Ssdfs
