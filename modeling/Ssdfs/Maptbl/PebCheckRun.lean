import Ssdfs.Lib.Blocks
import Ssdfs.Maptbl.PebCheck

namespace Ssdfs

open Memory

def startPebAt (m : Bytes) (hdr : Nat) : Nat :=
  (Wire.u64.read m (hdr + PebTblHdr.startPebOffset)).toNat

def pebsCountAt (m : Bytes) (hdr : Nat) : Nat :=
  (Wire.u16.read m (hdr + PebTblHdr.pebsCountOffset)).toNat

def pebFragment (layout : VolumeLayout) (portion stripe : Nat) : Nat :=
  portion + layout.maptbl.lebtblPortionBytes + stripe * layout.pageSize.bytes

/-- The PEBs of a stripe, each with its own descriptor and bit. -/
def stripePebs (layout : VolumeLayout) (portion : Nat) (m : Bytes) (stripe : Nat) : List PebVisit :=
  let hdr := pebFragment layout portion stripe
  (List.range (pebsCountAt m hdr)).map fun i =>
    { offset := Word.u64 ((startPebAt m hdr + i) * layout.env.eraseSize.toNat)
      hdr
      desc := hdr + pebTableFragmentHeaderSize + i * pebDescriptorSize
      bit := i }

def portionPebs (layout : VolumeLayout) (portion : Nat) (m : Bytes) : List PebVisit :=
  (List.range layout.maptbl.stripesPerPortion).flatMap (stripePebs layout portion m)

/-- The check goes through the PEBs of the portion one after the other, once each, and does nothing
else. -/
def PortionChecked (dev : Nat → Mkfs PebCheck) (layout : VolumeLayout) (portion : Nat) (buf : Buf) :
    Prop :=
  ∃ st, checkPortionPebsValidity dev layout portion ⟨buf, []⟩ = .ok st ∧
    Checked.forEach (checkPeb dev) (portionPebs layout portion buf.data) ⟨buf, []⟩ = .ok st ∧
    st.visits = portionPebs layout portion buf.data

/-- The fragments of a portion are in the buffer and describe PEBs of the volume. -/
structure PortionFormatted (layout : VolumeLayout) (portion : Nat) (buf : Buf) : Prop where
  erase : 131072 ≤ layout.env.eraseSize.toNat
  inside : pebFragment layout portion layout.maptbl.stripesPerPortion ≤ buf.size
  count : ∀ s < layout.maptbl.stripesPerPortion,
    pebsCountAt buf.data (pebFragment layout portion s) ≤ pebDescPerFragment pageCacheSize
  range : ∀ s < layout.maptbl.stripesPerPortion,
    startPebAt buf.data (pebFragment layout portion s) +
      pebsCountAt buf.data (pebFragment layout portion s) ≤ layout.pebsPerVolume

/-- The page that the pointer is at when it has been moved on by 0, 1, ..., `s` pages. -/
def reachedPage (s : Nat) : Nat := s * (s + 1) / 2

/-- Stripe `s` gets at a fragment of the portion, and its descriptors are counted from PEB 0. -/
structure StripeReached (layout : VolumeLayout) (portion : Nat) (buf : Buf) (s : Nat) : Prop where
  inside : pebFragment layout portion (reachedPage s) + 18 ≤ buf.size
  own : 0 < pebsCountAt buf.data (pebFragment layout portion (reachedPage s)) →
    reachedPage s < layout.maptbl.stripesPerPortion ∧
      startPebAt buf.data (pebFragment layout portion (reachedPage s)) = 0

/-- Every stripe gets at a fragment that it can update, and every fragment with PEBs is reached. -/
structure StripesReached (layout : VolumeLayout) (portion : Nat) (buf : Buf) : Prop where
  stripes : ∀ s < layout.maptbl.stripesPerPortion, StripeReached layout portion buf s
  fragments : ∀ s < layout.maptbl.stripesPerPortion,
    0 < pebsCountAt buf.data (pebFragment layout portion s) → s ∈ Set.range reachedPage

theorem reachedPage_succ (s : Nat) : reachedPage (s + 1) = reachedPage s + (s + 1) := by
  unfold reachedPage
  have hmul : (s + 1) * (s + 1 + 1) = s * (s + 1) + 2 * (s + 1) := by
    rw [← Nat.add_mul, Nat.mul_comm]
  rw [hmul, Nat.add_mul_div_left _ _ (by decide)]

theorem reachedPage_strictMono : StrictMono reachedPage :=
  strictMono_nat_of_lt_succ fun s => by rw [reachedPage_succ]; omega

section

variable {dev : Nat → Mkfs PebCheck} {layout : VolumeLayout} {portion pebSize hdr p q s k x : Nat}
  {buf : Buf} {st st' : PebChecks} {visits : List PebVisit} {visit : PebVisit}

theorem pebFragment_inj (h : pebFragment layout portion p = pebFragment layout portion q) : p = q := by
  have hpage := layout.pageSize.bytes_ge
  unfold pebFragment at h
  exact Nat.eq_of_mul_eq_mul_right (Nat.lt_of_lt_of_le (by decide) hpage) (Nat.add_left_cancel h)

def PebNumbers (layout : VolumeLayout) (portion x : Nat) : Prop :=
  ∃ q, pebFragment layout portion q + 8 ≤ x ∧ x < pebFragment layout portion q + 18

theorem pebNumbers_eq {b : Buf} (h : buf.Keeps (PebNumbers layout portion) b) (q : Nat) :
    Wire.u64.read b.data (pebFragment layout portion q + PebTblHdr.startPebOffset) =
        Wire.u64.read buf.data (pebFragment layout portion q + PebTblHdr.startPebOffset) ∧
      Wire.u16.read b.data (pebFragment layout portion q + PebTblHdr.pebsCountOffset) =
        Wire.u16.read buf.data (pebFragment layout portion q + PebTblHdr.pebsCountOffset) := by
  constructor
  · refine Wire.u64.read_congr fun i hi => h.data _ ⟨q, ?_⟩
    have hi : i < 8 := hi
    unfold PebTblHdr.startPebOffset
    omega
  · refine Wire.u16.read_congr fun i hi => h.data _ ⟨q, ?_⟩
    have hi : i < 2 := hi
    unfold PebTblHdr.pebsCountOffset
    omega

theorem mem_stripePebs : visit ∈ stripePebs layout portion buf.data s ↔
    ∃ i < pebsCountAt buf.data (pebFragment layout portion s),
      { offset := Word.u64 ((startPebAt buf.data (pebFragment layout portion s) + i) *
          layout.env.eraseSize.toNat)
        hdr := pebFragment layout portion s
        desc := pebFragment layout portion s + pebTableFragmentHeaderSize + i * pebDescriptorSize
        bit := i } = visit := by
  unfold stripePebs
  simp only [List.mem_map, List.mem_range]

theorem mem_portionPebs : visit ∈ portionPebs layout portion buf.data ↔
    ∃ s < layout.maptbl.stripesPerPortion, visit ∈ stripePebs layout portion buf.data s := by
  unfold portionPebs
  simp only [List.mem_flatMap, List.mem_range]

theorem PortionFormatted.checkPeb_keeps (h : PortionFormatted layout portion buf)
    (hdev : ∀ offset, ∃ res, dev offset = .ok res) (hvisit : visit ∈ portionPebs layout portion buf.data)
    (hkeeps : buf.Keeps (PebNumbers layout portion) st.buf) :
    ∃ st', checkPeb dev visit st = .ok st' ∧ buf.Keeps (PebNumbers layout portion) st'.buf := by
  obtain ⟨s, hs, hvisit⟩ := mem_portionPebs.1 hvisit
  obtain ⟨i, hi, rfl⟩ := mem_stripePebs.1 hvisit
  have hpage := layout.pageSize.bytes_ge
  have hcount := h.count s hs
  rw [pebDescPerFragment_page] at hcount
  have hinside := h.inside
  have hstripe := Nat.mul_le_mul_right layout.pageSize.bytes (Nat.succ_le_of_lt hs)
  rw [Nat.succ_mul] at hstripe
  have hnumbers : ∀ x, PebNumbers layout portion x →
      x < pebFragment layout portion s + 18 ∧ pebFragment layout portion s + 8 ≤ x ∨
      x < pebFragment layout portion s ∨ pebFragment layout portion s + 4096 ≤ x := by
    rintro x ⟨q, hlo, hhi⟩
    rcases Nat.lt_trichotomy q s with hlt | rfl | hlt
    · have hmul := Nat.mul_le_mul_right layout.pageSize.bytes (Nat.succ_le_of_lt hlt)
      rw [Nat.succ_mul] at hmul
      unfold pebFragment at hlo hhi ⊢
      omega
    · exact .inl ⟨hhi, hlo⟩
    · have hmul := Nat.mul_le_mul_right layout.pageSize.bytes (Nat.succ_le_of_lt hlt)
      rw [Nat.succ_mul] at hmul
      unfold pebFragment at hlo hhi ⊢
      omega
  have hsize : pebFragment layout portion s + 4096 ≤ st.buf.size := by
    rw [hkeeps.size]
    unfold pebFragment at hinside ⊢
    omega
  obtain ⟨res, hres⟩ := hdev (Word.u64 ((startPebAt buf.data (pebFragment layout portion s) + i) *
    layout.env.eraseSize.toNat))
  obtain ⟨b, hb, hkeeps'⟩ := @recordPeb_keeps (PebNumbers layout portion) st.buf
    { offset := Word.u64 ((startPebAt buf.data (pebFragment layout portion s) + i) *
        layout.env.eraseSize.toNat)
      hdr := pebFragment layout portion s
      desc := pebFragment layout portion s + pebTableFragmentHeaderSize + i * pebDescriptorSize
      bit := i } res (by simp only; omega)
    (by simp only [pebTableFragmentHeaderSize]; omega)
    (by simp only [pebTableFragmentHeaderSize, pebDescriptorSize]; omega)
    (fun x hx => by have := hnumbers x hx; simp only; omega)
    (fun x hx => by
      have := hnumbers x hx
      simp only [pebTableFragmentHeaderSize, pebDescriptorSize]
      omega)
  exact ⟨_, Checked.bind_eq_ok.2 ⟨res, hres, Checked.bind_eq_ok.2 ⟨b, hb, rfl⟩⟩, hkeeps.trans hkeeps'⟩

theorem PortionFormatted.forEach_keeps (h : PortionFormatted layout portion buf)
    (hdev : ∀ offset, ∃ res, dev offset = .ok res)
    (hvisits : ∀ visit ∈ visits, visit ∈ portionPebs layout portion buf.data)
    (hkeeps : buf.Keeps (PebNumbers layout portion) st.buf) :
    ∃ st', Checked.forEach (checkPeb dev) visits st = .ok st' ∧
      buf.Keeps (PebNumbers layout portion) st'.buf :=
  Checked.forEach_ok (fun _ (t : PebChecks) => buf.Keeps (PebNumbers layout portion) t.buf) hkeeps
    fun es visit bs t (heq : [] ++ visits = es ++ visit :: bs) ht => h.checkPeb_keeps hdev
      (hvisits visit (by
        rw [List.nil_append] at heq
        rw [heq]
        exact List.mem_append_right es List.mem_cons_self)) ht

/-- What the loop over a fragment does in round `i`. -/
def reachedPeb (pebSize : Nat) (m : Bytes) (pebtbl i : Nat) : PebVisit where
  offset := Word.u64 (Word.u64 (startPebAt m pebtbl + i) * pebSize)
  hdr := pebtbl
  desc := pebtbl + pebTableFragmentHeaderSize +
    Word.u64 (Word.u64 (startPebAt m pebtbl + i) * pebDescriptorSize)
  bit := i

def reachedPebs (pebSize : Nat) (m : Bytes) (pebtbl : Nat) : List PebVisit :=
  (List.range (pebsCountAt m pebtbl)).map (reachedPeb pebSize m pebtbl)

theorem checkFragmentPebs_eq_ok : checkFragmentPebs dev pebSize hdr st = .ok st' ↔
    hdr + 18 ≤ st.buf.size ∧
      Checked.forEach (checkPeb dev) (reachedPebs pebSize st.buf.data hdr) st = .ok st' := by
  unfold checkFragmentPebs reachedPebs
  rw [Checked.forEach_map, Checked.forEach_range]
  constructor
  · intro h
    obtain ⟨count, hcount, h⟩ := Checked.bind_eq_ok.1 h
    obtain ⟨start, hstart, h⟩ := Checked.bind_eq_ok.1 h
    obtain ⟨hfit, rfl⟩ := Buf.get_eq_ok.1 hcount
    obtain ⟨-, rfl⟩ := Buf.get_eq_ok.1 hstart
    exact ⟨hfit, h⟩
  · rintro ⟨hfit, h⟩
    have hcount : hdr + PebTblHdr.pebsCountOffset + Wire.u16.size ≤ st.buf.size := hfit
    have hstart : hdr + PebTblHdr.startPebOffset + Wire.u64.size ≤ st.buf.size := by
      change hdr + 8 + 8 ≤ st.buf.size
      omega
    rw [Buf.get_ok hcount, Checked.ok_bind, Buf.get_ok hstart, Checked.ok_bind]
    exact h

theorem reachedPebs_of_keeps {b : Buf} (h : buf.Keeps (PebNumbers layout portion) b) (q : Nat) :
    reachedPebs pebSize b.data (pebFragment layout portion q) =
      reachedPebs pebSize buf.data (pebFragment layout portion q) := by
  obtain ⟨hstart, hcount⟩ := pebNumbers_eq h q
  unfold reachedPebs reachedPeb startPebAt pebsCountAt
  rw [hstart, hcount]

theorem PortionFormatted.reachedPebs_eq (h : PortionFormatted layout portion buf)
    (hreached : StripeReached layout portion buf s) :
    reachedPebs layout.env.eraseSize.toNat buf.data (pebFragment layout portion (reachedPage s)) =
      stripePebs layout portion buf.data (reachedPage s) := by
  unfold reachedPebs stripePebs
  refine List.map_congr_left fun i hi => ?_
  have hi := List.mem_range.1 hi
  obtain ⟨hown, hstart⟩ := hreached.own (by omega)
  have hcount := h.count _ hown
  rw [pebDescPerFragment_page] at hcount
  unfold reachedPeb
  rw [hstart, Nat.zero_add, Word.u64_of_lt (n := i) (by omega),
    Word.u64_of_lt (n := i * pebDescriptorSize) (by unfold pebDescriptorSize; omega)]

theorem StripeReached.portionPebs (h : StripeReached layout portion buf s)
    (hvisit : visit ∈ stripePebs layout portion buf.data (reachedPage s)) :
    visit ∈ portionPebs layout portion buf.data := by
  obtain ⟨i, hi, -⟩ := mem_stripePebs.1 hvisit
  exact mem_portionPebs.2 ⟨_, (h.own (by omega)).1, hvisit⟩

/-- The first `k` stripes have got at their fragments; the pointer is where the last one left it. -/
structure StripesDone (dev : Nat → Mkfs PebCheck) (layout : VolumeLayout) (portion : Nat) (buf : Buf)
    (k : Nat) (t : Nat × PebChecks) : Prop where
  place : t.1 + k * layout.pageSize.bytes = pebFragment layout portion (reachedPage k)
  keeps : buf.Keeps (PebNumbers layout portion) t.2.buf
  run : Checked.forEach (checkPeb dev)
    ((List.range k).flatMap fun s => stripePebs layout portion buf.data (reachedPage s)) ⟨buf, []⟩ =
      .ok t.2
  reached : ∀ s < k, StripeReached layout portion buf s

theorem StripesDone.init : StripesDone dev layout portion buf 0
    (portion + layout.maptbl.lebtblPortionBytes, ⟨buf, []⟩) where
  place := by unfold pebFragment reachedPage; omega
  keeps := Buf.Keeps.refl _ _
  run := rfl
  reached s hs := absurd hs (Nat.not_lt_zero s)

theorem StripesDone.step {t : Nat × PebChecks} (h : StripesDone dev layout portion buf k t)
    (hformatted : PortionFormatted layout portion buf) (hdev : ∀ offset, ∃ res, dev offset = .ok res)
    (hreached : StripeReached layout portion buf k) :
    ∃ st', checkFragmentPebs dev layout.env.eraseSize.toNat (t.1 + k * layout.pageSize.bytes) t.2 =
        .ok st' ∧ StripesDone dev layout portion buf (k + 1) (t.1 + k * layout.pageSize.bytes, st') := by
  obtain ⟨st', hrun, hkeeps⟩ := @PortionFormatted.forEach_keeps dev layout portion buf t.2
    (stripePebs layout portion buf.data (reachedPage k)) hformatted hdev
    (fun visit hvisit => hreached.portionPebs hvisit) h.keeps
  refine ⟨st', ?_, ?_, hkeeps, ?_, fun s hs => ?_⟩
  · rw [h.place, checkFragmentPebs_eq_ok, reachedPebs_of_keeps h.keeps, hformatted.reachedPebs_eq hreached,
      h.keeps.size]
    exact ⟨hreached.inside, hrun⟩
  · rw [h.place, reachedPage_succ]
    unfold pebFragment
    rw [Nat.add_mul (reachedPage k), Nat.add_assoc]
  · rw [List.range_succ, List.flatMap_append, List.flatMap_singleton, Checked.forEach_append, h.run]
    exact hrun
  · rcases Nat.lt_succ_iff_lt_or_eq.1 hs with hlt | rfl
    · exact h.reached s hlt
    · exact hreached

theorem PortionFormatted.start_lt (h : PortionFormatted layout portion buf)
    (hs : s < layout.maptbl.stripesPerPortion) :
    startPebAt buf.data (pebFragment layout portion s) * 8 < 18446744073709551616 := by
  have hrange := h.range s hs
  have hvolume : layout.pebsPerVolume ≤ layout.env.fsSize.toNat / 131072 :=
    Nat.div_le_div_left h.erase (by decide)
  have hfs := layout.env.fsSize.toNat_lt
  omega

theorem StripesDone.strays {t : Nat × PebChecks} {st' : PebChecks}
    (h : StripesDone dev layout portion buf k t) (hformatted : PortionFormatted layout portion buf)
    (hnot : ¬StripeReached layout portion buf k)
    (hok : checkFragmentPebs dev layout.env.eraseSize.toNat (t.1 + k * layout.pageSize.bytes) t.2 =
      .ok st') : ∃ visit ∈ st'.visits, visit ∉ portionPebs layout portion buf.data := by
  rw [h.place, checkFragmentPebs_eq_ok, reachedPebs_of_keeps h.keeps, h.keeps.size] at hok
  obtain ⟨hinside, hrun⟩ := hok
  have hpebs : 0 < pebsCountAt buf.data (pebFragment layout portion (reachedPage k)) := by
    by_contra hnone
    exact hnot ⟨hinside, fun hpos => absurd hpos hnone⟩
  refine ⟨reachedPeb layout.env.eraseSize.toNat buf.data
    (pebFragment layout portion (reachedPage k)) 0, ?_, fun hmem => hnot ⟨hinside, fun _ => ?_⟩⟩
  · rw [forEach_checkPeb_visits hrun]
    exact List.mem_append_right _ (List.mem_map.2 ⟨0, List.mem_range.2 hpebs, rfl⟩)
  · obtain ⟨s, hs, hmem⟩ := mem_portionPebs.1 hmem
    obtain ⟨i, -, heq⟩ := mem_stripePebs.1 hmem
    simp only [reachedPeb, PebVisit.mk.injEq] at heq
    obtain ⟨-, hhdr, hdesc, rfl⟩ := heq
    obtain rfl := pebFragment_inj hhdr
    refine ⟨hs, ?_⟩
    have hlt := hformatted.start_lt hs
    rw [Nat.add_zero, Word.u64_of_lt (n := startPebAt buf.data _) (by omega), Nat.zero_mul, Nat.add_zero,
      Word.u64_of_lt (by unfold pebDescriptorSize; omega)] at hdesc
    unfold pebDescriptorSize at hdesc
    omega

theorem checkFragmentPebs_mem {st' : PebChecks} (h : checkFragmentPebs dev pebSize hdr st = .ok st')
    (hvisit : visit ∈ st.visits) : visit ∈ st'.visits := by
  rw [forEach_checkPeb_visits (checkFragmentPebs_eq_ok.1 h).2]
  exact List.mem_append_left _ hvisit

theorem checkPortionPebsValidity_eq_ok : checkPortionPebsValidity dev layout portion st = .ok st' ↔
    ∃ pebtbl, Checked.forRange layout.maptbl.stripesPerPortion (fun stripeId (t : Nat × PebChecks) => do
      let st ← checkFragmentPebs dev layout.env.eraseSize.toNat
        (t.1 + stripeId * layout.pageSize.bytes) t.2
      .ok (t.1 + stripeId * layout.pageSize.bytes, st))
      (portion + layout.maptbl.lebtblPortionBytes, st) = .ok (pebtbl, st') := by
  unfold checkPortionPebsValidity
  constructor
  · intro h
    obtain ⟨⟨pebtbl, t⟩, hloop, h⟩ := Checked.bind_eq_ok.1 h
    cases h
    exact ⟨pebtbl, hloop⟩
  · rintro ⟨pebtbl, hloop⟩
    exact Checked.bind_eq_ok.2 ⟨_, hloop, rfl⟩

theorem PortionChecked.stripesReached (hformatted : PortionFormatted layout portion buf)
    (hdev : ∀ offset, ∃ res, dev offset = .ok res) (h : PortionChecked dev layout portion buf) :
    StripesReached layout portion buf := by
  obtain ⟨st, hrun, -, hvisits⟩ := h
  obtain ⟨pebtbl, hloop⟩ := checkPortionPebsValidity_eq_ok.1 hrun
  have hdone : StripesDone dev layout portion buf layout.maptbl.stripesPerPortion (pebtbl, st) := by
    refine (Checked.forRange_ind (fun k (t : Nat × PebChecks) => StripesDone dev layout portion buf k t ∨
      ∃ visit ∈ t.2.visits, visit ∉ portionPebs layout portion buf.data) hloop (.inl .init)
      fun k hk t t' ht hstep => ?_).resolve_right ?_
    · obtain ⟨st', hfragment, hstep⟩ := Checked.bind_eq_ok.1 hstep
      cases hstep
      rcases ht with hdone | ⟨visit, hmem, hnot⟩
      · by_cases hreached : StripeReached layout portion buf k
        · obtain ⟨st'', hsame, hnext⟩ := hdone.step hformatted hdev hreached
          obtain rfl := Except.ok.inj (hfragment.symm.trans hsame)
          exact .inl hnext
        · exact .inr (hdone.strays hformatted hreached hfragment)
      · exact .inr ⟨visit, checkFragmentPebs_mem hfragment hmem, hnot⟩
    · rintro ⟨visit, hmem, hnot⟩
      exact hnot (hvisits ▸ hmem)
  refine ⟨hdone.reached, fun s hs hpos => ?_⟩
  have hall := forEach_checkPeb_visits hdone.run
  rw [hvisits, List.nil_append] at hall
  have hmem := mem_portionPebs.2 ⟨s, hs, mem_stripePebs.2 ⟨0, hpos, rfl⟩⟩
  rw [hall, List.mem_flatMap] at hmem
  obtain ⟨r, -, hmem⟩ := hmem
  obtain ⟨i, -, heq⟩ := mem_stripePebs.1 hmem
  exact ⟨r, pebFragment_inj (congrArg PebVisit.hdr heq)⟩

theorem StripesReached.portionChecked (h : StripesReached layout portion buf)
    (hformatted : PortionFormatted layout portion buf) (hdev : ∀ offset, ∃ res, dev offset = .ok res) :
    PortionChecked dev layout portion buf := by
  obtain ⟨⟨pebtbl, st⟩, hloop, hdone⟩ := Checked.forRange_ok (fun k (t : Nat × PebChecks) =>
    StripesDone dev layout portion buf k t) StripesDone.init fun k hk t ht => by
      obtain ⟨st', hfragment, hnext⟩ := ht.step hformatted hdev (h.stripes k hk)
      exact ⟨_, Checked.bind_eq_ok.2 ⟨st', hfragment, rfl⟩, hnext⟩
  have hnone : ∀ s, ¬0 < pebsCountAt buf.data (pebFragment layout portion s) →
      stripePebs layout portion buf.data s = [] := fun s hnot =>
    List.eq_nil_iff_forall_not_mem.2 fun visit hmem => by
      obtain ⟨i, hi, -⟩ := mem_stripePebs.1 hmem
      exact hnot (Nat.zero_lt_of_lt hi)
  have hblocks : (List.range layout.maptbl.stripesPerPortion).flatMap
      (fun s => stripePebs layout portion buf.data (reachedPage s)) =
        portionPebs layout portion buf.data :=
    Blocks.flatMap_of_strictMono reachedPage_strictMono
      (fun s hs hskip => hnone s fun hpos => hskip (h.fragments s hs hpos))
      fun s hs hout => hnone _ fun hpos => Nat.not_lt.2 hout ((h.stripes s hs).own hpos).1
  have hrun := hdone.run
  rw [hblocks] at hrun
  exact ⟨st, checkPortionPebsValidity_eq_ok.2 ⟨pebtbl, hloop⟩, hrun, forEach_checkPeb_visits hrun⟩

/-- A portion is checked as it describes its PEBs exactly if the stripes get at their fragments. -/
theorem checkPortionPebsValidity_iff (hformatted : PortionFormatted layout portion buf)
    (hdev : ∀ offset, ∃ res, dev offset = .ok res) :
    PortionChecked dev layout portion buf ↔ StripesReached layout portion buf :=
  ⟨fun h => h.stripesReached hformatted hdev, fun h => h.portionChecked hformatted hdev⟩

end

def flashStripes : VolumeLayout where
  needEraseDevice := false
  segSize := 1048576
  pageSize := .kib4
  nandDiesCount := 1
  lebsPerPebIndex := 1
  segbmap := ⟨false, 8⟩
  maptbl := ⟨false, 2, 1, 10, 1, 4096, 1, 8192, 2, 16, 16, 32, 12288⟩
  env := ⟨67108864, 131072, .mtd⟩

/-- The second fragment behind the page of the LEB table begins with PEB 1. -/
def twoFragments (count₀ count₁ : UInt8) : Buf where
  size := 12288
  data
    | 4112 => count₀
    | 8200 => 1
    | 8208 => count₁
    | _ => 0

def secondBad (offset : Nat) : Mkfs PebCheck :=
  if offset = 131072 then .ok .isBad else .ok .erasureOk

theorem secondBad_ok (offset : Nat) : ∃ res, secondBad offset = .ok res := by
  unfold secondBad
  split
  · exact ⟨_, rfl⟩
  · exact ⟨_, rfl⟩

theorem checkPortionPebsValidity_first2 : PortionChecked secondBad flashStripes 0 (twoFragments 2 0) :=
  have hstripes : ∀ s < 2, StripeReached flashStripes 0 (twoFragments 2 0) s := fun s hs => by
    rcases Nat.le_one_iff_eq_zero_or_eq_one.1 (Nat.le_of_lt_succ hs) with rfl | rfl
    · exact ⟨by decide, by decide⟩
    · exact ⟨by decide, by decide⟩
  (checkPortionPebsValidity_iff ⟨by decide, by decide, by decide, by decide⟩ secondBad_ok).2
    ⟨hstripes, fun s hs hpos => by
      rcases Nat.le_one_iff_eq_zero_or_eq_one.1 (Nat.le_of_lt_succ hs) with rfl | rfl
      · exact ⟨0, rfl⟩
      · exact absurd hpos (by decide)⟩

/-- PEB 1 has the first descriptor of the second fragment, but the answer for it goes into the second
one. -/
theorem checkPortionPebsValidity_strays_1 :
    ¬PortionChecked secondBad flashStripes 0 (twoFragments 1 1) := by
  rintro ⟨st, hrun, -, hvisits⟩
  have hreached : (checkPortionPebsValidity secondBad flashStripes 0 ⟨twoFragments 1 1, []⟩).map
      (fun st => st.visits.map PebVisit.desc) = .ok [4096 + 288, 8192 + 288 + 8] := rfl
  have hown : (portionPebs flashStripes 0 (twoFragments 1 1).data).map PebVisit.desc =
      [4096 + 288, 8192 + 288] := rfl
  rw [hrun] at hreached
  have hdesc : st.visits.map PebVisit.desc = _ := Except.ok.inj hreached
  rw [hvisits, hown] at hdesc
  exact absurd hdesc (by decide)

end Ssdfs
