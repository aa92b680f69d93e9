import Mathlib.Data.Set.Card
import Mathlib.Order.Interval.Finset.Nat
import Ssdfs.Maptbl.PreEraseRun

namespace Ssdfs

def Tables.Free (t : Tables) (x : Nat) : Prop :=
  ∀ pos : PebPos, pos.itemIndex < (t.pebFragment pos).pebsCount → t.pebAt pos = x →
    ((t.pebFragment pos).desc pos.itemIndex).state ≠ .using ∧
      ((t.pebFragment pos).desc pos.itemIndex).state ≠ .bad

def Tables.PreErased (t : Tables) (x : Nat) : Prop :=
  ∃ pos : PebPos, pos.itemIndex < (t.pebFragment pos).pebsCount ∧ t.pebAt pos = x ∧
    ((t.pebFragment pos).desc pos.itemIndex).state = .preErase ∧
    (t.pebFragment pos).dirtyBmap pos.itemIndex = true

/-- Every free PEB of the volume is marked, no mapped one is touched, and the number stored
is the number of the marked ones. -/
structure PreErases (layout : VolumeLayout) (t t' : Tables) (stored : Nat) : Prop where
  all : ∀ x < layout.pebsPerVolume, t.Free x → t'.PreErased x
  untouched : ∀ pos : PebPos, ((t.pebFragment pos).desc pos.itemIndex).state = .using →
    (t'.pebFragment pos).desc pos.itemIndex = (t.pebFragment pos).desc pos.itemIndex ∧
    (t'.pebFragment pos).usedBmap pos.itemIndex = (t.pebFragment pos).usedBmap pos.itemIndex ∧
    (t'.pebFragment pos).dirtyBmap pos.itemIndex = (t.pebFragment pos).dirtyBmap pos.itemIndex
  stored_eq : stored = {x | t'.PreErased x}.ncard

section Free

variable {layout : VolumeLayout} {n : Nat} {t₀ t : Tables}

theorem Tables.Taken.state_ne_preErase (h : t.Taken layout n t₀) (f p i j : Nat) :
    (((t f p).pebtbl i).desc j).state ≠ .preErase := by
  intro hs
  rcases h.desc f p i j with hu | ⟨-, hu | hu | hu⟩ <;> · rw [hs] at hu; cases hu

theorem Tables.Taken.preErased_iff (hacc : layout.Accepted) (h : t.Taken layout n t₀)
    {lo hi : Nat} (hcov : ∀ x, lo ≤ x → x < hi → ∃ q k, q < n ∧
      k < layout.maptbl.stripesPerPortion ∧ layout.stripeStart q k ≤ x ∧
        x < layout.stripeStart q k + layout.stripeCount q k) (x : Nat) :
    (t.preErase lo hi).PreErased x ↔ lo ≤ x ∧ x < hi := by
  constructor
  · rintro ⟨pos, hitem, hat, hstate, -⟩
    by_contra hnot
    refine h.state_ne_preErase pos.fragmentIndex pos.portionIndex pos.stripeIndex pos.itemIndex ?_
    rw [← hstate]
    symm
    refine congrArg PebDescriptor.state (Tables.preErase_desc_of_not ?_)
    intro hc
    exact hnot (hat ▸ hc)
  · rintro ⟨hlo, hhi⟩
    obtain ⟨q, k, hq, hk, hstart, hend⟩ := hcov x hlo hhi
    obtain ⟨-, hstart', hcount⟩ := h.toSameHeaders.stripe_ready hacc hq hk
    have hc : x - layout.stripeStart q k < (t.stripe layout q k).pebsCount ∧
        lo ≤ (t.stripe layout q k).startPeb + (x - layout.stripeStart q k) ∧
        (t.stripe layout q k).startPeb + (x - layout.stripeStart q k) < hi := by
      rw [hstart', hcount]
      omega
    refine ⟨⟨q / layout.maptbl.portionsPerFragment, q % layout.maptbl.portionsPerFragment, k,
      x - layout.stripeStart q k⟩, hc.1, ?_, ?_, ?_⟩
    · change (t.stripe layout q k).startPeb + (x - layout.stripeStart q k) = x
      omega
    · exact congrArg PebDescriptor.state (if_pos hc)
    · exact if_pos hc

theorem ncard_preErased {lo hi : Nat} (h : ∀ x, t.PreErased x ↔ lo ≤ x ∧ x < hi) :
    {x | t.PreErased x}.ncard = hi - lo := by
  have heq : {x | t.PreErased x} = ((Finset.Ico lo hi : Finset Nat) : Set Nat) := by
    ext x
    simp [h x]
  rw [heq, Set.ncard_coe_finset, Nat.card_Ico]

theorem Tables.Taken.clear_of (h : t.Taken layout n t₀) {f p i j : Nat}
    (h1 : (((t f p).pebtbl i).desc j).state ≠ .using)
    (h2 : (((t f p).pebtbl i).desc j).state ≠ .bad)
    (h3 : (((t f p).pebtbl i).desc j).state ≠ .recovering) :
    (((t f p).pebtbl i).desc j).Clear := by
  obtain ⟨htype, hstate⟩ := (h.desc f p i j).resolve_left h1
  exact ⟨hstate.resolve_right fun hb => hb.elim h2 h3, htype⟩

theorem Tables.free_of_clearOn {lo hi x : Nat} (h : t.ClearOn lo hi) (hlo : lo ≤ x)
    (hhi : x < hi) : t.Free x := by
  rintro pos hitem rfl
  have hclear := (h _ _ _ _ hitem hlo hhi).1
  constructor <;>
    · intro hs
      change ((t.pebFragment pos).desc pos.itemIndex).state = .unknown at hclear
      rw [hs] at hclear
      cases hclear

theorem Tables.SameHeaders.pos_eq (hacc : layout.Accepted)
    (h : (Tables.fresh layout n).SameHeaders t) {pos pos' : PebPos}
    (hitem : pos.itemIndex < (t.pebFragment pos).pebsCount)
    (hitem' : pos'.itemIndex < (t.pebFragment pos').pebsCount) (heq : t.pebAt pos = t.pebAt pos') :
    pos = pos' := by
  have h₁ := h.pebHeader pos.fragmentIndex pos.portionIndex pos.stripeIndex
  have h₂ := h.pebHeader pos'.fragmentIndex pos'.portionIndex pos'.stripeIndex
  unfold Tables.pebAt at heq
  unfold Tables.pebFragment at hitem hitem' heq
  rw [h₁.startPeb, h₂.startPeb] at heq
  rw [h₁.pebsCount] at hitem
  rw [h₂.pebsCount] at hitem'
  have hkey := Tables.fresh_peb_inj hacc hitem hitem' heq
  obtain ⟨f, p, i, j⟩ := pos
  obtain ⟨f', p', i', j'⟩ := pos'
  cases hkey
  obtain rfl : j = j' := Nat.add_left_cancel heq
  rfl

theorem Tables.SameHeaders.described_or_free (h : (Tables.fresh layout n).SameHeaders t) (x : Nat) :
    (∃ q k, q < n ∧ k < layout.maptbl.stripesPerPortion ∧
      x ∈ Geometry.stripeRange layout.pebsPerVolume layout.maptbl.pebsPerPortion
        layout.maptbl.stripesPerPortion (q, k)) ∨ t.Free x := by
  by_contra hcon
  obtain ⟨hnot, hfree⟩ := not_or.1 hcon
  refine hfree fun pos hitem hat => absurd ?_ hnot
  have hhdr := h.pebHeader pos.fragmentIndex pos.portionIndex pos.stripeIndex
  unfold Tables.pebAt at hat
  unfold Tables.pebFragment at hitem hat
  rw [hhdr.pebsCount] at hitem
  rw [hhdr.startPeb] at hat
  obtain ⟨-, hq, hk, -⟩ := Tables.fresh_pebtbl hitem
  exact ⟨_, _, hq, hk, hat ▸ Tables.fresh_peb_mem hitem⟩

theorem Tables.Taken.recovering_iff (h : t.Taken layout n t₀) (f p i j : Nat) :
    (((t f p).pebtbl i).desc j).state = .recovering ↔
      (((t₀ f p).pebtbl i).desc j).state = .recovering := by
  constructor
  · intro hs
    rwa [← h.bad f p i j (.inl (.inr hs))]
  · intro hs
    rwa [h.bad f p i j (.inr (.inr hs))]

theorem Tables.Taken.free_iff (hacc : layout.Accepted) (h : t.Taken layout n t₀)
    (hrec : ∀ pos : PebPos, pos.itemIndex < (t.pebFragment pos).pebsCount →
      ((t.pebFragment pos).desc pos.itemIndex).state ≠ .recovering) {q k j : Nat} (hq : q < n)
    (hk : k < layout.maptbl.stripesPerPortion) (hj : j < layout.stripeCount q k) :
    t.Free (layout.stripeStart q k + j) ↔ (t.stripe layout q k).usedBmap j = false := by
  obtain ⟨-, hstart, hcount⟩ := h.toSameHeaders.stripe_ready hacc hq hk
  have hitem : j < (t.stripe layout q k).pebsCount := hcount ▸ hj
  have hat : t.pebAt ⟨q / layout.maptbl.portionsPerFragment, q % layout.maptbl.portionsPerFragment,
      k, j⟩ = layout.stripeStart q k + j := by
    change (t.stripe layout q k).startPeb + j = _
    rw [hstart]
  have hused := h.used _ _ k j hitem
  constructor
  · intro hfree
    obtain ⟨husing, hbad⟩ := hfree _ hitem hat
    refine Bool.eq_false_iff.2 fun hset => ?_
    rcases hused.1 hset with (hb | hb) | hb
    · exact hbad hb
    · exact hrec ⟨_, _, k, j⟩ hitem hb
    · exact husing hb
  · intro hclear pos hitem' hat'
    obtain rfl := h.toSameHeaders.pos_eq hacc hitem' hitem (hat'.trans hat.symm)
    rw [← Bool.not_eq_true, hused, not_or] at hclear
    exact ⟨hclear.2, fun hb => hclear.1 (.inl hb)⟩

end Free

structure WalksOverFree (layout : VolumeLayout) (t : Tables) (leb peb last : Nat) : Prop where
  inStep : InStep layout leb peb last
  free : ∀ x < layout.pebsPerVolume, t.Free x ↔ peb ≤ x ∧ x < last
  count : last - peb = layout.pebsPerVolume - leb

structure MarksFree (layout : VolumeLayout) (t : Tables) (a : SegsArray) : Prop where
  segs : 0 < a.segsCapacity ∧ 0 < (a.segs (a.segsCapacity - 1)).pebsCapacity
  leb_lt : a.lebAt a.lastSite < layout.pebsPerVolume
  peb_lt : a.pebAt a.lastSite < layout.pebsPerVolume
  recovered : ∀ pos : PebPos, pos.itemIndex < (t.pebFragment pos).pebsCount →
    ((t.pebFragment pos).desc pos.itemIndex).state ≠ .recovering
  walk : ∃ last, WalksOverFree layout t (a.lebAt a.lastSite + 1) (a.pebAt a.lastSite + 1) last

section Run

variable {layout : VolumeLayout} {t₀ t : Tables} {a : SegsArray}

theorem Tables.Taken.marksFree (hacc : layout.Accepted)
    (hn : layout.maptbl.portionsCount < 65535)
    (h : t.Taken layout layout.maptbl.portionsCount t₀) (herase : layout.needEraseDevice = false)
    {fuel stored : Nat} {t' : Tables}
    (hrun : markUnallocatedPebsAsPreErased fuel layout t a = .ok (t', some stored))
    (hpre : PreErases layout t t' stored) : MarksFree layout t a := by
  have hN := layout.pebsPerVolume_lt
  unfold markUnallocatedPebsAsPreErased at hrun
  rw [if_neg (by simp [herase])] at hrun
  split at hrun
  case isTrue => cases hrun
  case isFalse hsegs =>
    obtain ⟨hleb, hrun⟩ := bugOn_bind_eq_ok.1 hrun
    obtain ⟨hpeb, hrun⟩ := bugOn_bind_eq_ok.1 hrun
    rw [Word.u64_of_lt (by omega), Word.u64_of_lt (by omega)] at hrun
    obtain ⟨⟨u, last⟩, hwalk, hrun⟩ := Checked.bind_eq_ok.1 hrun
    rw [Word.sub64_of_le (by omega) hN] at hrun
    obtain ⟨hstep, hclear, rfl⟩ := markFrom_ok hacc hn h.toSameHeaders (by omega) hwalk
    cases hrun
    obtain ⟨hle, hlast, hcov⟩ := hstep.covers hacc (by omega)
    have hiff := h.preErased_iff hacc hcov
    have hfree : ∀ x < layout.pebsPerVolume, t.Free x ↔ a.pebAt a.lastSite + 1 ≤ x ∧ x < last :=
      fun x hx => ⟨fun hf => (hiff x).1 (hpre.all x hx hf),
        fun hx' => Tables.free_of_clearOn hclear hx'.1 hx'.2⟩
    refine ⟨by omega, by omega, by omega, fun pos hitem hrec => ?_, last, hstep, hfree, ?_⟩
    · have hlt : t.pebAt pos < layout.pebsPerVolume := h.peb_lt hitem
      have hf : t.Free (t.pebAt pos) := by
        intro pos' hitem' hat
        obtain rfl := h.toSameHeaders.pos_eq hacc hitem' hitem hat
        simp [hrec]
      obtain ⟨hlo, hhi⟩ := (hfree _ hlt).1 hf
      have hunknown := (hclear _ _ _ _ hitem hlo hhi).1
      change ((t.pebFragment pos).desc pos.itemIndex).state = .unknown at hunknown
      rw [hrec] at hunknown
      cases hunknown
    · rw [← ncard_preErased hiff, ← hpre.stored_eq]

theorem MarksFree.preErases (hacc : layout.Accepted)
    (hn : layout.maptbl.portionsCount < 65535)
    (h : t.Taken layout layout.maptbl.portionsCount t₀) (herase : layout.needEraseDevice = false)
    (hmarks : MarksFree layout t a) :
    ∃ fuel t' stored, markUnallocatedPebsAsPreErased fuel layout t a = .ok (t', some stored) ∧
      PreErases layout t t' stored := by
  have hN := layout.pebsPerVolume_lt
  obtain ⟨hsegs, hleb, hpeb, hrecovered, last, hstep, hfree, hcount⟩ := hmarks
  obtain ⟨hle, hlast, hcov⟩ := hstep.covers hacc (by omega)
  have hclear : t.ClearOn (a.pebAt a.lastSite + 1) last := by
    intro f p i j hj hlo hhi
    have hitem : j < (t.pebFragment ⟨f, p, i, j⟩).pebsCount := hj
    obtain ⟨h1, h2⟩ := (hfree _ (by omega)).2 ⟨hlo, hhi⟩ ⟨f, p, i, j⟩ hitem rfl
    exact h.clear_of h1 h2 (hrecovered ⟨f, p, i, j⟩ hitem)
  obtain ⟨fuel, hwalk⟩ := hstep.run hacc hn h.toSameHeaders (by omega) hclear
  have hiff := h.preErased_iff hacc hcov
  refine ⟨fuel, t.preErase (a.pebAt a.lastSite + 1) last,
    layout.pebsPerVolume - (a.lebAt a.lastSite + 1), ?_,
    fun x hx hf => (hiff x).2 ((hfree x hx).1 hf), fun pos hs => ?_, ?_⟩
  · unfold markUnallocatedPebsAsPreErased
    rw [if_neg (by simp [herase]), if_neg (by omega), bugOn_of_not (by omega), Checked.ok_bind,
      bugOn_of_not (by omega), Checked.ok_bind, Word.u64_of_lt (by omega),
      Word.u64_of_lt (by omega)]
    simp only [hwalk, Checked.ok_bind]
    rw [Word.sub64_of_le (by omega) hN]
  · have hnot : ¬(pos.itemIndex < (t.pebFragment pos).pebsCount ∧
        a.pebAt a.lastSite + 1 ≤ t.pebAt pos ∧ t.pebAt pos < last) := by
      rintro ⟨hitem, hlo, hhi⟩
      have hunknown := (hclear _ _ _ _ hitem hlo hhi).1
      change ((t.pebFragment pos).desc pos.itemIndex).state = .unknown at hunknown
      rw [hs] at hunknown
      cases hunknown
    exact ⟨if_neg hnot, rfl, if_neg hnot⟩
  · rw [ncard_preErased hiff, hcount]

end Run

end Ssdfs
