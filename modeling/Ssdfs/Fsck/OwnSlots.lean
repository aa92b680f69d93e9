import Mathlib.Data.List.Nodup
import Ssdfs.Fsck.MaptblRun
import Ssdfs.Fsck.Segbmap

namespace Ssdfs

section

variable {env : FsckEnvironment} {dev : FsckDevice} {hdr : SegbmapSbHeader}
  {segbmap segbmap' : SegbmapDetection} {a : LogsArray} {segIndex copyIndex segs k k' : Nat}

def SegbmapSbHeader.chainLebs (hdr : SegbmapSbHeader) (copyIndex : Nat) : Nat :=
  if copyIndex = copyLog ∧ ¬hdr.hasCopy then 0 else hdr.fragmentsPerSeg / hdr.fragmentsPerPeb

structure Stores (copyIndex n : Nat) (segbmap segbmap' : SegbmapDetection) : Prop where
  segsCount : segbmap'.segsCount = segbmap.segsCount
  header : segbmap'.segbmapSbHdr = segbmap.segbmapSbHdr
  array : ∃ pebIds : List Nat, pebIds.length = n ∧
    segbmap'.array = segbmap.array.storeAll copyIndex pebIds

theorem Stores.nothing : Stores copyIndex 0 segbmap segbmap := ⟨rfl, rfl, [], rfl, rfl⟩

theorem Stores.store {n : Nat} (h : Stores copyIndex n segbmap segbmap') (pebId : Nat) :
    Stores copyIndex (n + 1) segbmap { segbmap' with array := segbmap'.array.store copyIndex pebId } := by
  obtain ⟨pebIds, rfl, harray⟩ := h.array
  refine ⟨h.segsCount, h.header, pebIds ++ [pebId], List.length_append, ?_⟩
  rw [LogsArray.storeAll_snoc, ← harray]

/-- The fragments run out behind `lebs` LEBs. -/
theorem findSegbmapLebs_stores {lebsPerSeg lebs fragmentsPerPeb startLebId : Nat}
    {st : Nat × SegbmapDetection} (hpeb : 0 < fragmentsPerPeb)
    (hseg : lebs * fragmentsPerPeb < ushrtMax) (hlebs : lebs ≤ lebsPerSeg)
    (h : Checked.forRange lebsPerSeg
      (findSegbmapLeb dev (lebs * fragmentsPerPeb) fragmentsPerPeb startLebId copyIndex) (0, segbmap) =
        .ok st) : Stores copyIndex lebs segbmap st.2 := by
  have hrun := Checked.forRange_ind (fun i st => st.1 = min i lebs * fragmentsPerPeb ∧
    Stores copyIndex (min i lebs) segbmap st.2) h
    (by rw [Nat.zero_min, Nat.zero_mul]; exact ⟨rfl, Stores.nothing⟩) (by
      rintro i - ⟨processed, t⟩ t' ⟨hprocessed, hstores⟩ hstep
      unfold findSegbmapLeb at hstep
      simp only at hprocessed hstores hstep
      rcases Nat.lt_or_ge i lebs with hlt | hge
      · rw [Nat.min_eq_left (Nat.le_of_lt hlt)] at hprocessed hstores
        rw [Nat.min_eq_left (Nat.succ_le_of_lt hlt)]
        have hnext : (i + 1) * fragmentsPerPeb ≤ lebs * fragmentsPerPeb :=
          Nat.mul_le_mul_right _ (Nat.succ_le_of_lt hlt)
        rw [Nat.succ_mul] at hnext ⊢
        unfold ushrtMax at hseg
        rw [if_neg (by omega)] at hstep
        split at hstep
        · cases hstep
        obtain ⟨_, -, hstep⟩ := Checked.bind_eq_ok.1 hstep
        cases hstep
        refine ⟨?_, hstores.store _⟩
        rw [hprocessed]
        exact Nat.mod_eq_of_lt (by omega)
      · rw [Nat.min_eq_right hge] at hprocessed hstores
        rw [Nat.min_eq_right (Nat.le_succ_of_le hge)]
        rw [if_pos (Nat.le_of_eq hprocessed.symm)] at hstep
        cases hstep
        exact ⟨hprocessed, hstores⟩)
  rw [Nat.min_eq_right hlebs] at hrun
  exact hrun.2

theorem findSegbmapChainSegment_stores
    (h : findSegbmapChainSegment env dev segIndex copyIndex segbmap = .ok segbmap') :
    Stores copyIndex (segbmap.segbmapSbHdr.chainLebs copyIndex) segbmap segbmap' ∧
      (¬(copyIndex = copyLog ∧ ¬segbmap.segbmapSbHdr.hasCopy) →
        0 < segbmap.segbmapSbHdr.fragmentsPerSeg ∧ 0 < segbmap.segbmapSbHdr.fragmentsPerPeb ∧
        segbmap.segbmapSbHdr.fragmentsPerPeb ∣ segbmap.segbmapSbHdr.fragmentsPerSeg) := by
  unfold findSegbmapChainSegment at h
  unfold SegbmapSbHeader.chainLebs
  simp only at h
  split at h
  · cases h
  split at h
  · cases h
  split at h
  · cases h
  split at h
  case isTrue hcopy =>
    cases h
    rw [if_pos hcopy]
    exact ⟨Stores.nothing, fun hnot => absurd hcopy hnot⟩
  case isFalse hcopy =>
    rw [if_neg hcopy]
    split at h
    · cases h
    split at h
    · cases h
    split at h
    · cases h
    case isFalse hseg hpeb =>
      obtain ⟨hseg, hsegMax⟩ := not_or.1 hseg
      have hpos : 0 < segbmap.segbmapSbHdr.fragmentsPerPeb := Nat.pos_of_ne_zero (not_or.1 hpeb).1
      obtain ⟨lebsPerSeg, -, h⟩ := Checked.bind_eq_ok.1 h
      split at h
      · cases h
      case isFalse hdiv =>
        obtain ⟨hrem, hlebs⟩ := not_or.1 hdiv
        have hdvd := Nat.dvd_of_mod_eq_zero (not_not.1 hrem)
        obtain ⟨st, hrun, h⟩ := Checked.bind_eq_ok.1 h
        cases h
        refine ⟨@findSegbmapLebs_stores dev segbmap copyIndex lebsPerSeg _ _
          (Word.u64 (segbmap.segbmapSbHdr.segs segIndex copyIndex * lebsPerSeg)) st hpos ?_
          (Nat.not_lt.1 hlebs) ?_, fun _ => ⟨Nat.pos_of_ne_zero hseg, hpos, hdvd⟩⟩
        · rw [Nat.div_mul_cancel hdvd]
          exact Nat.not_le.1 hsegMax
        · rw [Nat.div_mul_cancel hdvd]
          exact hrun

def pairSlots (lebs copyLebs pair : Nat) : List LogSlot :=
  List.replicate lebs ⟨pair, mainLog⟩ ++ List.replicate copyLebs ⟨pair, copyLog⟩

theorem pair_of_mem_pairSlots {slot : LogSlot} (h : slot ∈ pairSlots k k' segIndex) :
    slot.pair = segIndex := by
  rcases List.mem_append.1 h with hmain | hcopy
  · rw [List.eq_of_mem_replicate hmain]
  · rw [List.eq_of_mem_replicate hcopy]

theorem pairSlots_nodup : (pairSlots k k' segIndex).Nodup ↔ k ≤ 1 ∧ k' ≤ 1 := by
  unfold pairSlots
  rw [List.nodup_append, List.nodup_replicate, List.nodup_replicate]
  refine ⟨fun h => ⟨h.1, h.2.1⟩, fun h => ⟨h.1, h.2, ?_⟩⟩
  intro s hs t ht
  rw [List.eq_of_mem_replicate hs, List.eq_of_mem_replicate ht]
  intro heq
  have hindex : mainLog = copyLog := congrArg LogSlot.copyIndex heq
  exact absurd hindex (by decide)

theorem slots_nodup (hsegs : 0 < segs) :
    ((List.range segs).flatMap (pairSlots k k')).Nodup ↔ k ≤ 1 ∧ k' ≤ 1 := by
  rw [List.nodup_flatMap]
  constructor
  · rintro ⟨hpairs, -⟩
    exact pairSlots_nodup.1 (hpairs 0 (List.mem_range.2 hsegs))
  · intro h
    refine ⟨fun s _ => pairSlots_nodup.2 h, List.nodup_range.imp fun {s t} hne => ?_⟩
    intro slot hs ht
    exact hne ((pair_of_mem_pairSlots hs).symm.trans (pair_of_mem_pairSlots ht))

theorem mem_pairs (hk : 0 < k) {pair : Nat} :
    pair ∈ ((List.range segs).flatMap (pairSlots k k')).map LogSlot.pair ↔ pair < segs := by
  constructor
  · intro h
    obtain ⟨slot, hslot, rfl⟩ := List.mem_map.1 h
    obtain ⟨s, hs, hmem⟩ := List.mem_flatMap.1 hslot
    rw [pair_of_mem_pairSlots hmem]
    exact List.mem_range.1 hs
  · intro h
    refine List.mem_map.2 ⟨⟨pair, mainLog⟩, List.mem_flatMap.2 ⟨pair, List.mem_range.2 h, ?_⟩, rfl⟩
    exact List.mem_append_left _ (List.mem_replicate.2 ⟨Nat.pos_iff_ne_zero.1 hk, rfl⟩)

/-- A pair for each segment, and in it `k` logs of the main chain and `k'` of the copy. -/
structure PairForSeg (segs k k' : Nat) (a : LogsArray) : Prop where
  slots : a.slots = (List.range segs).flatMap (pairSlots k k')
  count : a.count = segs
  keeps : a.Keeps

theorem PairForSeg.next {pebIds copyPebIds : List Nat} (h : PairForSeg segs k k' a)
    (hlebs : pebIds.length = k) (hcopy : copyPebIds.length = k') :
    PairForSeg (segs + 1) k k'
      ((a.storeAll mainLog pebIds).storeAll copyLog copyPebIds).countPair := by
  refine ⟨?_, ?_, h.keeps.storeAll.storeAll.countPair⟩
  · change ((a.storeAll mainLog pebIds).storeAll copyLog copyPebIds).slots = _
    rw [LogsArray.storeAll_slots, LogsArray.storeAll_slots, LogsArray.storeAll_count, h.slots, h.count,
      hlebs, hcopy, List.range_succ, List.flatMap_append, List.flatMap_singleton, List.append_assoc]
    rfl
  · change ((a.storeAll mainLog pebIds).storeAll copyLog copyPebIds).count + 1 = segs + 1
    rw [LogsArray.storeAll_count, LogsArray.storeAll_count, h.count]

theorem PairForSeg.ownSlots_iff (h : PairForSeg segs k k' a) (hsegs : 0 < segs) (hk : 0 < k)
    (hk' : k' ≤ k) : a.OwnSlots ↔ k = 1 ∧ segs ≤ a.capacity := by
  constructor
  · intro hown
    have hnodup := hown.apart
    rw [h.slots, slots_nodup hsegs] at hnodup
    have hlast : (⟨segs - 1, mainLog⟩ : LogSlot) ∈ a.slots := by
      rw [h.slots]
      exact List.mem_flatMap.2 ⟨segs - 1, List.mem_range.2 (Nat.sub_lt hsegs Nat.one_pos),
        List.mem_append_left _ (List.mem_replicate.2 ⟨Nat.pos_iff_ne_zero.1 hk, rfl⟩)⟩
    have hinside : segs - 1 < a.capacity := hown.inside _ hlast
    exact ⟨Nat.le_antisymm hnodup.1 hk, by omega⟩
  · rintro ⟨rfl, hcapacity⟩
    have hnodup : a.slots.Nodup := by
      rw [h.slots, slots_nodup hsegs]
      exact ⟨Nat.le_refl 1, hk'⟩
    refine ⟨hnodup, fun slot hslot => ?_, h.keeps hnodup, ?_⟩
    · have hpair := List.mem_map_of_mem (f := LogSlot.pair) hslot
      rw [h.slots, mem_pairs hk] at hpair
      exact Nat.lt_of_lt_of_le hpair hcapacity
    · have hperm : (a.slots.map LogSlot.pair).dedup.Perm (List.range segs) :=
        (List.perm_ext_iff_of_nodup (List.nodup_dedup _) List.nodup_range).2 fun pair => by
          rw [List.mem_dedup, h.slots, mem_pairs hk, List.mem_range]
      rw [hperm.length_eq, List.length_range, h.count]

theorem chainLebs_copy_le : hdr.chainLebs copyLog ≤ hdr.chainLebs mainLog := by
  have hmain : hdr.chainLebs mainLog = hdr.fragmentsPerSeg / hdr.fragmentsPerPeb :=
    if_neg fun h => absurd h.1 (by decide)
  rw [hmain]
  unfold SegbmapSbHeader.chainLebs
  split
  · exact Nat.zero_le _
  · exact Nat.le_refl _

theorem findSegbmapSegment_pair
    (h : findSegbmapSegment env dev segIndex segbmap = .ok segbmap')
    (hpairs : PairForSeg segs (segbmap.segbmapSbHdr.chainLebs mainLog)
      (segbmap.segbmapSbHdr.chainLebs copyLog) segbmap.array) :
    segbmap'.segbmapSbHdr = segbmap.segbmapSbHdr ∧
      segbmap'.array.capacity = segbmap.array.capacity ∧
      PairForSeg (segs + 1) (segbmap.segbmapSbHdr.chainLebs mainLog)
        (segbmap.segbmapSbHdr.chainLebs copyLog) segbmap'.array ∧
      0 < segbmap.segbmapSbHdr.fragmentsPerSeg ∧ 0 < segbmap.segbmapSbHdr.fragmentsPerPeb ∧
      segbmap.segbmapSbHdr.fragmentsPerPeb ∣ segbmap.segbmapSbHdr.fragmentsPerSeg := by
  obtain ⟨mid, hmain, h⟩ := Checked.bind_eq_ok.1 h
  obtain ⟨last, hcopy, h⟩ := Checked.bind_eq_ok.1 h
  cases h
  obtain ⟨hstores, hheader⟩ := findSegbmapChainSegment_stores hmain
  obtain ⟨hstores', -⟩ := findSegbmapChainSegment_stores hcopy
  obtain ⟨pebIds, hlebs, harray⟩ := hstores.array
  obtain ⟨copyPebIds, hcopyLebs, harray'⟩ := hstores'.array
  rw [hstores.header] at hcopyLebs
  rw [harray] at harray'
  refine ⟨hstores'.header.trans hstores.header, ?_, ?_, hheader fun hboth => absurd hboth.1 (by decide)⟩
  · change last.array.capacity = _
    rw [harray', LogsArray.storeAll_capacity, LogsArray.storeAll_capacity]
  · change PairForSeg _ _ _ last.array.countPair
    rw [harray']
    exact hpairs.next hlebs hcopyLebs

theorem isSegmentBitmapLogsFound_pairs (h : isSegmentBitmapLogsFound env dev hdr = .ok segbmap) :
    0 < hdr.segsCount ∧ segbmap.array.capacity = Word.u32 (hdr.segsCount * env.lebsPerSeg) ∧
      PairForSeg hdr.segsCount (hdr.chainLebs mainLog) (hdr.chainLebs copyLog) segbmap.array ∧
      0 < hdr.fragmentsPerSeg ∧ 0 < hdr.fragmentsPerPeb ∧
      hdr.fragmentsPerPeb ∣ hdr.fragmentsPerSeg := by
  obtain ⟨start, halloc, h⟩ := Checked.bind_eq_ok.1 h
  unfold allocateSegbmapLogsArray at halloc
  split at halloc
  · cases halloc
  split at halloc
  · cases halloc
  case isFalse hcount =>
  obtain ⟨lebsPerSeg, hlebs, halloc⟩ := Checked.bind_eq_ok.1 halloc
  obtain ⟨rfl, -⟩ := fsckLebsPerSeg_inv hlebs
  obtain ⟨-, halloc⟩ := Checked.bugOn_bind_eq_ok.1 halloc
  obtain ⟨-, halloc⟩ := Checked.bugOn_bind_eq_ok.1 halloc
  cases halloc
  simp only at h
  split at h
  · cases h
  obtain ⟨hzero, -⟩ := not_or.1 hcount
  obtain ⟨-, hcapacity, hpairs, hheader⟩ := Checked.forRange_ind
    (fun i (st : SegbmapDetection) => st.segbmapSbHdr = hdr ∧
      st.array.capacity = Word.u32 (hdr.segsCount * env.lebsPerSeg) ∧
      PairForSeg i (hdr.chainLebs mainLog) (hdr.chainLebs copyLog) st.array ∧
      (0 < i → 0 < hdr.fragmentsPerSeg ∧ 0 < hdr.fragmentsPerPeb ∧
        hdr.fragmentsPerPeb ∣ hdr.fragmentsPerSeg)) h
    ⟨rfl, rfl, ⟨rfl, rfl, LogsArray.keeps_allocate⟩, fun hpos => absurd hpos (Nat.lt_irrefl 0)⟩ (by
      rintro i - t t' ⟨rfl, hcapacity, hpairs, -⟩ hstep
      obtain ⟨hhdr, hsame, hnext, hheader⟩ := findSegbmapSegment_pair hstep hpairs
      exact ⟨hhdr, hsame.trans hcapacity, hnext, fun _ => hheader⟩)
  exact ⟨Nat.pos_of_ne_zero hzero, hcapacity, hpairs, hheader (Nat.pos_of_ne_zero hzero)⟩

theorem segbmap_ownSlots_iff (h : isSegmentBitmapLogsFound env dev hdr = .ok segbmap) :
    segbmap.array.OwnSlots ↔ hdr.fragmentsPerSeg = hdr.fragmentsPerPeb ∧
      hdr.segsCount ≤ Word.u32 (hdr.segsCount * env.lebsPerSeg) := by
  obtain ⟨hsegs, hcapacity, hpairs, hseg, hpeb, hdvd⟩ := isSegmentBitmapLogsFound_pairs h
  have hmain : hdr.chainLebs mainLog = hdr.fragmentsPerSeg / hdr.fragmentsPerPeb :=
    if_neg fun h => absurd h.1 (by decide)
  have hlebs : 0 < hdr.chainLebs mainLog := by
    rw [hmain]
    exact Nat.div_pos (Nat.le_of_dvd hseg hdvd) hpeb
  rw [hpairs.ownSlots_iff hsegs hlebs chainLebs_copy_le, hcapacity, hmain]
  refine and_congr_left fun _ => ?_
  rw [Nat.div_eq_iff_eq_mul_left hpeb hdvd, Nat.one_mul]

end

section

variable {env : FsckEnvironment} {dev : FsckDevice} {hdr : MaptblSbHeader} {chain : MaptblSeg}
  {st st' st'' : MaptblDetection} {n m : Nat}

/-- At least `n` more logs have been found, and no pair has been counted. -/
structure Finds (n : Nat) (st st' : MaptblDetection) : Prop where
  count : st'.array.count = st.array.count
  found : st.array.found.length + n ≤ st'.array.found.length

theorem Finds.trans (h : Finds n st st') (h' : Finds m st' st'') : Finds (n + m) st st'' := by
  have hfound := h.found
  have hfound' := h'.found
  exact ⟨h'.count.trans h.count, by omega⟩

theorem Finds.mono (h : Finds n st st') (hle : m ≤ n) : Finds m st st' :=
  ⟨h.count, Nat.le_trans (Nat.add_le_add_left hle _) h.found⟩

theorem finds_store {copyIndex pebId : Nat} :
    Finds 1 st { st with array := st.array.store copyIndex pebId } := by
  refine ⟨rfl, Nat.le_of_eq ?_⟩
  change _ = (st.array.found ++ [_]).length
  rw [List.length_append, List.length_singleton]

theorem Finds.forRange {f : Nat → MaptblDetection → Search MaptblDetection}
    (h : Checked.forRange n f st = .ok st')
    (hstep : ∀ i t t', f i t = .ok t' → Finds 1 t t') : Finds n st st' :=
  Checked.forRange_ind (fun i t => Finds i st t) h ⟨rfl, Nat.le_refl _⟩ fun i _ t t' ht hrun =>
    ht.trans (hstep i t t' hrun)

theorem findMaptblPeb_finds {lebId : Nat} (h : findMaptblPeb dev chain lebId st = .ok st') :
    Finds 1 st st' := by
  unfold findMaptblPeb at h
  split at h
  · cases h
  simp only at h
  split at h
  · cases h
  obtain ⟨_, -, h⟩ := Checked.bind_eq_ok.1 h
  cases h
  exact finds_store

theorem findMaptblSegment_finds {segId : Nat} (h : findMaptblSegment env dev chain segId st = .ok st') :
    Finds 1 st st' := by
  unfold findMaptblSegment at h
  split at h
  · cases h
  obtain ⟨lebsPerSeg, hlebs, h⟩ := Checked.bind_eq_ok.1 h
  obtain ⟨rfl, hne⟩ := fsckLebsPerSeg_inv hlebs
  have hfinds := Finds.forRange h fun i t t' hrun => by
    simp only at hrun
    split at hrun
    · cases hrun
    obtain ⟨_, -, hrun⟩ := Checked.bind_eq_ok.1 hrun
    cases hrun
    exact finds_store
  exact (show Finds env.lebsPerSeg st st' from ⟨hfinds.count, hfinds.found⟩).mono
    (Nat.one_le_iff_ne_zero.2 hne)

theorem findExtentItems_finds {extent : MetaAreaExtent}
    (h : findExtentItems env dev chain extent st = .ok st') : Finds extent.len.toNat st st' := by
  unfold findExtentItems at h
  simp only at h
  split at h
  · obtain ⟨t, hrun, h⟩ := Checked.bind_eq_ok.1 h
    cases h
    have hfinds := Finds.forRange hrun fun i t t' hstep => findMaptblSegment_finds hstep
    exact ⟨hfinds.count, hfinds.found⟩
  · obtain ⟨_, -, h⟩ := Checked.bind_eq_ok.1 h
    obtain ⟨t, hrun, h⟩ := Checked.bind_eq_ok.1 h
    obtain ⟨-, h⟩ := Checked.bugOn_bind_eq_ok.1 h
    cases h
    have hfinds := Finds.forRange hrun fun i t t' hstep => findMaptblPeb_finds hstep
    exact ⟨hfinds.count, hfinds.found⟩

theorem findMaptblExtent_finds {extentIndex : Nat}
    (h : findMaptblExtent env dev hdr extentIndex st = .ok st') :
    isItemsExtent (hdr.extents .main extentIndex) = true ∧
      Finds (hdr.extents .main extentIndex).len.toNat st st' := by
  obtain ⟨_, -, h⟩ := Checked.bind_eq_ok.1 h
  split at h
  · cases h
  simp only at h
  split at h
  · cases h
  case isFalse hitems =>
    obtain ⟨t, hmain, h⟩ := Checked.bind_eq_ok.1 h
    refine ⟨not_not.1 hitems, ?_⟩
    have hfinds := findExtentItems_finds hmain
    split at h
    · exact (hfinds.trans (findExtentItems_finds h)).mono (Nat.le_add_right _ _)
    · split at h
      · cases h
      · cases h
        exact hfinds

theorem countExtents_segs {lebs : Nat} {l : List MetaAreaExtent} {counts counts' : Nat × Nat}
    (h : Checked.forEach (countExtent lebs) l counts = .ok counts') (hzero : counts.1 = 0)
    (hlen : ∀ e ∈ l, isItemsExtent e = true → e.len.toNat = 0) : counts'.1 = 0 := by
  induction l generalizing counts with
  | nil =>
    cases h
    exact hzero
  | cons e l ih =>
    obtain ⟨mid, hstep, hrest⟩ := Checked.bind_eq_ok.1 h
    refine ih hrest ?_ fun e he => hlen e (List.mem_cons_of_mem _ he)
    have hnone := hlen e List.mem_cons_self
    obtain ⟨segsCount, extentsCount⟩ := counts
    simp only at hzero
    subst hzero
    unfold countExtent at hstep
    unfold isItemsExtent at hnone
    simp only at hstep
    split at hstep
    · cases hstep
      rfl
    split at hstep
    case isTrue hseg =>
      cases hstep
      rw [hnone (decide_eq_true (.inl hseg))]
      rfl
    split at hstep
    case isTrue hpeb =>
      obtain ⟨-, hstep⟩ := Checked.bugOn_bind_eq_ok.1 hstep
      cases hstep
      rw [hnone (decide_eq_true (.inr hpeb)), Nat.zero_div]
      rfl
    split at hstep
    · cases hstep
    split at hstep
    · cases hstep
      rfl
    · cases hstep

theorem sublist_pairs {α β : Type} (f g : α → β) (l : List α) :
    (l.map f).Sublist (l.flatMap fun x => [f x, g x]) := by
  induction l with
  | nil => exact List.Sublist.refl _
  | cons x l ih => exact (ih.cons (g x)).cons_cons (f x)

theorem items_main {extentsCount : Nat} (hmax : extentsCount ≤ maptblReservedExtents)
    (hcount : extentsCount = (hdr.slots.filter isItemsExtent).length)
    (hitems : ∀ j < extentsCount, isItemsExtent (hdr.extents .main j) = true) {e : MetaAreaExtent}
    (he : e ∈ hdr.slots) (hused : isItemsExtent e = true) : ∃ j < extentsCount, hdr.extents .main j = e := by
  have hmain : ((List.range extentsCount).map (hdr.extents .main)).Sublist hdr.slots :=
    ((List.range_sublist.2 hmax).map _).trans (sublist_pairs _ _ _)
  have hall : ((List.range extentsCount).map (hdr.extents .main)).filter isItemsExtent =
      (List.range extentsCount).map (hdr.extents .main) :=
    List.filter_eq_self.2 fun e he => by
      obtain ⟨j, hj, rfl⟩ := List.mem_map.1 he
      exact hitems j (List.mem_range.1 hj)
  have hsub := hmain.filter isItemsExtent
  rw [hall] at hsub
  have heq := hsub.eq_of_length (by rw [List.length_map, List.length_range, hcount])
  have hmem := List.mem_filter.2 ⟨he, hused⟩
  rw [← heq] at hmem
  obtain ⟨j, hj, rfl⟩ := List.mem_map.1 hmem
  exact ⟨j, List.mem_range.1 hj, rfl⟩

theorem isMappingTableFound_uncounted (h : isMappingTableFound env dev hdr = .ok st) :
    st.array.count = 0 ∧ st.array.found ≠ [] := by
  obtain ⟨segsCount, extentsCount, start, -, hmax, hsegs, -, -, hslots, harray, hrun⟩ :=
    SlotsHold.counted h
  have htotal := SlotsHold.countExtents (show 0 + 6 < 4294967296 by decide) hslots
  obtain ⟨hcount, hvisited⟩ := Checked.forRange_ind (fun i (t : MaptblDetection) => t.array.count = 0 ∧
    ∀ j < i, isItemsExtent (hdr.extents .main j) = true ∧
      (hdr.extents .main j).len.toNat ≤ t.array.found.length) hrun
    ⟨by rw [harray]; rfl, fun j hj => absurd hj (Nat.not_lt_zero j)⟩ (by
      rintro i - t t' ⟨hcount, hvisited⟩ hstep
      obtain ⟨hitems, hfinds⟩ := findMaptblExtent_finds hstep
      have hfound := hfinds.found
      refine ⟨hfinds.count.trans hcount, fun j hj => ?_⟩
      rcases Nat.lt_succ_iff_lt_or_eq.1 hj with hlt | rfl
      · exact ⟨(hvisited j hlt).1, Nat.le_trans (hvisited j hlt).2 (by omega)⟩
      · exact ⟨hitems, Nat.le_trans (Nat.le_add_left _ _) hfound⟩)
  refine ⟨hcount, fun hnone => ?_⟩
  have hzero := countExtents_segs hslots rfl fun e he hused => by
    obtain ⟨j, hj, rfl⟩ := items_main hmax (htotal.trans (Nat.zero_add _))
      (fun j hj => (hvisited j hj).1) he hused
    have hle := (hvisited j hj).2
    rw [hnone] at hle
    exact Nat.le_zero.1 hle
  exact absurd hzero (Nat.pos_iff_ne_zero.1 hsegs)

/-- A pair is counted for each segment of the bitmap, not for each of its LEBs, and none at all for
the mapping table. -/
theorem foundLogs_ownSlots_iff {segbmapHdr : SegbmapSbHeader} {maptblDev : FsckDevice} :
    (∀ segbmap, isSegmentBitmapLogsFound env dev segbmapHdr = .ok segbmap →
      (segbmap.array.OwnSlots ↔ segbmapHdr.fragmentsPerSeg = segbmapHdr.fragmentsPerPeb ∧
        segbmapHdr.segsCount ≤ Word.u32 (segbmapHdr.segsCount * env.lebsPerSeg))) ∧
    ∀ maptbl, isMappingTableFound env maptblDev hdr = .ok maptbl → ¬maptbl.array.OwnSlots := by
  constructor
  · intro segbmap h
    exact segbmap_ownSlots_iff h
  · intro maptbl h hown
    obtain ⟨hcount, hfound⟩ := isMappingTableFound_uncounted h
    exact absurd hcount (Nat.pos_iff_ne_zero.1 (hown.count_pos hfound))

end

/-- One segment of the bitmap, with `lebs` LEBs of one fragment each. -/
def oneSegbmapSegment (lebs : Nat) : SegbmapSbHeader :=
  { fragmentsCount := lebs
    fragmentsPerSeg := lebs
    fragmentsPerPeb := 1
    fragmentSize := 4096
    bytesCount := 4096 * lebs
    hasCopy := false
    segsCount := 1
    segs := fun i j => if i = 0 ∧ j = 0 then 3 else Word.u64Max }

/-- Segments of `lebs` LEBs. -/
def lebsEnvironment (lebs : UInt32) : FsckEnvironment := ⟨131072 * lebs, 2621440000, 131072, true⟩

def oneMaptblSegment : MaptblSbHeader :=
  ⟨1, 12288, 0, 0, 0, 1, 1, 0, 0, 0, 0, 0, 0,
    fun chain i => if chain = .main ∧ i = 0 then segExtent 2 1 else emptySlots i⟩

theorem foundLogs_ownSlots_one :
    (∃ segbmap, isSegmentBitmapLogsFound (lebsEnvironment 1) plainDevice (oneSegbmapSegment 1) =
      .ok segbmap ∧ segbmap.array.OwnSlots) ∧
    ∃ maptbl, isMappingTableFound (lebsEnvironment 1) plainDevice oneMaptblSegment = .ok maptbl ∧
      ¬maptbl.array.OwnSlots := by
  obtain ⟨segbmap, hsegbmap⟩ := @Checked.exists_ok _ _
    (isSegmentBitmapLogsFound (lebsEnvironment 1) plainDevice (oneSegbmapSegment 1)) (by decide +kernel)
  obtain ⟨maptbl, hmaptbl⟩ := @Checked.exists_ok _ _
    (isMappingTableFound (lebsEnvironment 1) plainDevice oneMaptblSegment) (by decide +kernel)
  obtain ⟨hown, hnever⟩ := @foundLogs_ownSlots_iff (lebsEnvironment 1) plainDevice oneMaptblSegment
    (oneSegbmapSegment 1) plainDevice
  exact ⟨⟨segbmap, hsegbmap, (hown segbmap hsegbmap).2 (by decide)⟩, maptbl, hmaptbl,
    hnever maptbl hmaptbl⟩

/-- The log of the segment's first LEB, behind PEB 6, is lost to that of the second one. -/
theorem isSegmentBitmapLogsFound_overwrites :
    ∃ segbmap, isSegmentBitmapLogsFound (lebsEnvironment 2) plainDevice (oneSegbmapSegment 2) =
      .ok segbmap ∧ segbmap.array.found = [(⟨0, mainLog⟩, 6), (⟨0, mainLog⟩, 7)] ∧
      segbmap.array.pairs 0 mainLog = 7 ∧ ¬segbmap.array.OwnSlots := by
  obtain ⟨segbmap, hrun, hshown⟩ := @Checked.exists_of_map _ _ _
    (isSegmentBitmapLogsFound (lebsEnvironment 2) plainDevice (oneSegbmapSegment 2))
    (fun segbmap => (segbmap.array.found, segbmap.array.pairs 0 mainLog))
    ([(⟨0, mainLog⟩, 6), (⟨0, mainLog⟩, 7)], 7) (by decide +kernel)
  obtain ⟨hfound, hpair⟩ := Prod.mk.inj hshown
  refine ⟨segbmap, hrun, hfound, hpair, fun hown => ?_⟩
  have hapart := hown.apart
  unfold LogsArray.slots at hapart
  rw [hfound] at hapart
  exact absurd hapart (by decide)

end Ssdfs
