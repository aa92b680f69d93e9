import Mathlib.Tactic.IntervalCases
import Ssdfs.Fsck.Maptbl
import Ssdfs.MaptblSb.Segs

namespace Ssdfs

open Runs

structure PebReadable (dev : FsckDevice) (pebId : Nat) : Prop where
  header : dev.findMetadataSegment pebId = .ok ()
  fullLog : dev.findLastFullLog pebId = .ok () ∨ dev.findLastFullLog pebId = Search.notFound
  partialLog : dev.findLastPartialLog pebId = .ok () ∨ dev.findLastPartialLog pebId = Search.notFound

def FsckEnvironment.lebsPerSeg (env : FsckEnvironment) : Nat :=
  env.segSize.toNat / env.eraseSize.toNat

/-- Every LEB of the segment converts to a PEB that can be read. -/
def SegReadable (env : FsckEnvironment) (dev : FsckDevice) (segId : Nat) : Prop :=
  ∀ k < env.lebsPerSeg, dev.convertLeb2peb (Word.u64 (segId * env.lebsPerSeg + k)) < Word.u64Max ∧
    PebReadable dev (dev.convertLeb2peb (Word.u64 (segId * env.lebsPerSeg + k)))

def MaptblDetection.visitedOf (st : MaptblDetection) (chain : MaptblSeg) : List Nat :=
  (st.visited.filter (·.1 = chain)).map Prod.snd

/-- The search succeeds, goes through the segments of each chain in their order, and counts all of
them as found. -/
def MaptblFound (env : FsckEnvironment) (dev : FsckDevice) (hdr : MaptblSbHeader) : Prop :=
  ∃ st, isMappingTableFound env dev hdr = .ok st ∧
    (∀ chain, st.visitedOf chain = hdr.chainSegs chain) ∧
    st.foundSegs = (hdr.chainSegs .main ++ hdr.chainSegs .copy).length

/-- The writer's extents of both chains, and its flag of the copy. -/
structure MaptblHeaderWritten (layout : VolumeLayout) (a : SegsArray) (hdr : MaptblSbHeader) : Prop where
  main : defineMaptblExtents layout a .main (fun _ => unsetExtent) = .ok (hdr.extents .main)
  copy : defineCopyExtents layout a = .ok (hdr.extents .copy)
  flags : hdr.flags &&& maptblHasCopy ≠ 0 ↔ layout.maptbl.hasBackupCopy = true

section

variable {env : FsckEnvironment} {dev : FsckDevice} {hdr : MaptblSbHeader} {layout : VolumeLayout}
  {a : SegsArray} {compression : Compression} {preErasedPebs n : Nat} {chain : MaptblSeg}
  {st : MaptblDetection}

theorem initMaptblSbHeader_written
    (h : initMaptblSbHeader layout a compression preErasedPebs = .ok hdr) :
    MaptblHeaderWritten layout a hdr := by
  obtain ⟨-, h⟩ := quot_bind_eq_ok.1 h
  obtain ⟨n, -, h⟩ := Checked.bind_eq_ok.1 h
  obtain ⟨-, h⟩ := bugOn_bind_eq_ok.1 h
  obtain ⟨flag, hflag, h⟩ := Checked.bind_eq_ok.1 h
  obtain ⟨_, -, h⟩ := Checked.bind_eq_ok.1 h
  obtain ⟨-, h⟩ := failIf_bind_eq_ok.1 h
  obtain ⟨-, h⟩ := failIf_bind_eq_ok.1 h
  obtain ⟨mainExtents, hmain, h⟩ := Checked.bind_eq_ok.1 h
  obtain ⟨copyExtents, hcopy, h⟩ := Checked.bind_eq_ok.1 h
  cases h
  refine ⟨hmain, hcopy, ?_⟩
  simp only
  cases layout.maptbl.hasBackupCopy <;> cases compression <;> cases hflag <;> decide

theorem fsckLebsPerSeg_ok (h : env.lebsPerSeg ≠ 0) : fsckLebsPerSeg env = .ok env.lebsPerSeg := by
  have herase : env.eraseSize.toNat ≠ 0 := fun h0 => h (by
    unfold FsckEnvironment.lebsPerSeg
    rw [h0, Nat.div_zero])
  have hbug : Search.bugOn (env.segSize.toNat / env.eraseSize.toNat = 0) = .ok () :=
    Checked.bugOn_of_not h
  unfold fsckLebsPerSeg Search.quot
  rw [Checked.quot_of_ne herase, Checked.ok_bind, hbug, Checked.ok_bind]
  rfl

theorem fsckLebsPerSeg_inv {lebs : Nat} (h : fsckLebsPerSeg env = .ok lebs) :
    lebs = env.lebsPerSeg ∧ env.lebsPerSeg ≠ 0 := by
  obtain ⟨q, hq, h⟩ := Checked.bind_eq_ok.1 h
  obtain ⟨-, rfl⟩ := Checked.quot_eq_ok.1 hq
  obtain ⟨hne, h⟩ := Checked.bugOn_bind_eq_ok.1 h
  cases h
  exact ⟨rfl, hne⟩

theorem findMaptblLogs_ok {pebId : Nat} (h : PebReadable dev pebId) :
    findMaptblLogs dev pebId = .ok () := by
  have hskip : ∀ m : Search Unit, m = .ok () ∨ m = Search.notFound → Search.orNotFound m = .ok () := by
    rintro m (rfl | rfl) <;> rfl
  unfold findMaptblLogs
  rw [h.header, Checked.ok_bind, hskip _ h.fullLog, Checked.ok_bind, hskip _ h.partialLog]

/-- The search has gone through `segIds` of the chain; nothing is said of the logs. -/
structure Visits (chain : MaptblSeg) (segIds : List Nat) (st st' : MaptblDetection) : Prop where
  visited : st'.visited = st.visited ++ segIds.map fun segId => (chain, segId)
  foundSegs : st'.foundSegs = st.foundSegs

theorem findMaptblSegment_ok {segId : Nat} (hid : segId < Word.u64Max) (hlebs : env.lebsPerSeg ≠ 0)
    (h : SegReadable env dev segId) :
    ∃ st', findMaptblSegment env dev chain segId st = .ok st' ∧ Visits chain [segId] st st' := by
  unfold findMaptblSegment
  rw [if_neg (Nat.not_le.2 hid), fsckLebsPerSeg_ok hlebs, Checked.ok_bind]
  refine Checked.forRange_ok (fun _ st' => Visits chain [segId] st st') ⟨rfl, rfl⟩ fun i hi t ht => ?_
  obtain ⟨hpeb, hread⟩ := h i hi
  have hleb : Word.u64 (Word.u64 (segId * env.lebsPerSeg) + i) =
      Word.u64 (segId * env.lebsPerSeg + i) := Nat.mod_add_mod ..
  simp only
  rw [hleb, if_neg (Nat.not_le.2 hpeb), findMaptblLogs_ok hread, Checked.ok_bind]
  exact ⟨_, rfl, ht.visited, ht.foundSegs⟩

theorem findSegs_ok {start len : Nat}
    (h : ∀ s ∈ List.range' start len, s < Word.u64Max ∧ SegReadable env dev s)
    (hlebs : env.lebsPerSeg ≠ 0) :
    ∃ st', Checked.forRange len (fun i => findMaptblSegment env dev chain (Word.u64 (start + i))) st =
      .ok st' ∧ Visits chain (List.range' start len) st st' := by
  refine Checked.forRange_ok (fun i st' => Visits chain (List.range' start i) st st') ⟨?_, rfl⟩
    fun i hi t ht => ?_
  · exact (List.append_nil _).symm
  obtain ⟨hid, hread⟩ := h (start + i) (List.mem_range'_1.2 ⟨Nat.le_add_right _ _, by omega⟩)
  have hword : Word.u64 (start + i) = start + i := Word.u64_of_lt (by
    unfold Word.u64Max at hid
    omega)
  rw [hword]
  obtain ⟨t', hrun, hvisits⟩ := @findMaptblSegment_ok env dev chain t _ hid hlebs hread
  refine ⟨t', hrun, ?_, hvisits.foundSegs.trans ht.foundSegs⟩
  rw [hvisits.visited, ht.visited, List.append_assoc, ← List.map_append, List.range'_concat,
    Nat.one_mul]

/-- The chains that the writer fills. -/
def UsedChain (layout : VolumeLayout) (chain : MaptblSeg) : Prop :=
  chain = .main ∨ layout.maptbl.hasBackupCopy = true

instance : Decidable (UsedChain layout chain) := by
  unfold UsedChain
  infer_instance

def chainRuns (layout : VolumeLayout) (a : SegsArray) (n : Nat) (chain : MaptblSeg) :
    List (Nat × Nat) :=
  if UsedChain layout chain then runs (chainSegId a n chain) n else []

def freeSlot (layout : VolumeLayout) (chain : MaptblSeg) (k : Nat) : MetaAreaExtent :=
  if UsedChain layout chain then emptySlots k else unsetExtent

structure SlotsHold (layout : VolumeLayout) (a : SegsArray) (n : Nat) (hdr : MaptblSbHeader) :
    Prop where
  few : ∀ chain, (chainRuns layout a n chain).length ≤ maptblReservedExtents
  slot : ∀ chain k, hdr.extents chain k =
    ((chainRuns layout a n chain)[k]?).elim (freeSlot layout chain k) fun run => segExtent run.1 run.2

theorem MaptblHeaderWritten.slots (h : MaptblHeaderWritten layout a hdr)
    (hn : segsPerCopy layout = .ok n) (hlt : n < 4294967296)
    (hids : ∀ chain, UsedChain layout chain → ∀ i < n, chainSegId a n chain i < Word.u64Max) :
    SlotsHold layout a n hdr := by
  have hused : ∀ chain, UsedChain layout chain →
      defineMaptblExtents layout a chain (fun _ => unsetExtent) = .ok (hdr.extents chain) := by
    rintro chain (rfl | hbackup)
    · exact h.main
    · cases chain with
      | main => exact h.main
      | copy =>
        have hcopy := h.copy
        unfold defineCopyExtents at hcopy
        rwa [if_pos hbackup] at hcopy
  constructor
  · intro chain
    unfold chainRuns
    split
    case isTrue hc => exact (defineMaptblExtents_exact hn hlt (hids chain hc)).only _ (hused chain hc)
    case isFalse => exact Nat.zero_le _
  · intro chain k
    unfold chainRuns freeSlot
    by_cases hc : UsedChain layout chain
    · rw [if_pos hc, if_pos hc,
        (defineMaptblExtents_exact hn hlt (hids chain hc)).result (hused chain hc)]
      rfl
    · rw [if_neg hc, if_neg hc]
      obtain ⟨hcopy, hnone⟩ := not_or.1 hc
      obtain rfl : chain = .copy := by
        cases chain
        · exact absurd rfl hcopy
        · rfl
      have hunset := h.copy
      unfold defineCopyExtents at hunset
      rw [if_neg hnone] at hunset
      rw [← Except.ok.inj hunset]
      rfl

namespace SlotsHold

theorem items (h : SlotsHold layout a n hdr) {k : Nat} :
    isItemsExtent (hdr.extents chain k) = decide (k < (chainRuns layout a n chain).length) := by
  rw [h.slot]
  rcases Nat.lt_or_ge k (chainRuns layout a n chain).length with hlt | hge
  · rw [List.getElem?_eq_getElem hlt, decide_eq_true hlt]
    rfl
  · rw [List.getElem?_eq_none hge, decide_eq_false (Nat.not_lt.2 hge)]
    simp only [Option.elim_none]
    unfold freeSlot emptySlots
    split_ifs <;> decide

theorem extentsCount_le {st₀ : MaptblDetection} (h : SlotsHold layout a n hdr) {m : Nat}
    (hm : m ≤ maptblReservedExtents)
    (hrun : Checked.forRange m (findMaptblExtent env dev hdr) st₀ = .ok st) :
    m ≤ (chainRuns layout a n .main).length := by
  by_contra hlt
  obtain ⟨t, t', -, hstep⟩ := Checked.forRange_step hrun (Nat.not_le.1 hlt)
  obtain ⟨_, -, hstep⟩ := Checked.bind_eq_ok.1 hstep
  simp only at hstep
  rw [if_neg (by omega), h.items, decide_eq_false (Nat.lt_irrefl _), if_pos (by decide)] at hstep
  cases hstep

theorem countExtent_inv {lebs : Nat} {e : MetaAreaExtent} {counts counts' : Nat × Nat}
    (h : countExtent lebs e counts = .ok counts') :
    counts'.2 = if isItemsExtent e then Word.u32 (counts.2 + 1) else counts.2 := by
  unfold countExtent at h
  unfold isItemsExtent
  simp only at h
  by_cases hempty : e.type = emptyExtentType
  · rw [if_pos hempty] at h
    cases h
    rw [hempty]
    rfl
  rw [if_neg hempty] at h
  by_cases hseg : e.type = segExtentType
  · rw [if_pos hseg] at h
    cases h
    rw [hseg]
    rfl
  rw [if_neg hseg] at h
  by_cases hpeb : e.type = pebExtentType
  · rw [if_pos hpeb] at h
    obtain ⟨-, h⟩ := Checked.bugOn_bind_eq_ok.1 h
    cases h
    rw [hpeb]
    rfl
  rw [if_neg hpeb] at h
  rw [decide_eq_false (not_or.2 ⟨hseg, hpeb⟩), if_neg Bool.false_ne_true]
  split at h
  · cases h
  · split at h <;> cases h
    rfl

theorem countExtent_empty {lebs : Nat} {e : MetaAreaExtent} {counts : Nat × Nat}
    (h : e.type = emptyExtentType) : countExtent lebs e counts = .ok counts := if_pos h

theorem countExtent_seg {lebs len start segsCount extentsCount : Nat} (h : len < 4294967296) :
    countExtent lebs (segExtent start len) (segsCount, extentsCount) =
      .ok (Word.u16 (segsCount + len), Word.u32 (extentsCount + 1)) := by
  have hlen : (segExtent start len).len.toNat = len :=
    UInt32.toNat_ofNat_of_lt' (show len < UInt32.size by exact h)
  have htype : (segExtent start len).type = segExtentType := rfl
  unfold countExtent
  simp only
  rw [htype, hlen, if_neg (by decide), if_pos rfl]

theorem countExtents {lebs : Nat} {counts counts' : Nat × Nat} {l : List MetaAreaExtent}
    (hsmall : counts.2 + l.length < 4294967296)
    (hrun : Checked.forEach (countExtent lebs) l counts = .ok counts') :
    counts'.2 = counts.2 + (l.filter isItemsExtent).length := by
  induction l generalizing counts with
  | nil =>
    cases hrun
    rfl
  | cons e l ih =>
    obtain ⟨mid, hstep, hrest⟩ := Checked.bind_eq_ok.1 hrun
    rw [List.length_cons] at hsmall
    have hmid := countExtent_inv hstep
    rw [Word.u32_of_lt (by omega)] at hmid
    rw [List.filter_cons]
    by_cases he : isItemsExtent e = true
    · rw [if_pos he] at hmid ⊢
      rw [ih (by omega) hrest, hmid, List.length_cons, Nat.add_assoc, Nat.add_comm 1]
    · rw [if_neg he] at hmid ⊢
      rw [ih (by omega) hrest, hmid]

theorem main_slot (h : SlotsHold layout a n hdr) {k : Nat} (hk : k < maptblReservedExtents) :
    (∃ hlt : k < (chainRuns layout a n .main).length, hdr.extents .main k =
      segExtent ((chainRuns layout a n .main)[k]).1 ((chainRuns layout a n .main)[k]).2) ∨
    (chainRuns layout a n .main).length ≤ k ∧ (hdr.extents .main k).type = emptyExtentType := by
  rw [h.slot]
  rcases Nat.lt_or_ge k (chainRuns layout a n .main).length with hlt | hge
  · rw [List.getElem?_eq_getElem hlt]
    exact .inl ⟨hlt, rfl⟩
  · rw [List.getElem?_eq_none hge]
    refine .inr ⟨hge, ?_⟩
    unfold freeSlot emptySlots
    rw [if_pos (.inl rfl), Option.elim_none, if_pos hk]

theorem copy_slot (h : SlotsHold layout a n hdr) (hbackup : layout.maptbl.hasBackupCopy = false)
    (k : Nat) : hdr.extents .copy k = unsetExtent := by
  have hunused : ¬UsedChain layout .copy := by
    rintro (heq | heq)
    · cases heq
    · exact absurd (hbackup.symm.trans heq) Bool.false_ne_true
  rw [h.slot]
  unfold chainRuns freeSlot
  rw [if_neg hunused, if_neg hunused]
  rfl

theorem main_run (hn : n < 4294967296) {run : Nat × Nat} (hrun : run ∈ chainRuns layout a n .main) :
    (∃ i < n, run.1 = maptblSegId a i) ∧ run.2 < 4294967296 := by
  unfold chainRuns at hrun
  rw [if_pos (.inl rfl)] at hrun
  obtain ⟨hstart, hlen⟩ := newest_bounds (List.mem_reverse.1 hrun)
  exact ⟨hstart, by omega⟩

theorem countSlots (h : SlotsHold layout a n hdr) (hbackup : layout.maptbl.hasBackupCopy = false)
    (hn : n < 4294967296) (hpos : 0 < (chainRuns layout a n .main).length) (lebs : Nat) :
    Checked.forEach (countExtent lebs) hdr.slots (0, 0) =
      .ok (Word.u16 ((chainRuns layout a n .main).flatMap members).length,
        (chainRuns layout a n .main).length) := by
  have hfew := h.few .main
  unfold MaptblSbHeader.slots
  rw [Checked.forEach_flatMap, Checked.forEach_range]
  obtain ⟨counts, hrun, hcounts⟩ := @Checked.forRange_ok _ _
    (fun i counts => Checked.forEach (countExtent lebs) [hdr.extents .main i, hdr.extents .copy i] counts)
    (fun k counts => counts = (Word.u16 (firstMembers (chainRuns layout a n .main) k).length,
      min k (chainRuns layout a n .main).length)) maptblReservedExtents (0, 0)
    (by rw [Nat.zero_min]; rfl) (by
      rintro k hk _ rfl
      have hskip : ∀ s e, 0 < e → Checked.forEach (countExtent lebs) [hdr.extents .copy k] (s, e) =
          .ok (s, e) := fun s e he => by
        rw [h.copy_slot hbackup]
        unfold Checked.forEach countExtent
        simp only
        rw [if_neg (by decide), if_neg (by decide), if_neg (by decide), if_neg (by decide), if_pos he]
        rfl
      refine ⟨_, ?_, rfl⟩
      change countExtent lebs (hdr.extents .main k) _ >>= Checked.forEach (countExtent lebs) [_] = _
      unfold maptblReservedExtents at hk
      rcases h.main_slot hk with ⟨hlt, hslot⟩ | ⟨hge, hempty⟩
      · have hlen := (@main_run layout a n hn _ (List.getElem_mem hlt)).2
        have hcount := @countExtent_seg lebs _ ((chainRuns layout a n .main)[k]).1
          (Word.u16 (firstMembers (chainRuns layout a n .main) k).length)
          (min k (chainRuns layout a n .main).length) hlen
        rw [hslot, hcount, Checked.ok_bind, Nat.min_eq_left (Nat.le_of_lt hlt),
          Nat.min_eq_left (Nat.succ_le_of_lt hlt), Word.u32_of_lt (by omega),
          hskip _ _ (Nat.succ_pos k), firstMembers_succ hlt, List.length_append, length_members]
        have hword : ∀ x y, Word.u16 (Word.u16 x + y) = Word.u16 (x + y) := fun x y =>
          Nat.mod_add_mod ..
        rw [hword]
      · rw [Nat.min_eq_right hge, Nat.min_eq_right (Nat.le_succ_of_le hge), firstMembers_of_le hge,
          firstMembers_of_le (Nat.le_succ_of_le hge), countExtent_empty hempty, Checked.ok_bind,
          hskip _ _ hpos])
  rw [hrun, hcounts, firstMembers_of_le hfew, Nat.min_eq_right hfew]

theorem findMaptblExtent_ok (h : SlotsHold layout a n hdr)
    (hbackup : layout.maptbl.hasBackupCopy = false) (hflags : hdr.flags &&& maptblHasCopy = 0)
    (hn : n < 4294967296) (hlebs : env.lebsPerSeg ≠ 0) {k : Nat}
    (hk : k < (chainRuns layout a n .main).length)
    (hids : ∀ i < n, maptblSegId a i < Word.u64Max)
    (hread : ∀ s ∈ members ((chainRuns layout a n .main)[k]), s < Word.u64Max ∧ SegReadable env dev s) :
    ∃ st', findMaptblExtent env dev hdr k st = .ok st' ∧
      st'.visited = st.visited ++ (members ((chainRuns layout a n .main)[k])).map (.main, ·) ∧
      st'.foundSegs = Word.u32 (st.foundSegs + ((chainRuns layout a n .main)[k]).2) := by
  have hfew := h.few .main
  obtain ⟨⟨i, hi, hstart⟩, hlen⟩ := @main_run layout a n hn _ (List.getElem_mem hk)
  have hslot := h.slot .main k
  rw [List.getElem?_eq_getElem hk, Option.elim_some] at hslot
  generalize (chainRuns layout a n .main)[k] = run at *
  have hid := hids i hi
  rw [← hstart] at hid
  unfold Word.u64Max at hid
  have hstart' : (segExtent run.1 run.2).startId.toNat = run.1 :=
    UInt64.toNat_ofNat_of_lt' (show run.1 < 18446744073709551616 by omega)
  have htype : (segExtent run.1 run.2).type = segExtentType := rfl
  have hlen' : (segExtent run.1 run.2).len.toNat = run.2 :=
    UInt32.toNat_ofNat_of_lt' (show run.2 < UInt32.size by exact hlen)
  obtain ⟨st', hrun, hvisits⟩ := @findSegs_ok env dev .main st _ _ hread hlebs
  refine ⟨{ st' with foundSegs := Word.u32 (st'.foundSegs + run.2) }, ?_, hvisits.visited,
    by rw [hvisits.foundSegs]⟩
  have hitems : findExtentItems env dev .main (segExtent run.1 run.2) st =
      .ok { st' with foundSegs := Word.u32 (st'.foundSegs + run.2) } := by
    unfold findExtentItems
    simp only
    rw [hstart', hlen', htype, if_pos rfl, hrun, Checked.ok_bind]
  have hused : isItemsExtent (segExtent run.1 run.2) = true := rfl
  unfold findMaptblExtent
  rw [fsckLebsPerSeg_ok hlebs, Checked.ok_bind, if_neg (by omega)]
  simp only
  rw [hslot, h.copy_slot hbackup, if_neg (not_not.2 hused), hitems, Checked.ok_bind, hflags]
  rfl

theorem counted (hrun : isMappingTableFound env dev hdr = .ok st) :
    ∃ segsCount extentsCount st₀, 0 < extentsCount ∧ extentsCount ≤ maptblReservedExtents ∧
      0 < segsCount ∧ env.lebsPerSeg ≠ 0 ∧ Word.u32 (segsCount * env.lebsPerSeg) ≠ 0 ∧
      Checked.forEach (countExtent env.lebsPerSeg) hdr.slots (0, 0) = .ok (segsCount, extentsCount) ∧
      st₀.array = LogsArray.allocate (Word.u32 (segsCount * env.lebsPerSeg)) ∧
      Checked.forRange extentsCount (findMaptblExtent env dev hdr) st₀ = .ok st := by
  obtain ⟨st₀, halloc, hrun⟩ := Checked.bind_eq_ok.1 hrun
  unfold allocateMaptblLogsArray at halloc
  split at halloc
  · cases halloc
  obtain ⟨lebs, hlebs, halloc⟩ := Checked.bind_eq_ok.1 halloc
  obtain ⟨rfl, hne⟩ := fsckLebsPerSeg_inv hlebs
  obtain ⟨⟨segsCount, extentsCount⟩, hcount, halloc⟩ := Checked.bind_eq_ok.1 halloc
  obtain ⟨_, -, halloc⟩ := Checked.bind_eq_ok.1 halloc
  simp only at halloc
  split at halloc
  · cases halloc
  split at halloc
  · cases halloc
  case isFalse hsegs hextents =>
    obtain ⟨hzero, halloc⟩ := Checked.bugOn_bind_eq_ok.1 halloc
    obtain ⟨-, halloc⟩ := Checked.bugOn_bind_eq_ok.1 halloc
    cases halloc
    simp only at hrun
    rw [if_neg hextents] at hrun
    exact ⟨segsCount, extentsCount, _, by omega, by omega, by omega, hne, hzero, hcount, rfl, hrun⟩

theorem main_members : (chainRuns layout a n .main).flatMap members =
    (List.range n).map (maptblSegId a) := by
  unfold chainRuns
  rw [if_pos (.inl rfl), members_runs]
  rfl

theorem main_pos : 0 < (chainRuns layout a n .main).length ↔ 0 < n := by
  unfold chainRuns
  rw [if_pos (.inl rfl), length_runs]
  cases n with
  | zero => exact iff_of_false (Nat.lt_irrefl 0) (Nat.lt_irrefl 0)
  | succ n => exact iff_of_true (List.length_pos_iff.2 newest_pos) (Nat.succ_pos n)

theorem chainSegs_main (hwritten : MaptblHeaderWritten layout a hdr) (hn : segsPerCopy layout = .ok n)
    (hlt : n < 4294967296) (hids : ∀ i < n, maptblSegId a i < Word.u64Max) :
    hdr.chainSegs .main = (List.range n).map (maptblSegId a) := by
  have hexact := @defineMaptblExtents_exact n layout a .main hn hlt hids
  unfold MaptblSbHeader.chainSegs
  rw [hexact.result hwritten.main]
  exact slots_segs (fun k _ => emptySlots_type k) hids hlt (hexact.only _ hwritten.main)

theorem chainSegs_copy (h : SlotsHold layout a n hdr) (hbackup : layout.maptbl.hasBackupCopy = false) :
    hdr.chainSegs .copy = [] := by
  unfold MaptblSbHeader.chainSegs
  rw [funext (h.copy_slot hbackup)]
  exact unset_segs

theorem filter_slots (h : SlotsHold layout a n hdr) : (hdr.slots.filter isItemsExtent).length =
    (chainRuns layout a n .main).length + (chainRuns layout a n .copy).length := by
  have hmain := h.few .main
  have hcopy := h.few .copy
  unfold maptblReservedExtents at hmain hcopy
  change (List.filter isItemsExtent [hdr.extents .main 0, hdr.extents .copy 0, hdr.extents .main 1,
    hdr.extents .copy 1, hdr.extents .main 2, hdr.extents .copy 2]).length = _
  simp only [List.filter_cons, h.items, List.filter_nil]
  generalize (chainRuns layout a n .main).length = r at hmain ⊢
  generalize (chainRuns layout a n .copy).length = r' at hcopy ⊢
  interval_cases r <;> interval_cases r' <;> rfl

theorem allocateMaptblLogsArray_ok (h : SlotsHold layout a n hdr)
    (hbackup : layout.maptbl.hasBackupCopy = false) (hlt : n < 4294967296)
    (hquarter : 4 * n ≤ env.fsSize.toNat / env.segSize.toNat) (herase : 4096 ≤ env.eraseSize.toNat)
    (hsb : env.sbSegsFound = true) (hn : n % 65536 ≠ 0) (hlebs : env.lebsPerSeg ≠ 0)
    (hcount : Word.u32 (n % 65536 * env.lebsPerSeg) ≠ 0) :
    allocateMaptblLogsArray env hdr = .ok ⟨n % 65536, 0, (chainRuns layout a n .main).length,
      LogsArray.allocate (Word.u32 (n % 65536 * env.lebsPerSeg)), []⟩ := by
  have hpos : 0 < (chainRuns layout a n .main).length := main_pos.2 (by omega)
  have hfew := h.few .main
  have hseg : env.eraseSize.toNat ≤ env.segSize.toNat := by
    by_contra hsmall
    exact hlebs (Nat.div_eq_of_lt (Nat.not_le.1 hsmall))
  have hslots := h.countSlots hbackup hlt hpos env.lebsPerSeg
  have hlength : ((chainRuns layout a n .main).flatMap members).length = n := by
    rw [main_members, List.length_map, List.length_range]
  rw [hlength] at hslots
  have hfs := env.fsSize.toNat_lt
  have hvolume : env.fsSize.toNat / env.segSize.toNat < 4503599627370496 :=
    (Nat.div_lt_iff_lt_mul (by omega)).2 (by omega)
  have hlebsMul : env.fsSize.toNat / env.segSize.toNat * env.lebsPerSeg ≤ env.fsSize.toNat :=
    Nat.le_trans (Nat.mul_le_mul_left _ (Nat.div_le_self _ _)) (Nat.div_mul_le_self _ _)
  have hthreshold : Word.u64 (env.fsSize.toNat / env.segSize.toNat * 25) / 100 =
      env.fsSize.toNat / env.segSize.toNat / 4 := by
    rw [Word.u64_of_lt (by omega)]
    omega
  have hfit : env.fsSize.toNat / env.segSize.toNat / 4 * env.lebsPerSeg < 18446744073709551616 :=
    Nat.lt_of_le_of_lt (Nat.le_trans (Nat.mul_le_mul_right _ (Nat.div_le_self _ _)) hlebsMul) hfs
  have hle : n % 65536 * env.lebsPerSeg ≤ env.fsSize.toNat / env.segSize.toNat / 4 * env.lebsPerSeg :=
    Nat.mul_le_mul_right _ (by omega)
  have hquot : Search.quot env.fsSize.toNat env.segSize.toNat =
      .ok (env.fsSize.toNat / env.segSize.toNat) := Checked.quot_of_ne (by omega)
  have hbug : Search.bugOn (Word.u32 (n % 65536 * env.lebsPerSeg) = 0) = .ok () :=
    Checked.bugOn_of_not hcount
  have hbug' : Search.bugOn (Word.u32 (n % 65536 * env.lebsPerSeg) >
      Word.u64 (env.fsSize.toNat / env.segSize.toNat / 4 * env.lebsPerSeg)) = .ok () :=
    Checked.bugOn_of_not (by
      rw [Word.u64_of_lt hfit]
      exact Nat.not_lt.2 (Nat.le_trans (Word.u32_le _) hle))
  unfold allocateMaptblLogsArray
  rw [hsb, if_neg (by decide), fsckLebsPerSeg_ok hlebs, Checked.ok_bind, hslots, Checked.ok_bind]
  simp only
  unfold Word.u16
  rw [hquot, Checked.ok_bind, hthreshold, if_neg (by omega), if_neg (by omega), hbug, Checked.ok_bind, hbug', Checked.ok_bind]

theorem no_copy (h : SlotsHold layout a n hdr) (hrun : isMappingTableFound env dev hdr = .ok st) :
    layout.maptbl.hasBackupCopy = false := by
  obtain ⟨segsCount, extentsCount, st₀, hpos, hmax, -, -, -, hslot, -, hloop⟩ := counted hrun
  have hextents := h.extentsCount_le hmax hloop
  have hn := main_pos.1 (Nat.lt_of_lt_of_le hpos hextents)
  have htotal := countExtents (show 0 + 6 < 4294967296 by decide) hslot
  rw [h.filter_slots] at htotal
  cases hcopy : layout.maptbl.hasBackupCopy with
  | false => rfl
  | true =>
    have hcopies : 0 < (chainRuns layout a n .copy).length := by
      unfold chainRuns
      rw [if_pos (.inr hcopy), length_runs]
      obtain ⟨m, rfl⟩ := Nat.exists_eq_succ_of_ne_zero (Nat.pos_iff_ne_zero.1 hn)
      exact List.length_pos_iff.2 newest_pos
    simp only at htotal
    omega

end SlotsHold

theorem visitedOf_single {chain' : MaptblSeg} {l : List Nat} (h : st.visited = l.map (chain, ·)) :
    st.visitedOf chain' = if chain' = chain then l else [] := by
  unfold MaptblDetection.visitedOf
  rw [h, List.filter_map, List.map_map]
  split
  case isTrue heq =>
    subst heq
    have hall : l.filter ((fun x => decide (x.1 = chain')) ∘ fun x => (chain', x)) = l :=
      List.filter_eq_self.2 fun _ _ => decide_eq_true rfl
    rw [hall]
    exact List.map_id l
  case isFalse hne =>
    have hnone : l.filter ((fun x => decide (x.1 = chain')) ∘ fun x => (chain, x)) = [] :=
      List.filter_eq_nil_iff.2 fun _ _ heq => hne (of_decide_eq_true heq).symm
    rw [hnone]
    rfl

/-- The search counts the extents of both chains, but takes their number for that of one chain. -/
theorem isMappingTableFound_iff (hwritten : MaptblHeaderWritten layout a hdr)
    (hn : segsPerCopy layout = .ok n)
    (hids : ∀ chain, UsedChain layout chain → ∀ i < n, chainSegId a n chain i < Word.u64Max)
    (hquarter : 4 * (if layout.maptbl.hasBackupCopy then 2 * n else n) ≤
      env.fsSize.toNat / env.segSize.toNat)
    (herase : 4096 ≤ env.eraseSize.toNat) (hsb : env.sbSegsFound = true)
    (hread : ∀ chain, UsedChain layout chain → ∀ i < n, SegReadable env dev (chainSegId a n chain i)) :
    MaptblFound env dev hdr ↔ layout.maptbl.hasBackupCopy = false ∧ n % 65536 ≠ 0 ∧
      env.lebsPerSeg ≠ 0 ∧ Word.u32 (n % 65536 * env.lebsPerSeg) ≠ 0 := by
  have hlt : n < 4294967296 := by
    obtain ⟨-, rfl⟩ := Checked.quot_eq_ok.1 hn
    exact Nat.lt_of_le_of_lt (Nat.div_le_self _ _) (Word.u32_lt _)
  have hslots := hwritten.slots hn hlt hids
  have hfew := hslots.few .main
  have hmembers := @SlotsHold.main_members layout a n
  have hlength : ((chainRuns layout a n .main).flatMap members).length = n := by
    rw [hmembers, List.length_map, List.length_range]
  constructor
  · rintro ⟨st, hrun, -⟩
    obtain ⟨segsCount, extentsCount, st₀, hpos, hmax, hsegs, hlebs, hcount, hslot, -, hloop⟩ :=
      SlotsHold.counted hrun
    have hextents := hslots.extentsCount_le hmax hloop
    have hn0 := SlotsHold.main_pos.1 (Nat.lt_of_lt_of_le hpos hextents)
    have hbackup := hslots.no_copy hrun
    rw [hslots.countSlots hbackup hlt (SlotsHold.main_pos.2 hn0), hlength] at hslot
    cases hslot
    exact ⟨hbackup, Nat.pos_iff_ne_zero.1 hsegs, hlebs, hcount⟩
  · rintro ⟨hbackup, hn16, hlebs, hcount⟩
    rw [hbackup] at hquarter
    have halloc := hslots.allocateMaptblLogsArray_ok hbackup hlt hquarter herase hsb hn16 hlebs hcount
    have hpos : 0 < (chainRuns layout a n .main).length := SlotsHold.main_pos.2 (by omega)
    have hflags : hdr.flags &&& maptblHasCopy = 0 := by
      by_contra hne
      exact absurd (hbackup.symm.trans (hwritten.flags.1 hne)) Bool.false_ne_true
    obtain ⟨st, hrun, hvisited, hfound⟩ := @Checked.forRange_ok _ _ (findMaptblExtent env dev hdr)
      (fun k st => st.visited = (firstMembers (chainRuns layout a n .main) k).map (.main, ·) ∧
        st.foundSegs = (firstMembers (chainRuns layout a n .main) k).length)
      (chainRuns layout a n .main).length ⟨n % 65536, 0, (chainRuns layout a n .main).length,
        LogsArray.allocate (Word.u32 (n % 65536 * env.lebsPerSeg)), []⟩ ⟨rfl, rfl⟩ fun k hk t ht => by
      have hlisted : ∀ s ∈ members ((chainRuns layout a n .main)[k]),
          s < Word.u64Max ∧ SegReadable env dev s := fun s hs => by
        have hall := List.mem_flatMap.2 ⟨_, List.getElem_mem hk, hs⟩
        rw [hmembers] at hall
        obtain ⟨i, hi, rfl⟩ := List.mem_map.1 hall
        exact ⟨hids .main (.inl rfl) i (List.mem_range.1 hi),
          hread .main (.inl rfl) i (List.mem_range.1 hi)⟩
      obtain ⟨t', hstep, hvisited, hfound⟩ := hslots.findMaptblExtent_ok hbackup hflags hlt hlebs hk
        (hids .main (.inl rfl)) hlisted
      have hsum := firstMembers_succ hk
      have hle : (firstMembers (chainRuns layout a n .main) (k + 1)).length ≤ n :=
        Nat.le_trans length_firstMembers_le (Nat.le_of_eq hlength)
      refine ⟨t', hstep, ?_, ?_⟩
      · rw [hvisited, ht.1, hsum, List.map_append]
      · rw [hsum, List.length_append, length_members] at hle ⊢
        rw [hfound, ht.2, Word.u32_of_lt (by omega)]
    rw [firstMembers_of_le (Nat.le_refl _), hmembers] at hvisited hfound
    refine ⟨st, ?_, fun chain => ?_, ?_⟩
    · unfold isMappingTableFound
      rw [halloc, Checked.ok_bind]
      simp only
      rw [if_neg (by omega), hrun]
    · cases chain with
      | main =>
        rw [SlotsHold.chainSegs_main hwritten hn hlt (hids .main (.inl rfl))]
        exact (visitedOf_single hvisited).trans (if_pos rfl)
      | copy =>
        rw [hslots.chainSegs_copy hbackup]
        exact (visitedOf_single hvisited).trans (if_neg (by decide))
    · rw [SlotsHold.chainSegs_main hwritten hn hlt (hids .main (.inl rfl)),
        hslots.chainSegs_copy hbackup, List.append_nil]
      exact hfound

end

/-- 22 segments of one PEB for each copy. -/
def tableVolume (copy : Bool) : VolumeLayout :=
  { volumeOf 20000 with
    maptbl := (⟨copy, 2, 1, 10, 22, 4096, 1, 8192, 2, 952, 952, 22, 12288⟩ : MaptblLayout) }

def tableEnvironment : FsckEnvironment := ⟨131072, 2621440000, 131072, true⟩

def plainDevice : FsckDevice := ⟨id, fun _ => .ok (), fun _ => .ok (), fun _ => .ok ()⟩

theorem plainDevice_readable {segId : Nat} (h : segId < 44) :
    SegReadable tableEnvironment plainDevice segId := by
  have hlebs : tableEnvironment.lebsPerSeg = 1 := by decide
  intro k hk
  rw [hlebs] at hk ⊢
  have hleb : Word.u64 (segId * 1 + k) = segId + k := by
    rw [Nat.mul_one, Word.u64_of_lt (by omega)]
  rw [hleb]
  refine ⟨?_, rfl, .inl rfl, .inl rfl⟩
  change segId + k < 18446744073709551615
  omega

theorem isMappingTableFound_22 : ∃ hdr, MaptblHeaderWritten (tableVolume false) (tableSegs 22) hdr ∧
    MaptblFound tableEnvironment plainDevice hdr := by
  obtain ⟨hdr, hinit⟩ := @Checked.exists_ok _ _
    (initMaptblSbHeader (tableVolume false) (tableSegs 22) .zlib 0) (by decide +kernel)
  have hwritten := initMaptblSbHeader_written hinit
  have hids : ∀ chain, UsedChain (tableVolume false) chain →
      ∀ i < 22, chainSegId (tableSegs 22) 22 chain i < Word.u64Max := by
    rintro chain -
    cases chain <;> decide
  refine ⟨hdr, hwritten, (isMappingTableFound_iff hwritten (n := 22) (by decide) hids
    (by decide) (by decide) rfl fun chain hc i hi => ?_).2 (by decide)⟩
  refine plainDevice_readable ?_
  obtain rfl : chain = .main := hc.resolve_right (by decide)
  change 0 + i < 44
  omega

def chainsOf (mainExtents copyExtents : Nat → MetaAreaExtent) : MaptblSeg → Nat → MetaAreaExtent
  | .main => mainExtents
  | .copy => copyExtents

/-- Both chains have one extent, and the second slot of the main chain is empty. -/
theorem isMappingTableFound_misses_copy :
    ∃ hdr, MaptblHeaderWritten (tableVolume true) (tableSegs 44) hdr ∧
      (∀ i < 44, SegReadable tableEnvironment plainDevice (maptblSegId (tableSegs 44) i)) ∧
      ¬MaptblFound tableEnvironment plainDevice hdr := by
  obtain ⟨mainExtents, hmain⟩ := @Checked.exists_ok _ _
    (defineMaptblExtents (tableVolume true) (tableSegs 44) .main fun _ => unsetExtent) (by decide +kernel)
  obtain ⟨copyExtents, hcopy⟩ := @Checked.exists_ok _ _
    (defineCopyExtents (tableVolume true) (tableSegs 44)) (by decide +kernel)
  have hwritten : MaptblHeaderWritten (tableVolume true) (tableSegs 44)
      ⟨22, 12288, 0, 0, 0, 1, 1, maptblHasCopy, 0, 0, 0, 0, 2,
        chainsOf mainExtents copyExtents⟩ :=
    ⟨hmain, hcopy, show maptblHasCopy &&& maptblHasCopy ≠ 0 ↔ true = true by decide⟩
  have hids : ∀ chain, UsedChain (tableVolume true) chain →
      ∀ i < 22, chainSegId (tableSegs 44) 22 chain i < Word.u64Max := by
    rintro chain -
    cases chain <;> decide
  have hslots := hwritten.slots (n := 22) (by decide) (by decide) hids
  refine ⟨_, hwritten, fun i hi => plainDevice_readable ?_, ?_⟩
  · change 0 + i < 44
    omega
  · rintro ⟨st, hrun, -⟩
    exact absurd (hslots.no_copy hrun) (by decide)

end Ssdfs
