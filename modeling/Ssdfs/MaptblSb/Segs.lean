import Ssdfs.MaptblSb.Extents
import Ssdfs.Segbmap.Coverage
import Ssdfs.Segbmap.Sound

namespace Ssdfs

open Runs

/-- The rounded quotient of a wrapped product gives the factor back while nothing wraps around. -/
theorem wrappedRoundUp {n b : Nat} (hn : 0 < n) (hb : 0 < b) (hlt : b < 4294967296) :
    (n ≤ Word.u32 (Word.u32 (n * b) + b - 1) / b ↔ (n + 1) * b ≤ 4294967296) ∧
      ((n + 1) * b ≤ 4294967296 → Word.u32 (Word.u32 (n * b) + b - 1) / b = n) := by
  have heq : (n + 1) * b ≤ 4294967296 → Word.u32 (Word.u32 (n * b) + b - 1) / b = n := fun h => by
    rw [Nat.succ_mul] at h
    rw [Word.u32_of_lt (n := n * b) (by omega), Word.u32_of_lt (by omega), Nat.add_sub_assoc hb,
      Nat.mul_comm, Nat.mul_add_div hb, Nat.div_eq_of_lt (by omega), Nat.add_zero]
  refine ⟨⟨fun h => ?_, fun h => Nat.le_of_eq (heq h).symm⟩, heq⟩
  by_contra hwrap
  rw [Nat.succ_mul] at hwrap
  have hmul := (Nat.le_div_iff_mul_le hb).1 h
  have hle := Nat.le_mul_of_pos_left b hn
  unfold Word.u32 at hmul
  generalize n * b = x at hmul hwrap hle
  omega

section

variable {layout layout' : VolumeLayout} {a a' b : SegsArray} {compression : Compression}
  {preErasedPebs fuel segs : Nat}

def reservedSegIds (a : SegsArray) : List Nat :=
  (List.range (a.metaArray .pebMappingTable).segsCount).map (maptblSegId a)

/-- The later phases take the number of segments, and the header lists them. -/
structure MaptblSegsAccepted (layout : VolumeLayout) (a : SegsArray) (compression : Compression)
    (preErasedPebs : Nat) : Prop where
  count : maptblCheckSegsCount layout a = .ok ()
  listed : ∃ hdr, initMaptblSbHeader layout a compression preErasedPebs = .ok hdr ∧
    hdr.chainSegs .main ++ hdr.chainSegs .copy = reservedSegIds a ∧
    (layout.maptbl.hasBackupCopy = false → hdr.chainSegs .copy = [])

@[simp] theorem unset_segs : ((List.range maptblReservedExtents).flatMap fun _ => unsetExtent.segs) = [] := rfl

theorem maptblCompressionFlag_ok (h : compression ≠ .unknown) :
    ∃ flag, maptblCompressionFlag compression = .ok flag := by
  cases compression
  case unknown => exact absurd rfl h
  all_goals exact ⟨_, rfl⟩

theorem initMaptblSbHeader_exact (hbackup : layout.maptbl.hasBackupCopy = false)
    (herase : layout.env.eraseSize.toNat ≠ 0) (hstripes : layout.maptbl.stripesPerPortion ≠ 0)
    (hcompression : compression ≠ .unknown)
    (hlt : (a.metaArray .pebMappingTable).segsCount < 4294967296)
    (hids : ∀ i < (a.metaArray .pebMappingTable).segsCount, maptblSegId a i < Word.u64Max) :
    Checked.Exact (initMaptblSbHeader layout a compression preErasedPebs)
      (segsPerCopy layout = .ok (a.metaArray .pebMappingTable).segsCount ∧
        portionsPerSeg layout < Word.u16Max ∧
        (runs (maptblSegId a) (a.metaArray .pebMappingTable).segsCount).length ≤
          maptblReservedExtents)
      fun hdr => hdr.chainSegs .main = reservedSegIds a ∧ hdr.chainSegs .copy = [] := by
  obtain ⟨flag, hflag⟩ := maptblCompressionFlag_ok hcompression
  unfold initMaptblSbHeader
  simp only [quot, Checked.quot_of_ne herase, Checked.ok_bind, hflag, roundUpQuot_ok hstripes]
  have hcopy : defineCopyExtents layout a = .ok fun _ => unsetExtent := by
    unfold defineCopyExtents
    rw [hbackup]
    rfl
  rw [hcopy]
  constructor
  · rintro ⟨hn, hq, hfew⟩
    obtain ⟨_, hextents, rfl⟩ := (@defineMaptblExtents_exact _ layout a .main hn hlt hids).succeeds hfew
    rw [hn, Checked.ok_bind, bugOn_of_not (Nat.not_le.2 hq), Checked.ok_bind,
      failIf_of_not (by rw [hbackup]; rintro ⟨h, -⟩; cases h), Checked.ok_bind,
      failIf_of_not (not_not.2 rfl), Checked.ok_bind, hextents, Checked.ok_bind]
    exact ⟨_, rfl, slots_segs (fun k _ => emptySlots_type k) hids hlt hfew, unset_segs⟩
  · intro hdr h
    obtain ⟨n, hn, h⟩ := Checked.bind_eq_ok.1 h
    obtain ⟨hq, h⟩ := bugOn_bind_eq_ok.1 h
    obtain ⟨-, h⟩ := failIf_bind_eq_ok.1 h
    obtain ⟨hsame, h⟩ := failIf_bind_eq_ok.1 h
    obtain ⟨extents, hextents, -⟩ := Checked.bind_eq_ok.1 h
    rw [← not_not.1 hsame] at hlt hids ⊢
    exact ⟨hn, Nat.not_le.1 hq,
      (@defineMaptblExtents_exact _ layout a .main hn hlt hids).only _ hextents⟩

theorem maptblCheckSegsCount_eq_ok : maptblCheckSegsCount layout a = .ok () ↔ layout.pebsPerSeg ≠ 0 ∧
    0 < (a.metaArray .pebMappingTable).segsCount ∧ (a.metaArray .pebMappingTable).segsCount ≤
      Word.u32 (layout.maptbl.maptblPebs + layout.pebsPerSeg - 1) / layout.pebsPerSeg := by
  unfold maptblCheckSegsCount
  refine quot_bind_eq_ok.trans (and_congr_right fun _ => ?_)
  unfold failIf
  split
  case isTrue h => exact iff_of_false (fail_ne_ok _ _) (by omega)
  case isFalse h => exact iff_of_true rfl (by omega)

theorem u32_mul_u32 (n p f : Nat) : Word.u32 (Word.u32 (n * p) * f) = Word.u32 (n * Word.u32 (p * f)) := by
  unfold Word.u32
  rw [Nat.mod_mul_mod, Nat.mul_mod_mod, Nat.mul_assoc]

theorem initMaptblSbHeader_backup {hdr : MaptblSbHeader} (hbackup : layout.maptbl.hasBackupCopy = true)
    (h : initMaptblSbHeader layout a compression preErasedPebs = .ok hdr) :
    (a.metaArray .pebMappingTable).segsCount = 0 := by
  obtain ⟨-, h⟩ := quot_bind_eq_ok.1 h
  obtain ⟨n, hn, h⟩ := Checked.bind_eq_ok.1 h
  obtain ⟨-, h⟩ := bugOn_bind_eq_ok.1 h
  obtain ⟨_, -, h⟩ := Checked.bind_eq_ok.1 h
  obtain ⟨_, -, h⟩ := Checked.bind_eq_ok.1 h
  obtain ⟨htwice, h⟩ := failIf_bind_eq_ok.1 h
  obtain ⟨hsame, -⟩ := failIf_bind_eq_ok.1 h
  have hlt : n < 4294967296 := by
    obtain ⟨-, rfl⟩ := Checked.quot_eq_ok.1 hn
    exact Nat.lt_of_le_of_lt (Nat.div_le_self _ _) (Word.u32_lt _)
  have htwice' : Word.u32 (n * 2) = (a.metaArray .pebMappingTable).segsCount := by
    by_contra hne
    exact htwice ⟨hbackup, hne⟩
  have hsame' : n = (a.metaArray .pebMappingTable).segsCount := not_not.1 hsame
  unfold Word.u32 at htwice'
  omega

/-- `layout'` and `segs` are what the policy makes of the options. -/
theorem maptblSegs_accepted_iff (hpolicy : maptblMkfsAllocationPolicy fuel layout a = .ok (layout', a', segs))
    (hcount : (b.metaArray .pebMappingTable).segsCount = segs)
    (hids : ∀ i < segs, maptblSegId b i < Word.u64Max) (hcompression : compression ≠ .unknown) :
    MaptblSegsAccepted layout' b compression preErasedPebs ↔
      layout.maptbl.hasBackupCopy = false ∧ 0 < segs ∧
      0 < portionsPerSeg layout' ∧ portionsPerSeg layout' < Word.u16Max ∧
      (segs + 1) * portionsPerSeg layout' ≤ 4294967296 ∧
      (segs + 1) * layout.pebsPerSeg ≤ 4294967296 ∧
      (runs (maptblSegId b) segs).length ≤ maptblReservedExtents := by
  have haccepted := maptblMkfsAllocationPolicy_accepted hpolicy
  obtain ⟨s, d, ppf, n, hchosen, hlayout, hsegs, -⟩ := maptblMkfsAllocationPolicy_inv hpolicy
  have hpps : layout'.pebsPerSeg = layout.pebsPerSeg := by rw [hlayout]; rfl
  have hhas : layout'.maptbl.hasBackupCopy = layout.maptbl.hasBackupCopy := by rw [hlayout]; rfl
  have herase : layout'.env.eraseSize.toNat ≠ 0 := fun h => by
    have := hchosen.pebs_ne
    unfold VolumeLayout.pebsPerVolume at this
    rw [hlayout] at h
    change layout.env.eraseSize.toNat = 0 at h
    rw [h, Nat.div_zero] at this
    exact this rfl
  cases hbackup : layout.maptbl.hasBackupCopy with
  | true =>
    refine iff_of_false (fun h => ?_) fun h => nomatch h.1
    obtain ⟨hdr, hinit, -⟩ := h.listed
    have hzero := initMaptblSbHeader_backup (hhas.trans hbackup) hinit
    obtain ⟨-, hpos, -⟩ := maptblCheckSegsCount_eq_ok.1 h.count
    exact Nat.ne_of_gt hpos hzero
  | false =>
    have hsegs' : segs = n := by
      rw [hsegs]
      unfold copiesOf
      rw [hbackup]
      rfl
    have hP := layout.pebsPerSeg_lt
    have hn : n < 4294967296 :=
      Nat.lt_of_le_of_lt (Nat.le_mul_of_pos_right n (Nat.pos_of_ne_zero hchosen.pebsPerSeg_ne))
        hchosen.pebs_lt
    have hpebs : layout'.maptbl.maptblPebs = Word.u32 (n * layout.pebsPerSeg) := by
      rw [hlayout]
      rfl
    have hportions : layout'.maptbl.portionsCount = Word.u32 (n * portionsPerSeg layout') := by
      have hq : portionsPerSeg layout' = Word.u32 (layout.pebsPerSeg * ppf) := by
        rw [hlayout]
        rfl
      rw [hq, ← u32_mul_u32, hlayout]
      rfl
    have hq : portionsPerSeg layout' < 4294967296 := Word.u32_lt _
    rw [← hsegs'] at hn hpebs hportions
    rw [← hcount] at hids hn hpebs hportions ⊢
    have hinit := @initMaptblSbHeader_exact layout' b compression preErasedPebs (hhas.trans hbackup)
      herase (Nat.pos_iff_ne_zero.1 haccepted.stripes_pos) hcompression hn hids
    have hcheck := @maptblCheckSegsCount_eq_ok layout' b
    rw [hpps, hpebs] at hcheck
    have hP0 := Nat.pos_of_ne_zero hchosen.pebsPerSeg_ne
    have hper : ∀ m, segsPerCopy layout' = .ok m ↔ portionsPerSeg layout' ≠ 0 ∧
        m = Word.u32 (Word.u32 ((b.metaArray .pebMappingTable).segsCount * portionsPerSeg layout') +
          portionsPerSeg layout' - 1) / portionsPerSeg layout' := fun m => by
      rw [← hportions]
      exact Checked.quot_eq_ok
    constructor
    · intro h
      obtain ⟨-, hpos, hle⟩ := hcheck.1 h.count
      obtain ⟨hdr, hrun, -⟩ := h.listed
      obtain ⟨hcopy, hqlt, hfew⟩ := hinit.only hdr hrun
      obtain ⟨hqne, heq⟩ := (hper _).1 hcopy
      have hqpos := Nat.pos_of_ne_zero hqne
      exact ⟨rfl, hpos, hqpos, hqlt, (wrappedRoundUp hpos hqpos hq).1.1 (Nat.le_of_eq heq),
        (wrappedRoundUp hpos hP0 hP).1.1 hle, hfew⟩
    · rintro ⟨-, hpos, hqpos, hqlt, hqfit, hPfit, hfew⟩
      obtain ⟨hdr, hrun, hmain, hunset⟩ := hinit.succeeds
        ⟨(hper _).2 ⟨Nat.pos_iff_ne_zero.1 hqpos, ((wrappedRoundUp hpos hqpos hq).2 hqfit).symm⟩, hqlt,
          hfew⟩
      refine ⟨hcheck.2 ⟨hchosen.pebsPerSeg_ne, hpos, (wrappedRoundUp hpos hP0 hP).1.2 hPfit⟩, hdr,
        hrun, ?_, fun _ => hunset⟩
      rw [hmain, hunset, List.append_nil]

end

/-- The array with `n` segments of one PEB for the mapping table, numbered from 0 on. -/
def tableSegs (n : Nat) : SegsArray where
  metaArray _ := ⟨0, n, .dedicated⟩
  segs i := ⟨some .pebMappingTable, .dedicated, i, fun _ => ⟨i, i, fun _ => ⟨none, 0, 0⟩⟩, 0, 1⟩
  segsCapacity := n
  segsCount := 0
  lastAllocatedSegIndex := 0

def withCopy (layout : VolumeLayout) : VolumeLayout :=
  { layout with maptbl.hasBackupCopy := true }

theorem maptblPolicy_run {layout : VolumeLayout} {n q : Nat} {copy : Bool}
    (h : (maptblMkfsAllocationPolicy 5 layout (tableSegs 0)).map (fun r =>
      (r.1.maptbl.hasBackupCopy, portionsPerSeg r.1, r.2.2)) = .ok (copy, q, n)) :
    ∃ layout' a, maptblMkfsAllocationPolicy 5 layout (tableSegs 0) = .ok (layout', a, n) ∧
      layout'.maptbl.hasBackupCopy = copy ∧ portionsPerSeg layout' = q := by
  cases hrun : maptblMkfsAllocationPolicy 5 layout (tableSegs 0) with
  | error e =>
    rw [hrun] at h
    cases h
  | ok r =>
    rw [hrun] at h
    simp only [Except.map, Except.ok.injEq, Prod.mk.injEq] at h
    obtain ⟨hcopy, hq, hn⟩ := h
    exact ⟨r.1, r.2.1, by rw [← hn], hcopy, hq⟩

theorem maptblSegs_accepted_22 : ∃ layout' a,
    maptblMkfsAllocationPolicy 5 (volumeOf 20000) (tableSegs 0) = .ok (layout', a, 22) ∧
      MaptblSegsAccepted layout' (tableSegs 22) .zlib 0 := by
  obtain ⟨layout', a, hpolicy, -, hq⟩ := @maptblPolicy_run (volumeOf 20000) 22 1 false
    (by decide +kernel)
  have hids : ∀ i < 22, maptblSegId (tableSegs 22) i < Word.u64Max := by decide
  refine ⟨layout', a, hpolicy, (maptblSegs_accepted_iff hpolicy rfl hids (by decide)).2 ?_⟩
  rw [hq]
  decide

/-- The 22 segments of each of two copies are not 44 segments of one copy. -/
theorem maptblSegs_rejected_44 : ∃ layout' a,
    maptblMkfsAllocationPolicy 5 (withCopy (volumeOf 20000)) (tableSegs 0) = .ok (layout', a, 44) ∧
      ¬MaptblSegsAccepted layout' (tableSegs 44) .zlib 0 := by
  obtain ⟨layout', a, hpolicy, hcopy, -⟩ := @maptblPolicy_run (withCopy (volumeOf 20000)) 44 1 true
    (by decide +kernel)
  refine ⟨layout', a, hpolicy, fun h => ?_⟩
  obtain ⟨hdr, hinit, -⟩ := h.listed
  exact absurd (initMaptblSbHeader_backup hcopy hinit) (by decide)

end Ssdfs
