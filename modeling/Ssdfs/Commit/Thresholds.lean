import Ssdfs.Commit.Meta
import Ssdfs.Commit.Tables

namespace Ssdfs

open Memory

structure MigrationThresholds where
  volume : UInt16
  segbmap : UInt16
  maptbl : UInt16
  deriving Repr, DecidableEq

namespace MigrationThresholds

/-- A threshold that is not set is taken from elsewhere. -/
def correct (pebsPerSeg : Nat) (unset threshold : UInt16) : UInt16 :=
  if threshold.toNat ≥ Word.u16Max then unset
  else if threshold.toNat > pebsPerSeg then UInt16.ofNat pebsPerSeg
  else threshold

def settle (pebsPerSeg : Nat) (requested : MigrationThresholds) : MigrationThresholds :=
  let volume := correct pebsPerSeg (UInt16.ofNat pebsPerSeg) requested.volume
  { volume
    segbmap := correct pebsPerSeg volume requested.segbmap
    maptbl := correct pebsPerSeg volume requested.maptbl }

def of (t : MigrationThresholds) : MetaIndex → UInt16
  | .segbmap => t.segbmap
  | .pebMappingTable => t.maptbl
  | _ => t.volume

end MigrationThresholds

/-- The logs that get a threshold of their own. -/
def hasThreshold (metaIndex : MetaIndex) : Prop :=
  metaIndex = .segbmap ∨ metaIndex = .pebMappingTable

/-- A full log ends with a footer and not with the header of a partial log. -/
def PebContent.HasLogFooter (peb : PebContent) : Prop :=
  ∃ buf, (peb.extents .logFooter).buf = some buf ∧ Wire.u16.read buf magicKeyOffset = logFooterMagic

instance (peb : PebContent) : Decidable peb.HasLogFooter :=
  decidable_of_iff ((peb.extents .logFooter).buf.any
    (fun buf => Wire.u16.read buf magicKeyOffset = logFooterMagic) = true) (by
      rw [Option.any_eq_true]
      exact exists_congr fun buf => and_congr Iff.rfl decide_eq_true_iff)

def FooterCarries (crc32 : UInt32 → List UInt8 → UInt32) (peb : PebContent) (threshold : UInt16) :
    Prop :=
  ∃ buf, (peb.extents .logFooter).buf = some buf ∧
    Wire.u16.read buf VolumeState.migrationThresholdOffset = threshold ∧
    isCsumValid crc32 buf recordCheckOffset logFooterSize = true

section

variable {crc32 : UInt32 → List UInt8 → UInt32} {layout : VolumeLayout} {src : CommitSource}
  {peb peb' : PebContent} {seg : SegmentDesc} {extent : ExtentDesc} {buf : Bytes} {blks i : Nat}
  {segType : Option MetaIndex} {st st' : Bytes × UInt32} {descArray off : Nat} {has : Bool}
  {flag : UInt32} {prepare : ExtentDesc → Mkfs MetadataDescriptor}

theorem copyRange_inside {dst src : Bytes} {srcOff len : Nat} (h : off ≤ i ∧ i < off + len) :
    copyRange dst off src srcOff len i = src (srcOff + (i - off)) := if_pos h

theorem copyRange_frame {dst src : Bytes} {srcOff len : Nat} (h : i < off ∨ off + len ≤ i) :
    copyRange dst off src srcOff len i = dst i := if_neg (by omega)

theorem commitBackup_frame (h : commitBackup extent has off flag prepare st = .ok st')
    (hi : i < off ∨ off + 16 ≤ i) : st'.1 i = st.1 i := by
  unfold commitBackup at h
  split at h
  case isTrue =>
    obtain ⟨desc, -, h⟩ := Checked.bind_eq_ok.1 h
    cases h
    exact MetadataDescriptorRecord.wire.write_frame hi
  case isFalse =>
    cases h
    rfl

theorem commitBackups_frame (h : commitBackups crc32 layout src peb descArray st = .ok st')
    (hi : i < descArray) : st'.1 i = st.1 i := by
  obtain ⟨t, ht, h⟩ := Checked.bind_eq_ok.1 h
  rw [commitBackup_frame h (.inl (by omega)), commitBackup_frame ht (.inl (by omega))]

theorem fillLogFooter_key (logBytes : Nat) (buf : Bytes) :
    Wire.u16.read (fillLogFooter src logBytes buf) magicKeyOffset = logFooterMagic := by
  unfold fillLogFooter
  simp only
  rw [Wire.read_write_of_disjoint _ _ (.inl (by decide)), Wire.read_write_of_disjoint _ _ (.inl (by decide)),
    Wire.read_write_of_disjoint _ _ (.inl (by decide)), Wire.read_write_of_disjoint _ _ (.inl (by decide))]
  exact Wire.u16.read_write ..

theorem fillLogFooter_threshold (logBytes : Nat) (buf : Bytes) :
    Wire.u16.read (fillLogFooter src logBytes buf) VolumeState.migrationThresholdOffset =
      Wire.u16.read src.vs VolumeState.migrationThresholdOffset := by
  unfold fillLogFooter
  simp only
  rw [Wire.read_write_of_disjoint _ _ (.inl (by decide)), Wire.read_write_of_disjoint _ _ (.inl (by decide)),
    Wire.read_write_of_disjoint _ _ (.inl (by decide)), Wire.read_write_of_disjoint _ _ (.inl (by decide)),
    Wire.read_write_of_disjoint _ _ (.inr (by decide))]
  refine Wire.u16.read_congr fun i hi => ?_
  have hi : i < 2 := hi
  rw [copyRange_inside ⟨Nat.zero_le _, ?_⟩, Nat.zero_add, Nat.sub_zero]
  unfold VolumeState.migrationThresholdOffset VolumeState.size
  omega

theorem read_sealLogFooter {at_ : Nat} (hlow : at_ + 2 ≤ 8 ∨ 16 ≤ at_) (hhigh : at_ + 2 ≤ 0xAC) :
    Wire.u16.read (sealLogFooter crc32 src st) at_ = Wire.u16.read st.1 at_ := by
  have hzones : at_ + Wire.u16.size ≤ VolumeState.openZonesOffset := hhigh
  have hflags : at_ + Wire.u16.size ≤ LogFooter.logFlagsOffset :=
    Nat.le_trans hhigh (by decide)
  unfold sealLogFooter
  simp only
  rw [read_sealRecord _ hlow, Wire.read_write_of_disjoint _ _ (.inl hflags),
    Wire.read_write_of_disjoint _ _ (.inl hzones)]

/-- A footer carries the threshold of the volume's state, whatever stood in its place. -/
theorem commitFullLogFooter_ok (h : commitFullLogFooter crc32 layout src segType blks peb = .ok peb') :
    (∃ buf, peb' = peb.setBuf .logFooter buf) ∧ peb'.HasLogFooter ∧
      FooterCarries crc32 peb' (Wire.u16.read src.vs VolumeState.migrationThresholdOffset) := by
  obtain ⟨old, -, h⟩ := Checked.bind_eq_ok.1 h
  obtain ⟨st, hbackups, h⟩ := Checked.bind_eq_ok.1 h
  cases h
  have hbuf : ((peb.setBuf .logFooter (sealLogFooter crc32 src st)).extents .logFooter).buf =
      some (sealLogFooter crc32 src st) := by rw [PebContent.extents_setBuf_self]
  have hread : ∀ at_, at_ + 2 ≤ 0x420 → Wire.u16.read st.1 at_ =
      Wire.u16.read (fillLogFooter src _ old) at_ := fun at_ hat =>
    Wire.u16.read_congr fun i hi => commitBackups_frame hbackups (by
      have hi : i < 2 := hi
      unfold LogFooter.descArrayOffset
      omega)
  refine ⟨⟨_, rfl⟩, ⟨_, hbuf, ?_⟩, _, hbuf, ?_, ?_⟩
  · rw [read_sealLogFooter (by decide) (by decide), hread _ (by decide), fillLogFooter_key]
  · rw [read_sealLogFooter (by decide) (by decide), hread _ (by decide), fillLogFooter_threshold]
  · exact isCsumValid_sealRecord (by decide) (Nat.le_refl _)

theorem read_copyRange {α : Type} (w : Wire α) {dst src : Bytes} {srcOff len at_ : Nat}
    (h : at_ + w.size ≤ off) : w.read (copyRange dst off src srcOff len) at_ = w.read dst at_ :=
  w.read_congr fun _ hi => copyRange_frame (.inl (by omega))

theorem startPartialLogHeader_key (logPages logBytes : Nat) : Wire.u16.read
    (startPartialLogHeader src segType logPages logBytes) magicKeyOffset = partialLogHdrMagic := by
  unfold startPartialLogHeader
  simp (disch := decide) only [read_copyRange, Wire.read_write_of_disjoint]
  rfl

theorem fillPartialLogHeader_key : Wire.u16.read (fillPartialLogHeader src seg peb buf) magicKeyOffset =
    Wire.u16.read buf magicKeyOffset := by
  unfold fillPartialLogHeader
  simp (disch := decide) only [read_copyRange, Wire.read_write_of_disjoint]

theorem commitPartialLogHeader_ok
    (h : commitPartialLogHeader crc32 layout src seg blks peb = .ok peb') :
    (∃ buf, peb' = peb.setBuf .logFooter buf) ∧ ¬peb'.HasLogFooter := by
  obtain ⟨_, -, h⟩ := Checked.bind_eq_ok.1 h
  obtain ⟨-, h⟩ := bugOn_bind_eq_ok.1 h
  obtain ⟨⟨logPages, less⟩, -, h⟩ := Checked.bind_eq_ok.1 h
  obtain ⟨st, hbackups, h⟩ := Checked.bind_eq_ok.1 h
  cases h
  refine ⟨⟨_, rfl⟩, ?_⟩
  rintro ⟨buf, hbuf, hkey⟩
  rw [PebContent.extents_setBuf_self] at hbuf
  cases hbuf
  have hstart : Wire.u16.read st.1 magicKeyOffset = Wire.u16.read (startPartialLogHeader src
      seg.segType logPages (blks * layout.pageSize.bytes)) magicKeyOffset :=
    Wire.u16.read_congr fun i hi => commitBackups_frame hbackups (by
      have hi : i < 2 := hi
      unfold magicKeyOffset PartialLogHeader.descArrayOffset
      omega)
  rw [read_sealRecord _ (.inl (by decide)), Wire.read_write_of_disjoint _ _ (.inl (by decide)),
    fillPartialLogHeader_key, hstart, startPartialLogHeader_key] at hkey
  exact absurd hkey (by decide)

theorem commitLogFooter_ok (htype : ∃ metaIndex, seg.segType = some metaIndex ∧ hasThreshold metaIndex)
    (h : commitLogFooter crc32 layout src seg blks peb = .ok peb') :
    (∃ buf, peb' = peb.setBuf .logFooter buf) ∧ (peb'.HasLogFooter →
      FooterCarries crc32 peb' (Wire.u16.read src.vs VolumeState.migrationThresholdOffset)) := by
  obtain ⟨metaIndex, htype, hkind⟩ := htype
  obtain ⟨-, h⟩ := bugOn_bind_eq_ok.1 h
  rw [htype] at h
  rcases hkind with rfl | rfl
  all_goals
    simp only at h
    split at h
    case isTrue =>
      obtain ⟨hbuf, hpartial⟩ := commitPartialLogHeader_ok h
      exact ⟨hbuf, fun hfull => absurd hfull hpartial⟩
    case isFalse =>
      obtain ⟨hbuf, -, hcarries⟩ := commitFullLogFooter_ok h
      exact ⟨hbuf, fun _ => hcarries⟩

theorem FooterCarries.congr {threshold : UInt16}
    (hfooter : peb'.extents .logFooter = peb.extents .logFooter) :
    FooterCarries crc32 peb' threshold ↔ FooterCarries crc32 peb threshold := by
  unfold FooterCarries
  rw [hfooter]

theorem PebContent.HasLogFooter.congr (hfooter : peb'.extents .logFooter = peb.extents .logFooter) :
    peb'.HasLogFooter ↔ peb.HasLogFooter := by
  unfold PebContent.HasLogFooter
  rw [hfooter]

variable {logs : MetaLogs} {a a' : SegsArray} {pebIndex segIndex : Nat}

theorem commitPeb_ok
    (htype : ∃ metaIndex, (a.segs segIndex).segType = some metaIndex ∧ hasThreshold metaIndex)
    (h : commitPeb crc32 layout src logs a segIndex pebIndex peb = .ok peb') (hfull : peb'.HasLogFooter) :
    FooterCarries crc32 peb' (Wire.u16.read src.vs VolumeState.migrationThresholdOffset) := by
  obtain ⟨_, -, h⟩ := Checked.bind_eq_ok.1 h
  obtain ⟨_, -, h⟩ := Checked.bind_eq_ok.1 h
  obtain ⟨peb₁, hfooter, h⟩ := Checked.bind_eq_ok.1 h
  obtain ⟨hdr, rfl, -⟩ := commitSegmentHeader_described h
  have hsame : (peb₁.setBuf .segHeader hdr).extents .logFooter = peb₁.extents .logFooter :=
    PebContent.extents_setBuf_of_ne (by decide)
  rw [PebContent.HasLogFooter.congr hsame] at hfull
  rw [FooterCarries.congr hsame]
  exact (commitLogFooter_ok htype hfooter).2 hfull

def FootersCarry (crc32 : UInt32 → List UInt8 → UInt32) (threshold : UInt16) (a : SegsArray) : Prop :=
  ∀ i j, (∃ metaIndex, (a.segs i).segType = some metaIndex ∧ hasThreshold metaIndex) →
    ((a.segs i).pebs j).HasLogFooter → FooterCarries crc32 ((a.segs i).pebs j) threshold

theorem FootersCarry.setPeb {threshold : UInt16} (h : FootersCarry crc32 threshold a)
    (hpeb : (∃ metaIndex, (a.segs segIndex).segType = some metaIndex ∧ hasThreshold metaIndex) →
      peb.HasLogFooter → FooterCarries crc32 peb threshold) :
    FootersCarry crc32 threshold (a.setSeg segIndex
      { a.segs segIndex with pebs := Function.update (a.segs segIndex).pebs pebIndex peb }) := by
  intro i j htype hfull
  unfold SegsArray.setSeg at htype hfull ⊢
  by_cases hi : i = segIndex
  · subst hi
    simp only [Function.update_self] at htype hfull ⊢
    by_cases hj : j = pebIndex
    · subst hj
      rw [Function.update_self] at hfull ⊢
      exact hpeb htype hfull
    · rw [Function.update_of_ne hj] at hfull ⊢
      exact h i j htype hfull
  · simp only [Function.update_of_ne hi] at htype hfull ⊢
    exact h i j htype hfull

theorem commitPebs_carry {rest fragmentIndex fragmentIndex' : Nat}
    (hcarry : FootersCarry crc32 (Wire.u16.read src.vs VolumeState.migrationThresholdOffset) a)
    (h : commitPebs crc32 layout src logs segIndex rest pebIndex (a, fragmentIndex) =
      .ok (a', fragmentIndex')) :
    FootersCarry crc32 (Wire.u16.read src.vs VolumeState.migrationThresholdOffset) a' := by
  induction rest generalizing pebIndex a fragmentIndex with
  | zero =>
    cases h
    exact hcarry
  | succ rest ih =>
    unfold commitPebs at h
    split at h
    case isTrue =>
      cases h
      exact hcarry
    case isFalse =>
      obtain ⟨-, h⟩ := bugOn_bind_eq_ok.1 h
      obtain ⟨payload, -, h⟩ := Checked.bind_eq_ok.1 h
      split at h
      case isTrue =>
        cases h
        exact hcarry
      case isFalse =>
        obtain ⟨peb, hpeb, h⟩ := Checked.bind_eq_ok.1 h
        exact ih (hcarry.setPeb fun htype => commitPeb_ok htype hpeb) h

theorem metaMkfsCommit_carry
    (hcarry : FootersCarry crc32 (Wire.u16.read src.vs VolumeState.migrationThresholdOffset) a)
    (h : metaMkfsCommit crc32 layout src logs a = .ok a') :
    FootersCarry crc32 (Wire.u16.read src.vs VolumeState.migrationThresholdOffset) a' := by
  obtain ⟨-, h⟩ := failIf_bind_eq_ok.1 h
  obtain ⟨-, h⟩ := failIf_bind_eq_ok.1 h
  obtain ⟨⟨b, fragmentIndex⟩, hloop, h⟩ := Checked.bind_eq_ok.1 h
  cases h
  exact Checked.forRange_ind (fun _ (st : SegsArray × Nat) => FootersCarry crc32 _ st.1) hloop hcarry
    fun i _ t t' ht hstep => commitPebs_carry ht hstep

end

section

variable {crc32 : UInt32 → List UInt8 → UInt32} {layout : VolumeLayout} {src : CommitSource}
  {g : SegbmapGeometry} {requested : MigrationThresholds} {vs : Bytes} {a a₁ a₂ : SegsArray}
  {i j : Nat} {metaIndex : MetaIndex}

/-- A full log carries the threshold of its structure exactly if that is the volume's. -/
theorem commit_thresholds_iff
    (hvs : src.vs = Wire.u16.write vs VolumeState.migrationThresholdOffset
      (requested.settle layout.pebsPerSeg).volume)
    (hfresh : ∀ i j, (∃ metaIndex, (a.segs i).segType = some metaIndex ∧ hasThreshold metaIndex) →
      ¬((a.segs i).pebs j).HasLogFooter)
    (h₁ : segbmapMkfsCommit crc32 layout src g (requested.settle layout.pebsPerSeg).segbmap a = .ok a₁)
    (h₂ : maptblMkfsCommit crc32 layout src (requested.settle layout.pebsPerSeg).maptbl a₁ = .ok a₂)
    (htype : (a₂.segs i).segType = some metaIndex) (hkind : hasThreshold metaIndex)
    (hfull : ((a₂.segs i).pebs j).HasLogFooter) :
    FooterCarries crc32 ((a₂.segs i).pebs j) ((requested.settle layout.pebsPerSeg).of metaIndex) ↔
      (requested.settle layout.pebsPerSeg).of metaIndex = (requested.settle layout.pebsPerSeg).volume := by
  have hvolume : Wire.u16.read src.vs VolumeState.migrationThresholdOffset =
      (requested.settle layout.pebsPerSeg).volume := by
    rw [hvs]
    exact Wire.u16.read_write ..
  obtain ⟨-, h₂⟩ := quot_bind_eq_ok.1 h₂
  have hcarry := metaMkfsCommit_carry (metaMkfsCommit_carry
    (fun i j htype hfull => absurd hfull (hfresh i j htype)) h₁) h₂
  obtain ⟨buf, hbuf, hthreshold, hcsum⟩ := hcarry i j ⟨metaIndex, htype, hkind⟩ hfull
  rw [hvolume] at hthreshold
  constructor
  · rintro ⟨buf', hbuf', hthreshold', -⟩
    obtain rfl := Option.some.inj (hbuf.symm.trans hbuf')
    exact hthreshold'.symm.trans hthreshold
  · intro heq
    exact ⟨buf, hbuf, hthreshold.trans heq.symm, hcsum⟩

end

def eightPebs : VolumeLayout where
  needEraseDevice := false
  segSize := 1048576
  pageSize := .kib4
  nandDiesCount := 1
  lebsPerPebIndex := 1
  segbmap := ⟨false, 8⟩
  maptbl := ⟨false, 1, 1, 10, 1, 4096, 1, 4096, 1, 8, 8, 1, 8192⟩
  env := ⟨67108864, 131072, .blk⟩

def oneFragment : SegbmapGeometry := ⟨16, 1, 1, 1, 1, 4096⟩

def tablePayload : MetaIndex → Bytes
  | .segbmap, 0 => 0x4D
  | .segbmap, 1 => 0x53
  | .pebMappingTable, 0 => 0x74
  | .pebMappingTable, 1 => 0x4C
  | .pebMappingTable, 29 => 0x10
  | .pebMappingTable, 4096 => 0x74
  | .pebMappingTable, 4097 => 0x50
  | .pebMappingTable, 4125 => 0x10
  | _, _ => 0

def tableLogs : SegsArray where
  metaArray
    | .segbmap => ⟨0, 1, .dedicated⟩
    | _ => ⟨1, 1, .dedicated⟩
  segs i :=
    let metaIndex := if i = 0 then .segbmap else .pebMappingTable
    { segType := some metaIndex
      segState := .dedicated
      segId := i
      pebs _ := segbmapLog 512 fun k => if k = .logPayload then tablePayload metaIndex else fun _ => 0
      pebsCount := 1
      pebsCapacity := 8 }
  segsCapacity := 2
  segsCount := 0
  lastAllocatedSegIndex := 1

def commit3 (t : MigrationThresholds) : CommitSource :=
  { commit32 with
    vs := Wire.u16.write (fun _ => 0) VolumeState.migrationThresholdOffset t.volume
    segbmapLogPages := 3
    maptblLogPages := 3 }

def segbmapThreshold2 : MigrationThresholds :=
  MigrationThresholds.settle eightPebs.pebsPerSeg ⟨65535, 2, 65535⟩

theorem tableLogs_commit : ∃ a₁ a₂,
    segbmapMkfsCommit crc32 eightPebs (commit3 segbmapThreshold2) oneFragment
      segbmapThreshold2.segbmap tableLogs = .ok a₁ ∧
    maptblMkfsCommit crc32 eightPebs (commit3 segbmapThreshold2) segbmapThreshold2.maptbl a₁ =
      .ok a₂ ∧
    ((a₂.segs 0).segType = some .segbmap ∧ ((a₂.segs 0).pebs 0).HasLogFooter) ∧
    (a₂.segs 1).segType = some .pebMappingTable ∧ ((a₂.segs 1).pebs 0).HasLogFooter := by
  have hrun : ((do
      let a₁ ← segbmapMkfsCommit crc32 eightPebs (commit3 segbmapThreshold2) oneFragment
        segbmapThreshold2.segbmap tableLogs
      let a₂ ← maptblMkfsCommit crc32 eightPebs (commit3 segbmapThreshold2)
        segbmapThreshold2.maptbl a₁
      bugOn (¬(((a₂.segs 0).segType = some .segbmap ∧ ((a₂.segs 0).pebs 0).HasLogFooter) ∧
        (a₂.segs 1).segType = some .pebMappingTable ∧ ((a₂.segs 1).pebs 0).HasLogFooter))) :
      Mkfs Unit) = .ok () := by
    rfl
  obtain ⟨a₁, h₁, hrun⟩ := Checked.bind_eq_ok.1 hrun
  obtain ⟨a₂, h₂, hrun⟩ := Checked.bind_eq_ok.1 hrun
  exact ⟨a₁, a₂, h₁, h₂, not_not.1 (bugOn_eq_ok.1 hrun)⟩

theorem tableLogs_fresh (i j : Nat) : ¬((tableLogs.segs i).pebs j).HasLogFooter := by
  rintro ⟨buf, hbuf, hkey⟩
  have hzero : buf = fun _ => 0 := (Option.some.inj hbuf).symm
  rw [hzero] at hkey
  exact absurd hkey (by decide)

theorem commit_thresholds_maptbl8 : ∃ a₁ a₂,
    segbmapMkfsCommit crc32 eightPebs (commit3 segbmapThreshold2) oneFragment 2 tableLogs = .ok a₁ ∧
    maptblMkfsCommit crc32 eightPebs (commit3 segbmapThreshold2) 8 a₁ = .ok a₂ ∧
    FooterCarries crc32 ((a₂.segs 1).pebs 0) 8 := by
  obtain ⟨a₁, a₂, h₁, h₂, -, htype, hfull⟩ := tableLogs_commit
  exact ⟨a₁, a₂, h₁, h₂, (@commit_thresholds_iff crc32 eightPebs (commit3 segbmapThreshold2) oneFragment
    ⟨65535, 2, 65535⟩ (fun _ => 0) tableLogs a₁ a₂ 1 0 .pebMappingTable rfl
    (fun i j _ => tableLogs_fresh i j) h₁ h₂ htype (.inr rfl) hfull).2 rfl⟩

/-- The footer of the segment bitmap's log has the threshold of the volume. -/
theorem commit_thresholds_loses_2 : ∃ a₁ a₂,
    segbmapMkfsCommit crc32 eightPebs (commit3 segbmapThreshold2) oneFragment 2 tableLogs = .ok a₁ ∧
    maptblMkfsCommit crc32 eightPebs (commit3 segbmapThreshold2) 8 a₁ = .ok a₂ ∧
    ((a₂.segs 0).pebs 0).HasLogFooter ∧ ¬FooterCarries crc32 ((a₂.segs 0).pebs 0) 2 := by
  obtain ⟨a₁, a₂, h₁, h₂, ⟨htype, hfull⟩, -⟩ := tableLogs_commit
  refine ⟨a₁, a₂, h₁, h₂, hfull, ?_⟩
  rintro ⟨buf, hbuf, hthreshold, -⟩
  obtain ⟨-, h₂⟩ := quot_bind_eq_ok.1 h₂
  obtain ⟨buf', hbuf', hvolume, -⟩ := metaMkfsCommit_carry (metaMkfsCommit_carry
    (fun i j _ hfull => absurd hfull (tableLogs_fresh i j)) h₁) h₂ 0 0 ⟨_, htype, .inl rfl⟩ hfull
  obtain rfl := Option.some.inj (hbuf.symm.trans hbuf')
  rw [hthreshold] at hvolume
  exact absurd hvolume (by decide)

end Ssdfs
