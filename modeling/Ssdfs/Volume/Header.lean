import Ssdfs.Lib.FirstSet
import Ssdfs.Volume.Settle

namespace Ssdfs

def bytesPerMb : Nat := 1048576

/-- `ilog2` takes an `int`; for zero it is `-1`, which is 255 in the field. -/
def ilog2Byte (n : Nat) : UInt8 := UInt8.ofNat (firstSet 32 (Word.u32 n) + 255)

/-- `1 << log`, which the language leaves undefined from 32 places on. -/
def shiftedOne (log : UInt8) : Option Nat :=
  if log.toNat < 32 then some (2 ^ log.toNat) else none

structure VolumeHeader where
  logPagesize : UInt8
  logErasesize : UInt8
  logSegsize : UInt8
  logPebsPerSeg : UInt8
  megabytesPerPeb : UInt16
  pebsPerSeg : UInt16
  createThreadsPerSeg : UInt16
  lebsPerPebIndex : UInt32
  flags : UInt32
  deriving Repr, DecidableEq

def vhZnsBasedVolume : UInt32 := 1
def vhUnalignedZone : UInt32 := 2

def zoneFlags (logErasesize : UInt8) (erasesize megabytesPerPeb : Nat) : UInt32 :=
  if megabytesPerPeb > 0 ∧ shiftedOne logErasesize ≠ some erasesize then
    vhZnsBasedVolume ||| vhUnalignedZone
  else vhZnsBasedVolume

def volumeHeaderFlags (deviceType : DeviceType) (logErasesize : UInt8)
    (erasesize megabytesPerPeb : Nat) : Mkfs UInt32 :=
  match deviceType with
  | .mtd | .blk => .ok 0
  | .zns => .ok (zoneFlags logErasesize erasesize megabytesPerPeb)
  | .max => .error .abort

def sbPrepareVolumeHeader (layout : VolumeLayout) : Mkfs VolumeHeader := do
  let segsize := layout.segSize.toNat
  let erasesize := layout.env.eraseSize.toNat
  let pebsPerSeg ← quot segsize erasesize
  let pebsPerSeg := Word.u32 pebsPerSeg
  failIf (pebsPerSeg ≥ Word.u16Max) .erange
  let megabytesPerPeb := erasesize / bytesPerMb
  failIf (megabytesPerPeb ≥ Word.u16Max) .erange
  let logErasesize := ilog2Byte erasesize
  let flags ← volumeHeaderFlags layout.env.deviceType logErasesize erasesize megabytesPerPeb
  let createThreadsPerSeg := min layout.nandDiesCount.toNat pebsPerSeg
  bugOn (createThreadsPerSeg ≥ Word.u16Max)
  .ok {
    logPagesize := ilog2Byte layout.pageSize.bytes
    logErasesize
    logSegsize := ilog2Byte segsize
    logPebsPerSeg := ilog2Byte pebsPerSeg
    megabytesPerPeb := UInt16.ofNat megabytesPerPeb
    pebsPerSeg := UInt16.ofNat pebsPerSeg
    createThreadsPerSeg := UInt16.ofNat createThreadsPerSeg
    lebsPerPebIndex := layout.lebsPerPebIndex
    flags }

def readerEraseSize (vh : VolumeHeader) : Option Nat := shiftedOne vh.logErasesize
def readerSegSize (vh : VolumeHeader) : Option Nat := shiftedOne vh.logSegsize

def readerPebOffset (vh : VolumeHeader) (pebId : Nat) : Option Nat :=
  (readerEraseSize vh).map fun eraseSize => Word.u64 (pebId * eraseSize)

/-- The readers see the sizes of the layout, or are told that they cannot and go by megabytes. -/
structure SizesReadBack (vh : VolumeHeader) (layout : VolumeLayout) : Prop where
  sizes : readerEraseSize vh = some layout.env.eraseSize.toNat ∧
      readerSegSize vh = some layout.segSize.toNat ∨
    vh.flags &&& vhUnalignedZone ≠ 0 ∧
      readerEraseSize vh = some (vh.megabytesPerPeb.toNat * bytesPerMb)
  offsets : ∀ pebId < layout.pebsPerVolume,
    readerPebOffset vh pebId = some (pebId * layout.env.eraseSize.toNat)

section

variable {n k erase seg : Nat} {vh : VolumeHeader} {layout options : VolumeLayout}
  {sectorsPerZone : Option UInt32}

theorem shiftedOne_eq_some {log : UInt8} : shiftedOne log = some n ↔ log.toNat < 32 ∧ n = 2 ^ log.toNat := by
  unfold shiftedOne
  by_cases hlog : log.toNat < 32
  · rw [if_pos hlog, Option.some_inj]
    exact ⟨fun h => ⟨hlog, h.symm⟩, fun h => h.2.symm⟩
  · rw [if_neg hlog]
    exact ⟨fun h => (nomatch h), fun h => absurd h.1 hlog⟩

theorem ilog2Byte_toNat (h : firstSet 32 (Word.u32 n) = k + 1) : (ilog2Byte n).toNat = k := by
  have hle : firstSet 32 (Word.u32 n) ≤ 32 := firstSet_le
  unfold ilog2Byte
  rw [UInt8.toNat_ofNat', h]
  omega

theorem ilog2Byte_zero (h : firstSet 32 (Word.u32 n) = 0) : (ilog2Byte n).toNat = 255 := by
  unfold ilog2Byte
  rw [UInt8.toNat_ofNat', h]

theorem shiftedOne_ilog2Byte : shiftedOne (ilog2Byte n) = some n ↔ ∃ k < 32, n = 2 ^ k := by
  rw [shiftedOne_eq_some]
  constructor
  · rintro ⟨hlog, hn⟩
    exact ⟨_, hlog, hn⟩
  · rintro ⟨k, hk, rfl⟩
    have hlt : 2 ^ k < 2 ^ 32 := Nat.pow_lt_pow_right (by decide) hk
    have hlog : (ilog2Byte (2 ^ k)).toNat = k := ilog2Byte_toNat (by
      rw [Word.u32_of_lt hlt, firstSet_two_pow hk])
    rw [hlog]
    exact ⟨hk, rfl⟩

theorem shiftedOne_dvd (hn : n < 4294967296) (h : shiftedOne (ilog2Byte n) = some k) : k ∣ n := by
  obtain ⟨hlog, rfl⟩ := shiftedOne_eq_some.1 h
  cases hplace : firstSet 32 (Word.u32 n) with
  | zero =>
    rw [ilog2Byte_zero hplace] at hlog
    exact absurd hlog (by decide)
  | succ place =>
    rw [ilog2Byte_toNat hplace]
    have hdvd := firstSet_dvd hplace
    rwa [Word.u32_of_lt hn] at hdvd

/-- Rounded down to megabytes a zone is never its lowest set bit, unless it is that bit. -/
theorem megabytes_ne_shiftedOne (herase : erase < 4294967296) (hmb : 0 < erase / bytesPerMb)
    (hlog : shiftedOne (ilog2Byte erase) ≠ some erase) :
    shiftedOne (ilog2Byte erase) ≠ some (erase / bytesPerMb * bytesPerMb) := fun h => by
  obtain ⟨m, hm⟩ := shiftedOne_dvd herase h
  have hle : bytesPerMb ≤ erase := Nat.le_of_not_lt fun hlt => by
    rw [Nat.div_eq_of_lt hlt] at hmb
    exact absurd hmb (Nat.lt_irrefl 0)
  have hdvd : bytesPerMb ∣ erase := by
    rw [hm]
    exact Nat.dvd_mul_right_of_dvd (Nat.dvd_mul_left ..) m
  rw [Nat.div_mul_cancel hdvd] at h
  exact hlog h

structure HeaderSizes (layout : VolumeLayout) (vh : VolumeHeader) : Prop where
  logErasesize : vh.logErasesize = ilog2Byte layout.env.eraseSize.toNat
  logSegsize : vh.logSegsize = ilog2Byte layout.segSize.toNat
  megabytesPerPeb : vh.megabytesPerPeb.toNat = layout.env.eraseSize.toNat / bytesPerMb
  unaligned : vh.flags &&& vhUnalignedZone ≠ 0 → 0 < layout.env.eraseSize.toNat / bytesPerMb ∧
    shiftedOne vh.logErasesize ≠ some layout.env.eraseSize.toNat

theorem zoneFlags_unaligned {log : UInt8} {mb : Nat} (h : zoneFlags log erase mb &&& vhUnalignedZone ≠ 0) :
    0 < mb ∧ shiftedOne log ≠ some erase := by
  unfold zoneFlags at h
  split at h
  · rename_i hzone
    exact hzone
  · exact absurd rfl h

theorem volumeHeaderFlags_unaligned {deviceType : DeviceType} {log : UInt8} {mb : Nat} {flags : UInt32}
    (h : volumeHeaderFlags deviceType log erase mb = .ok flags) (hflag : flags &&& vhUnalignedZone ≠ 0) :
    0 < mb ∧ shiftedOne log ≠ some erase := by
  cases deviceType with
  | mtd | blk =>
    obtain rfl := Except.ok.inj h
    exact absurd (by decide) hflag
  | zns =>
    obtain rfl := Except.ok.inj h
    exact zoneFlags_unaligned hflag
  | max => cases h

theorem sbPrepareVolumeHeader_sizes (h : sbPrepareVolumeHeader layout = .ok vh) :
    HeaderSizes layout vh := by
  unfold sbPrepareVolumeHeader at h
  obtain ⟨-, h⟩ := quot_bind_eq_ok.1 h
  obtain ⟨-, h⟩ := failIf_bind_eq_ok.1 h
  obtain ⟨hmb, h⟩ := failIf_bind_eq_ok.1 h
  obtain ⟨flags, hflags, h⟩ := Checked.bind_eq_ok.1 h
  obtain ⟨-, h⟩ := bugOn_bind_eq_ok.1 h
  obtain rfl := Except.ok.inj h
  refine ⟨rfl, rfl, UInt16.toNat_ofNat_of_lt' ?_, volumeHeaderFlags_unaligned hflags⟩
  unfold Word.u16Max at hmb
  exact Nat.lt_of_not_le fun hle => hmb (Nat.le_of_succ_le hle)

theorem HeaderSizes.readBack_iff (h : HeaderSizes layout vh) : SizesReadBack vh layout ↔
    (∃ k < 32, layout.env.eraseSize.toNat = 2 ^ k) ∧ ∃ k < 32, layout.segSize.toNat = 2 ^ k := by
  have herase : readerEraseSize vh = shiftedOne (ilog2Byte layout.env.eraseSize.toNat) := by
    unfold readerEraseSize
    rw [h.logErasesize]
  have hseg : readerSegSize vh = shiftedOne (ilog2Byte layout.segSize.toNat) := by
    unfold readerSegSize
    rw [h.logSegsize]
  constructor
  · rintro ⟨⟨he, hs⟩ | ⟨hflag, he⟩, -⟩
    · rw [herase] at he
      rw [hseg] at hs
      exact ⟨shiftedOne_ilog2Byte.1 he, shiftedOne_ilog2Byte.1 hs⟩
    · obtain ⟨hmb, hlog⟩ := h.unaligned hflag
      rw [h.logErasesize] at hlog
      rw [herase, h.megabytesPerPeb] at he
      exact absurd he (megabytes_ne_shiftedOne layout.env.eraseSize.toNat_lt hmb hlog)
  · rintro ⟨he, hs⟩
    have he := shiftedOne_ilog2Byte.2 he
    refine ⟨.inl ⟨herase.trans he, hseg.trans (shiftedOne_ilog2Byte.2 hs)⟩, fun pebId hpeb => ?_⟩
    have hlt : pebId * layout.env.eraseSize.toNat < 18446744073709551616 :=
      Nat.lt_of_le_of_lt (Nat.le_trans (Nat.mul_le_mul_right _ (Nat.le_of_lt hpeb))
        (Nat.div_mul_le_self ..)) layout.env.fsSize.toNat_lt
    unfold readerPebOffset
    rw [herase, he, Option.map_some, Word.u64_of_lt hlt]

theorem volumeHeader_readBack_iff (hsettle : settleKeyCreationOptions sectorsPerZone options = .ok layout)
    (hprepare : sbPrepareVolumeHeader layout = .ok vh) : SizesReadBack vh layout ↔
      (∃ k < 32, settledEraseSize sectorsPerZone options = 2 ^ k) ∧
        ∃ k < 32, settledSegSize sectorsPerZone options = 2 ^ k := by
  obtain ⟨herase, hseg⟩ := settleKeyCreationOptions_sizes hsettle
  rw [← herase, ← hseg]
  exact (sbPrepareVolumeHeader_sizes hprepare).readBack_iff

end

/-- Erase blocks of 8 MiB, with the options that a run asks for. -/
def headerOptions (segSize fsSize : UInt64) (deviceType : DeviceType) : VolumeLayout where
  needEraseDevice := false
  segSize
  pageSize := .kib4
  nandDiesCount := 1
  lebsPerPebIndex := 65536
  segbmap := ⟨false, 1⟩
  maptbl := ⟨false, 1, 1, 10, 0, 0, 0, 0, 0, 0, 0, 0, 0⟩
  env := ⟨fsSize, 8388608, deviceType⟩

theorem volumeHeader_readBack_8 : ∃ layout vh,
    settleKeyCreationOptions none (headerOptions 8388608 68719476736 .blk) = .ok layout ∧
      sbPrepareVolumeHeader layout = .ok vh ∧ SizesReadBack vh layout := by
  obtain ⟨layout, hsettle⟩ : ∃ layout, settleKeyCreationOptions none
      (headerOptions 8388608 68719476736 .blk) = .ok layout := Checked.exists_ok rfl
  have hlayout := Except.ok.inj hsettle
  obtain ⟨vh, hprepare⟩ : ∃ vh, sbPrepareVolumeHeader layout = .ok vh := Checked.exists_ok (by
    rw [← hlayout]
    rfl)
  exact ⟨layout, vh, hsettle, hprepare,
    (volumeHeader_readBack_iff hsettle hprepare).2 ⟨⟨23, by decide, rfl⟩, ⟨23, by decide, rfl⟩⟩⟩

/-- The logarithm of a segment of 4 GiB is taken of an `int` that is zero. -/
theorem volumeHeader_loses_4g : ∃ layout vh,
    settleKeyCreationOptions none (headerOptions 4294967296 68719476736 .blk) = .ok layout ∧
      sbPrepareVolumeHeader layout = .ok vh ∧ ¬SizesReadBack vh layout := by
  obtain ⟨layout, hsettle⟩ : ∃ layout, settleKeyCreationOptions none
      (headerOptions 4294967296 68719476736 .blk) = .ok layout := Checked.exists_ok rfl
  have hlayout := Except.ok.inj hsettle
  obtain ⟨vh, hprepare⟩ : ∃ vh, sbPrepareVolumeHeader layout = .ok vh := Checked.exists_ok (by
    rw [← hlayout]
    rfl)
  refine ⟨layout, vh, hsettle, hprepare, fun hback => ?_⟩
  obtain ⟨-, k, hk, hseg⟩ := (sbPrepareVolumeHeader_sizes hprepare).readBack_iff.1 hback
  have hlt : 2 ^ k < 2 ^ 32 := Nat.pow_lt_pow_right (by decide) hk
  rw [← hseg, ← hlayout] at hlt
  exact absurd hlt (by decide)

end Ssdfs
