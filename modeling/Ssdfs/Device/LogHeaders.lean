import Mathlib.Data.List.TakeWhile
import Ssdfs.Commit.Footer
import Ssdfs.Lib.Loop
import Ssdfs.Lib.UpTo

namespace Ssdfs

open Memory

/-- `ssdfs_pread` never returns from a read that leaves the device, and reports what lies behind the
largest offset of a file. -/
def deviceRead (dev : Buf) (offset size : Nat) : Mkfs Bytes :=
  if size = 0 ∨ offset + size ≤ dev.size then .ok fun i => dev.data (offset + i)
  else if offset + size < 9223372036854775808 then .error .fuel
  else fail .einval

theorem deviceRead_inside {dev : Buf} {offset size : Nat} (h : offset + size ≤ dev.size) :
    deviceRead dev offset size = .ok fun i => dev.data (offset + i) := if_pos (.inr h)

inductive SbSeg
  | cur
  | next
  | reserved
  | prev
  deriving Repr, DecidableEq

def SbSeg.index : SbSeg → Nat
  | cur => 0
  | next => 1
  | reserved => 2
  | prev => 3

inductive SbSegCopy
  | main
  | copy
  deriving Repr, DecidableEq

def SbSegCopy.index : SbSegCopy → Nat
  | main => 0
  | copy => 1

def sbSegTypeId : Nat := 1
def logHeaderSize : Nat := 2048

def logHasFooterBit : Nat := 7
def plhInsteadFooterBit : Nat := 10

def hasMagic (key : UInt16) (hdr : Bytes) : Bool :=
  peek hdr 4 0 = superMagic.toNat ∧ peek hdr 2 4 = key.toNat

def isSsdfsSegmentHeader (hdr : Bytes) : Bool := hasMagic segmentHdrMagic hdr
def isSsdfsPartialLogHeader (hdr : Bytes) : Bool := hasMagic partialLogHdrMagic hdr
def isSsdfsLogFooter (hdr : Bytes) : Bool := hasMagic logFooterMagic hdr

/-! The fields of `struct ssdfs_segment_header` that the tools read. -/

namespace SegHdr

def logPagesize (hdr : Bytes) : Nat := peek hdr 1 0x10
def sbPeb (hdr : Bytes) (seg : SbSeg) (segCopy : SbSegCopy) : Nat :=
  peek hdr 8 (0x30 + (seg.index * 2 + segCopy.index) * 16 + 8)
def logPages (hdr : Bytes) : Nat := peek hdr 2 0x410
def segType (hdr : Bytes) : Nat := peek hdr 2 0x412
def segFlags (hdr : Bytes) : Nat := peek hdr 4 0x414
def footerOffset (hdr : Bytes) : Nat := peek hdr 4 0x498
def footerSize (hdr : Bytes) : Nat := peek hdr 4 0x49C

end SegHdr

/-! The fields of `struct ssdfs_partial_log_header` that the tools read. -/

namespace PlHdr

def plFlags (hdr : Bytes) : Nat := peek hdr 4 0x24
def logBytes (hdr : Bytes) : Nat := peek hdr 4 0x28
def footerOffset (hdr : Bytes) : Nat := peek hdr 4 0xB0
def footerSize (hdr : Bytes) : Nat := peek hdr 4 0xB4

end PlHdr

namespace LogFooter

def logBytes (footer : Bytes) : Nat := peek footer 4 0x410

end LogFooter

def readSegmentHeader {E : Type} (read : Nat → Nat → Checked E Bytes) (pebId pebSize logOffset : Nat) :
    Checked E Bytes :=
  let offset :=
    if pebId = 0 then
      if logOffset = 0 then reservedVbrSize else logOffset
    else Word.u64 (Word.u64 (pebId * pebSize) + logOffset)
  read offset logHeaderSize

section

variable (crc32 : UInt32 → List UInt8 → UInt32) (read : Nat → Nat → Mkfs Bytes)
  (eraseSize fsSize : Nat)

def isValidSegmentHeader (hdr : Bytes) : Bool :=
  isSsdfsSegmentHeader hdr && isCsumValid crc32 hdr SegHdr.checkOffset segmentHeaderSize

/-- The offset and the factor of the next try: the second erase block comes behind the first one, and
then each step is twice as wide as the one before. -/
def nextPebOffset (st : Nat × Nat) : Nat × Nat :=
  let (offset, factor) := st
  if offset = reservedVbrSize then (eraseSize, factor)
  else
    let factor := Word.u64 (factor * 2)
    (Word.u64 (offset + Word.u64 (factor * eraseSize)), factor)

def findAnyValidPebRound (st : Nat × Nat) : Mkfs (Round (Nat × Nat) (Option Bytes)) := do
  let pebId ← quot st.1 eraseSize
  let hdr ← readSegmentHeader read pebId eraseSize 0
  if isValidSegmentHeader crc32 hdr then .ok (.leave (some hdr))
  else
    let st := nextPebOffset eraseSize st
    if st.1 < fsSize then .ok (.again st) else .ok (.leave none)

def foundPeb : Option Bytes → Mkfs Bytes
  | some hdr => .ok hdr
  | none => fail .enodata

/-- `ssdfs_find_any_valid_peb` and its sibling of `dump.ssdfs`. -/
def findAnyValidPeb (fuel : Nat) : Mkfs Bytes := do
  let found ← Checked.loop (findAnyValidPebRound crc32 read eraseSize fsSize) fuel (reservedVbrSize, 1)
  foundPeb found

/-! What the search is for: the first valid one of some PEBs. -/

/-- The PEBs that are tried on a device: 0, 1, 3, 7, 15 and so on. -/
def probedPebs : List Nat :=
  0 :: ((List.range 64).map fun k => 2 ^ (k + 1) - 1).takeWhile fun pebId => pebId * eraseSize < fsSize

def firstValidPeb : List Nat → Mkfs Bytes
  | [] => fail .enodata
  | pebId :: pebIds => do
    let hdr ← readSegmentHeader read pebId eraseSize 0
    if isValidSegmentHeader crc32 hdr then .ok hdr else firstValidPeb pebIds

end

section

variable {crc32 : UInt32 → List UInt8 → UInt32} {read : Nat → Nat → Mkfs Bytes}
  {eraseSize fsSize fuel k : Nat}

/-- The offset and the factor of try `k`. -/
def probeState (eraseSize : Nat) : Nat → Nat × Nat
  | 0 => (reservedVbrSize, 1)
  | k + 1 => ((2 ^ (k + 1) - 1) * eraseSize, 2 ^ k)

/-- The offset is inside of PEB `2 ^ k - 1`. -/
theorem probeState_peb (herase : reservedVbrSize < eraseSize) :
    (probeState eraseSize k).1 / eraseSize = 2 ^ k - 1 := by
  cases k with
  | zero => exact Nat.div_eq_of_lt herase
  | succ k => exact Nat.mul_div_cancel _ (Nat.zero_lt_of_lt herase)

theorem nextPebOffset_probeState (herase : reservedVbrSize < eraseSize)
    (hfs : 2 * fsSize + eraseSize ≤ 18446744073709551616)
    (hin : k ≠ 0 → (2 ^ k - 1) * eraseSize < fsSize) :
    nextPebOffset eraseSize (probeState eraseSize k) = probeState eraseSize (k + 1) := by
  cases k with
  | zero =>
    unfold nextPebOffset probeState
    simp
  | succ k =>
    have hlt := hin (Nat.succ_ne_zero k)
    have hpos := Nat.two_pow_pos k
    have hpow : 2 ^ (k + 1 + 1) = 2 ^ (k + 1) + 2 ^ (k + 1) := by omega
    have hsum : (2 ^ (k + 1) - 1) * eraseSize + 2 ^ (k + 1) * eraseSize =
        (2 ^ (k + 1 + 1) - 1) * eraseSize := by
      rw [← Nat.add_mul]
      congr 1
      omega
    have hwide : 2 ^ (k + 1) * eraseSize = (2 ^ (k + 1) - 1) * eraseSize + eraseSize := by
      rw [Nat.sub_one_mul, Nat.sub_add_cancel (Nat.le_mul_of_pos_left _ (Nat.two_pow_pos _))]
    have hfactor : 2 ^ (k + 1) ≤ 2 ^ (k + 1) * eraseSize :=
      Nat.le_mul_of_pos_right _ (Nat.zero_lt_of_lt herase)
    have hne : (2 ^ (k + 1) - 1) * eraseSize ≠ reservedVbrSize := by
      have hle := Nat.le_mul_of_pos_left eraseSize (by omega : 0 < 2 ^ (k + 1) - 1)
      omega
    have hnext : Word.u64 (2 ^ k * 2) = 2 ^ (k + 1) := Word.u64_of_lt (by omega)
    have hstep : Word.u64 (2 ^ (k + 1) * eraseSize) = 2 ^ (k + 1) * eraseSize :=
      Word.u64_of_lt (by omega)
    unfold nextPebOffset probeState
    simp only
    rw [if_neg hne, hnext, hstep, hsum, Word.u64_of_lt (by omega)]

/-- The tries behind try `k`, of which there may be `m`. -/
def laterProbes (eraseSize fsSize k m : Nat) : List Nat :=
  ((List.range' k m).map fun k => 2 ^ (k + 1) - 1).takeWhile fun pebId => pebId * eraseSize < fsSize

theorem laterProbes_succ {m : Nat} : laterProbes eraseSize fsSize k (m + 1) =
    if (2 ^ (k + 1) - 1) * eraseSize < fsSize then
      (2 ^ (k + 1) - 1) :: laterProbes eraseSize fsSize (k + 1) m
    else [] := by
  unfold laterProbes
  rw [List.range'_succ, List.map_cons, List.takeWhile_cons]
  simp only [decide_eq_true_eq]

theorem loop_findAnyValidPebRound {m : Nat} (herase : reservedVbrSize < eraseSize)
    (hfs : 2 * fsSize + eraseSize ≤ 18446744073709551616)
    (hin : k ≠ 0 → (2 ^ k - 1) * eraseSize < fsSize) (hm : k + m = 64) (hfuel : m < fuel) :
    (Checked.loop (findAnyValidPebRound crc32 read eraseSize fsSize) fuel (probeState eraseSize k) >>=
      foundPeb) =
      firstValidPeb crc32 read eraseSize ((2 ^ k - 1) :: laterProbes eraseSize fsSize k m) := by
  obtain ⟨fuel, rfl⟩ := Nat.exists_eq_succ_of_ne_zero (Nat.ne_zero_of_lt hfuel)
  induction m generalizing k fuel with
  | zero =>
    have hlt := hin (by omega)
    have hle := Nat.le_mul_of_pos_right (2 ^ k - 1) (Nat.zero_lt_of_lt herase)
    obtain rfl : k = 64 := hm
    omega
  | succ m ih =>
    have hbody : findAnyValidPebRound crc32 read eraseSize fsSize (probeState eraseSize k) =
        readSegmentHeader read (2 ^ k - 1) eraseSize 0 >>= fun hdr =>
          if isValidSegmentHeader crc32 hdr then .ok (.leave (some hdr))
          else if (2 ^ (k + 1) - 1) * eraseSize < fsSize then .ok (.again (probeState eraseSize (k + 1)))
          else .ok (.leave none) := by
      unfold findAnyValidPebRound
      rw [quot, Checked.quot_of_ne (Nat.ne_zero_of_lt herase), Checked.ok_bind, probeState_peb herase]
      simp only
      rw [nextPebOffset_probeState herase hfs hin]
      rfl
    unfold firstValidPeb
    cases hread : readSegmentHeader read (2 ^ k - 1) eraseSize 0 with
    | error e =>
      rw [hread] at hbody
      rw [Checked.loop_error hbody]
      rfl
    | ok hdr =>
      rw [hread, Checked.ok_bind] at hbody
      rw [Checked.ok_bind]
      by_cases hvalid : isValidSegmentHeader crc32 hdr
      · rw [if_pos hvalid] at hbody ⊢
        rw [Checked.loop_leave hbody]
        rfl
      · rw [if_neg hvalid] at hbody ⊢
        rw [laterProbes_succ]
        by_cases hnext : (2 ^ (k + 1) - 1) * eraseSize < fsSize
        · rw [if_pos hnext] at hbody ⊢
          obtain ⟨fuel, rfl⟩ := Nat.exists_eq_succ_of_ne_zero (by omega : fuel ≠ 0)
          rw [Checked.loop_again hbody]
          exact ih (fun _ => hnext) (by omega) _ (by omega)
        · rw [if_neg hnext] at hbody ⊢
          rw [Checked.loop_leave hbody]
          rfl

theorem probedPebs_eq :
    probedPebs eraseSize fsSize = (2 ^ 0 - 1) :: laterProbes eraseSize fsSize 0 64 := by
  unfold probedPebs laterProbes
  rw [List.range_eq_range']
  rfl

theorem findAnyValidPeb_eq (herase : reservedVbrSize < eraseSize)
    (hfs : 2 * fsSize + eraseSize ≤ 18446744073709551616) (hfuel : 64 < fuel) :
    findAnyValidPeb crc32 read eraseSize fsSize fuel =
      firstValidPeb crc32 read eraseSize (probedPebs eraseSize fsSize) := by
  rw [probedPebs_eq]
  exact loop_findAnyValidPebRound herase hfs (fun hne => absurd rfl hne) rfl hfuel

theorem laterProbes_inside {m : Nat} :
    ∀ pebId ∈ laterProbes eraseSize fsSize k m, pebId * eraseSize < fsSize := by
  intro pebId hpeb
  unfold laterProbes at hpeb
  simpa using List.mem_takeWhile_imp hpeb

end

/-! The search on a device. -/

section

variable (crc32 : UInt32 → List UInt8 → UInt32) (dev : Buf) (eraseSize fsSize : Nat)

def probedPlace (pebId : Nat) : Nat := if pebId = 0 then reservedVbrSize else pebId * eraseSize

def probedHeader (pebId : Nat) : Bytes := fun i => dev.data (probedPlace eraseSize pebId + i)

def HeaderOnDevice (pebId : Nat) : Prop := probedPlace eraseSize pebId + logHeaderSize ≤ dev.size

instance : DecidablePred (HeaderOnDevice dev eraseSize) := fun pebId =>
  inferInstanceAs (Decidable (probedPlace eraseSize pebId + logHeaderSize ≤ dev.size))

def holdsHeader (pebId : Nat) : Bool := isValidSegmentHeader crc32 (probedHeader dev eraseSize pebId)

def lookedAt : List Nat := upTo (holdsHeader crc32 dev eraseSize) (probedPebs eraseSize fsSize)

/-- What the search should give: the first valid header, or none; it hangs in a read behind the device. -/
def searchResult : Mkfs Bytes :=
  if ∀ pebId ∈ lookedAt crc32 dev eraseSize fsSize, HeaderOnDevice dev eraseSize pebId then
    match (probedPebs eraseSize fsSize).find? (holdsHeader crc32 dev eraseSize) with
    | some pebId => .ok (probedHeader dev eraseSize pebId)
    | none => fail .enodata
  else .error .fuel

end

section

variable {crc32 : UInt32 → List UInt8 → UInt32} {dev : Buf} {eraseSize fsSize fuel : Nat}

/-- Behind the end of a device of any real size a read hangs. -/
theorem readSegmentHeader_eq {pebId : Nat} (herase : 2 * logHeaderSize ≤ eraseSize)
    (hfs : 2 * fsSize + eraseSize ≤ 18446744073709551616)
    (hin : pebId ≠ 0 → pebId * eraseSize < fsSize) :
    readSegmentHeader (deviceRead dev) pebId eraseSize 0 =
      if HeaderOnDevice dev eraseSize pebId then .ok (probedHeader dev eraseSize pebId)
      else .error .fuel := by
  have hplace : probedPlace eraseSize pebId < fsSize ∨ probedPlace eraseSize pebId = reservedVbrSize := by
    unfold probedPlace
    split
    · exact .inr rfl
    · exact .inl (hin ‹_›)
  have hread : readSegmentHeader (deviceRead dev) pebId eraseSize 0 =
      deviceRead dev (probedPlace eraseSize pebId) logHeaderSize := by
    unfold readSegmentHeader probedPlace
    split
    · rfl
    · have hlt := hin ‹_›
      rw [Nat.add_zero, Word.u64_of_lt (n := pebId * eraseSize) (by omega), Word.u64_of_lt (by omega)]
  rw [hread]
  by_cases hon : HeaderOnDevice dev eraseSize pebId
  · rw [if_pos hon]
    exact deviceRead_inside hon
  · have hout : ¬probedPlace eraseSize pebId + logHeaderSize ≤ dev.size := hon
    rw [if_neg hon]
    unfold deviceRead
    unfold logHeaderSize reservedVbrSize at *
    rw [if_neg (by omega), if_pos (by omega)]

theorem firstValidPeb_eq {pebIds : List Nat} (herase : 2 * logHeaderSize ≤ eraseSize)
    (hfs : 2 * fsSize + eraseSize ≤ 18446744073709551616)
    (hin : ∀ pebId ∈ pebIds, pebId ≠ 0 → pebId * eraseSize < fsSize) :
    firstValidPeb crc32 (deviceRead dev) eraseSize pebIds =
      if ∀ pebId ∈ upTo (holdsHeader crc32 dev eraseSize) pebIds, HeaderOnDevice dev eraseSize pebId then
        match pebIds.find? (holdsHeader crc32 dev eraseSize) with
        | some pebId => .ok (probedHeader dev eraseSize pebId)
        | none => fail .enodata
      else .error .fuel := by
  induction pebIds with
  | nil => rfl
  | cons pebId pebIds ih =>
    obtain ⟨hfirst, hrest⟩ := List.forall_mem_cons.1 hin
    unfold firstValidPeb
    rw [readSegmentHeader_eq herase hfs hfirst]
    by_cases hon : HeaderOnDevice dev eraseSize pebId
    · rw [if_pos hon, Checked.ok_bind]
      change (if holdsHeader crc32 dev eraseSize pebId then _ else _) = _
      by_cases hvalid : holdsHeader crc32 dev eraseSize pebId = true
      · rw [if_pos hvalid, upTo_cons_of_stops hvalid, List.find?_cons_of_pos hvalid,
          if_pos (by simpa using hon)]
      · rw [if_neg hvalid, upTo_cons_of_goes (Bool.eq_false_of_not_eq_true hvalid),
          List.find?_cons_of_neg hvalid, ih hrest]
        simp only [List.forall_mem_cons, and_iff_right hon]
    · rw [if_neg hon, if_neg fun hall => hon (hall pebId List.mem_cons_self)]
      rfl

/-- The search ends with the first valid header of the PEBs 0, 1, 3, 7 and so on that begin before the end of
the device, or without one, and it looks at no other PEB; it hangs exactly if the device ends in or in
front of a header that it looks at. -/
theorem findAnyValidPeb_search (herase : 2 * logHeaderSize ≤ eraseSize)
    (hfs : 2 * fsSize + eraseSize ≤ 18446744073709551616) (hfuel : 64 < fuel) :
    (∀ read, findAnyValidPeb crc32 read eraseSize fsSize fuel =
      firstValidPeb crc32 read eraseSize (probedPebs eraseSize fsSize)) ∧
    findAnyValidPeb crc32 (deviceRead dev) eraseSize fsSize fuel =
      searchResult crc32 dev eraseSize fsSize := by
  have hboot : reservedVbrSize < eraseSize := Nat.lt_of_lt_of_le (by decide) herase
  refine ⟨fun read => findAnyValidPeb_eq hboot hfs hfuel, ?_⟩
  rw [findAnyValidPeb_eq hboot hfs hfuel]
  refine firstValidPeb_eq herase hfs fun pebId hpeb hne => ?_
  rw [probedPebs_eq] at hpeb
  obtain rfl | hlater := List.mem_cons.1 hpeb
  · exact absurd rfl hne
  · exact laterProbes_inside pebId hlater

end

/-- A header without anything but its magic and its check. -/
def bareHeader : Bytes :=
  sealRecord crc32 (poke (poke (fun _ => 0) 4 0 superMagic.toNat) 2 4 segmentHdrMagic.toNat)
    SegHdr.checkOffset segmentHeaderSize

theorem bareHeader_valid : isValidSegmentHeader crc32 bareHeader = true := by
  have hmagic : isSsdfsSegmentHeader bareHeader = true := by decide +kernel
  have hcsum : isCsumValid crc32 bareHeader SegHdr.checkOffset segmentHeaderSize = true :=
    isCsumValid_sealRecord (by decide) (Nat.le_refl _)
  unfold isValidSegmentHeader
  rw [hmagic, hcsum]
  rfl

/-- The third and the fourth erase block of 128 KiB have a header. -/
def twoHeaders : Buf where
  size := 524288
  data i :=
    if i < 262144 then 0 else if i < 393216 then bareHeader (i - 262144) else bareHeader (i - 393216)

theorem twoHeaders_header : probedHeader twoHeaders 131072 3 = bareHeader := by
  funext i
  have hplace : probedPlace 131072 3 = 393216 := rfl
  unfold probedHeader twoHeaders
  rw [hplace]
  simp only
  rw [if_neg (by omega), if_neg (by omega), Nat.add_sub_cancel_left]

theorem twoHeaders_blank {pebId : Nat}
    (hmagic : isSsdfsSegmentHeader (probedHeader twoHeaders 131072 pebId) = false) :
    holdsHeader crc32 twoHeaders 131072 pebId = false := by
  unfold holdsHeader isValidSegmentHeader
  rw [hmagic]
  rfl

theorem twoHeaders_probed : probedPebs 131072 524288 = [0, 1, 3] := by decide +kernel

/-- The third erase block is never looked at. -/
theorem findAnyValidPeb_fourth :
    findAnyValidPeb crc32 (deviceRead twoHeaders) 131072 524288 65 = .ok bareHeader := by
  have h0 : holdsHeader crc32 twoHeaders 131072 0 = false := twoHeaders_blank (by decide +kernel)
  have h1 : holdsHeader crc32 twoHeaders 131072 1 = false := twoHeaders_blank (by decide +kernel)
  have h3 : holdsHeader crc32 twoHeaders 131072 3 = true := by
    unfold holdsHeader
    rw [twoHeaders_header, bareHeader_valid]
  have hlooked : lookedAt crc32 twoHeaders 131072 524288 = [0, 1, 3] := by
    unfold lookedAt
    rw [twoHeaders_probed, upTo_cons_of_goes h0, upTo_cons_of_goes h1, upTo_cons_of_stops h3]
  have hon : ∀ pebId ∈ [0, 1, 3], HeaderOnDevice twoHeaders 131072 pebId := by decide +kernel
  rw [(findAnyValidPeb_search (by decide) (by decide) (by decide)).2]
  unfold searchResult
  rw [hlooked, if_pos hon, twoHeaders_probed, List.find?_cons_of_neg (by simp [h0]),
    List.find?_cons_of_neg (by simp [h1]), List.find?_cons_of_pos h3]
  simp only [twoHeaders_header]

end Ssdfs
