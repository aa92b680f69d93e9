import Ssdfs.Lib.Decimal
import Ssdfs.Lib.Word

namespace Ssdfs

def ssdfsFileNameDelimiter : Char := '-'

def ssdfsMaxNameLen : Nat := 255

/-- The name that a block is stored under. `snprintf` is given the length of the buffer less one, and
needs another byte behind the name. -/
def blockName (ino logicalOffset : Nat) : List Char :=
  (Nat.toDigits 10 ino ++ ssdfsFileNameDelimiter :: Nat.toDigits 10 logicalOffset).take
    (ssdfsMaxNameLen - 2)

def extractInodeId (fileName : List Char) : Nat :=
  match Decimal.strchr fileName ssdfsFileNameDelimiter with
  | some len =>
    if 0 < len then Decimal.toU64 (Decimal.atoll (fileName.take len)) else Word.u64Max
  | none => Word.u64Max

def extractOffset (pageSize : Nat) (fileName : List Char) : Nat :=
  match Decimal.strchr fileName ssdfsFileNameDelimiter with
  | some len =>
    if 0 < len then
      Word.u64 (Decimal.toU64 (Decimal.atoll (fileName.drop (len + 1))) * pageSize)
    else Word.u64Max
  | none => Word.u64Max

def blockPlace (pageSize : Nat) (fileName : List Char) : Option (Nat × Nat) :=
  let inodeId := extractInodeId fileName
  if inodeId ≥ Word.u64Max then none
  else
    let byteOffset := extractOffset pageSize fileName
    if byteOffset ≥ Word.u64Max then none else some (inodeId, byteOffset)

/-- The name of a block says where it belongs, and no other block goes there. -/
structure NamedApart (pageSize ino logicalOffset : Nat) : Prop where
  inodeId : extractInodeId (blockName ino logicalOffset) = ino
  offset : extractOffset pageSize (blockName ino logicalOffset) = logicalOffset * pageSize
  apart : ∀ (ino' : UInt64) (logicalOffset' : UInt32),
    (ino'.toNat, logicalOffset'.toNat) ≠ (ino, logicalOffset) →
    blockPlace pageSize (blockName ino'.toNat logicalOffset'.toNat) = none ∨
      blockPlace pageSize (blockName ino'.toNat logicalOffset'.toNat) ≠
        blockPlace pageSize (blockName ino logicalOffset)

section

variable {pageSize ino logicalOffset : Nat}

theorem blockName_eq (hino : ino < 18446744073709551616) (hoffset : logicalOffset < 4294967296) :
    blockName ino logicalOffset =
      Nat.toDigits 10 ino ++ ssdfsFileNameDelimiter :: Nat.toDigits 10 logicalOffset := by
  have h1 : (Nat.toDigits 10 ino).length ≤ 20 :=
    (Nat.length_toDigits_le_iff (by decide) (by decide)).2 (Nat.lt_trans hino (by decide))
  have h2 : (Nat.toDigits 10 logicalOffset).length ≤ 10 :=
    (Nat.length_toDigits_le_iff (by decide) (by decide)).2 (Nat.lt_trans hoffset (by decide))
  refine List.take_of_length_le ?_
  simp only [List.length_append, List.length_cons, ssdfsMaxNameLen]
  omega

theorem strchr_blockName (ino : Nat) (t : List Char) :
    Decimal.strchr (Nat.toDigits 10 ino ++ ssdfsFileNameDelimiter :: t) ssdfsFileNameDelimiter =
      some (Nat.toDigits 10 ino).length :=
  Decimal.strchr_append fun h => absurd (Decimal.isDigit_of_mem_toDigits h) (by decide)

/-- An inode number comes back unless it is too large for a signed number. -/
theorem extractInodeId_blockName (hino : ino < 18446744073709551616)
    (hoffset : logicalOffset < 4294967296) :
    extractInodeId (blockName ino logicalOffset) = min 9223372036854775807 ino := by
  unfold extractInodeId
  rw [blockName_eq hino hoffset, strchr_blockName]
  simp only [List.take_left, Decimal.atoll_toDigits, if_pos Nat.length_toDigits_pos]
  unfold Decimal.toU64
  omega

theorem extractOffset_blockName (hino : ino < 18446744073709551616)
    (hoffset : logicalOffset < 4294967296) (hpage : pageSize < 4294967296) :
    extractOffset pageSize (blockName ino logicalOffset) = logicalOffset * pageSize := by
  have hvalue : Decimal.toU64 (Decimal.atoll (Nat.toDigits 10 logicalOffset)) = logicalOffset := by
    rw [Decimal.atoll_toDigits]
    unfold Decimal.toU64
    omega
  have hmul : logicalOffset * pageSize ≤ 4294967295 * 4294967295 :=
    Nat.mul_le_mul (by omega) (by omega)
  have hdrop : (Nat.toDigits 10 ino ++ ssdfsFileNameDelimiter :: Nat.toDigits 10 logicalOffset).drop
      ((Nat.toDigits 10 ino).length + 1) = Nat.toDigits 10 logicalOffset := by
    simp [List.drop_append]
  unfold extractOffset
  rw [blockName_eq hino hoffset, strchr_blockName]
  simp only [if_pos Nat.length_toDigits_pos]
  rw [hdrop, hvalue, Word.u64_of_lt (by omega)]

theorem blockPlace_blockName (hino : ino < 18446744073709551616)
    (hoffset : logicalOffset < 4294967296) (hpage : pageSize < 4294967296) :
    blockPlace pageSize (blockName ino logicalOffset) =
      some (min 9223372036854775807 ino, logicalOffset * pageSize) := by
  have hmul : logicalOffset * pageSize ≤ 4294967295 * 4294967295 :=
    Nat.mul_le_mul (by omega) (by omega)
  unfold blockPlace
  rw [extractInodeId_blockName hino hoffset, extractOffset_blockName hino hoffset hpage]
  have hsafe : ¬min 9223372036854775807 ino ≥ Word.u64Max := by
    unfold Word.u64Max
    omega
  have hshort : ¬logicalOffset * pageSize ≥ Word.u64Max := by
    unfold Word.u64Max
    omega
  exact (if_neg hsafe).trans (if_neg hshort)

end

/-- The largest signed number is the first inode that shares its file with others. -/
theorem blockName_apart_iff {pageSize logicalOffset : UInt32} {ino : UInt64}
    (hpage : 0 < pageSize.toNat) :
    NamedApart pageSize.toNat ino.toNat logicalOffset.toNat ↔ ino.toNat < 9223372036854775807 := by
  have hplace := fun (ino : UInt64) (offset : UInt32) =>
    blockPlace_blockName ino.toNat_lt offset.toNat_lt pageSize.toNat_lt
  have hid := extractInodeId_blockName ino.toNat_lt logicalOffset.toNat_lt
  constructor
  · intro h
    have hsame := hid.symm.trans h.inodeId
    by_contra hlarge
    have hino : ino.toNat = 9223372036854775807 := by omega
    rcases h.apart 9223372036854775808 logicalOffset (fun heq => by
      have := congrArg Prod.fst heq
      simp only [hino] at this
      exact absurd this (by decide)) with hnone | hother
    · rw [hplace] at hnone
      cases hnone
    · rw [hplace, hplace, hino] at hother
      exact hother rfl
  · intro h
    refine ⟨by omega, extractOffset_blockName ino.toNat_lt logicalOffset.toNat_lt pageSize.toNat_lt,
      fun ino' logicalOffset' hne => .inr fun heq => hne ?_⟩
    rw [hplace, hplace] at heq
    obtain ⟨hino, hoffset⟩ := Prod.mk.inj (Option.some.inj heq)
    rw [Nat.eq_of_mul_eq_mul_right hpage hoffset]
    exact congrArg (·, _) (by omega)

theorem blockName_apart_7 : NamedApart (4096 : UInt32).toNat (7 : UInt64).toNat (3 : UInt32).toNat :=
  (blockName_apart_iff (by decide)).2 (by decide)

/-- Blocks of two files get the same place in the file of a third one. -/
theorem blockName_merges : extractInodeId (blockName 9223372036854775808 3) = 9223372036854775807 ∧
    blockPlace 4096 (blockName 9223372036854775808 3) =
      blockPlace 4096 (blockName 9223372036854775809 3) ∧
    ¬NamedApart 4096 9223372036854775808 3 := by
  have hid : extractInodeId (blockName 9223372036854775808 3) = 9223372036854775807 :=
    extractInodeId_blockName (by decide) (by decide)
  refine ⟨hid, ?_, fun h => absurd (hid.symm.trans h.inodeId) (by decide)⟩
  rw [blockPlace_blockName (by decide) (by decide) (by decide),
    blockPlace_blockName (by decide) (by decide) (by decide)]
  rfl

end Ssdfs
