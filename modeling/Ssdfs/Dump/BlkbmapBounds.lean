import Ssdfs.Dump.BlkDescBounds
import Ssdfs.Dump.BlkbmapFound
import Ssdfs.Recover.BlockStateRun

namespace Ssdfs

open Memory

def blkBmapFlagMask : UInt8 := 0x3
def fragBlkBmapFlagMask : UInt8 := 0xF

/-- The flags of a bitmap have the lower six bits of their byte. -/
def BlockBitmapFragment.flags (hdr : BlockBitmapFragment) : UInt8 := hdr.flagsAndType &&& 0x3F

section

variable (decompress : UInt8 → Buf → Nat → Nat → Buf → Nat → Mkfs Buf) (raw : Bool) (areaBuf : Buf)

def blkBmapHeader : BlockBitmapHeader := BlockBitmapHeader.wire.read areaBuf.data 0

def bitmapHeader (offset : Nat) : BlockBitmapFragment := BlockBitmapFragment.wire.read areaBuf.data offset

def dataFragment (offset i : Nat) : FragmentDesc := FragmentDesc.wire.read areaBuf.data (offset + 32 + i * 16)

/-- With `count` bitmaps to go, the parser comes to `offset`. -/
inductive BitmapReached : Nat → Nat → BlkbmapDump → Prop
  | first (h : (blkBmapHeader areaBuf).bytesCount.toNat ≤ areaBuf.size) :
    BitmapReached (blkBmapHeader areaBuf).fragmentsCount.toNat blkBmapHdrSize ⟨[], []⟩
  | next {count offset parsed : Nat} {dump dump' : BlkbmapDump} (h : BitmapReached (count + 1) offset dump)
    (hparse : parseBlockBitmapFragment decompress raw areaBuf offset (Word.sub32 areaBuf.size offset) dump =
      .ok (none, dump', parsed)) : BitmapReached count (Word.u32 (offset + parsed)) dump'

/-- The bitmap lies inside the area with all its data, and no flag of it is outside its mask. -/
structure BitmapWellFormed (offset : Nat) : Prop where
  fits : offset + bitmapBytes (dataSizes areaBuf offset) ≤ areaBuf.size
  flags : (bitmapHeader areaBuf offset).flags &&& ~~~fragBlkBmapFlagMask = 0
  chain : (bitmapHeader areaBuf offset).chainHdr.FlagsKnown
  fragments : ∀ i < dataFragmentsCount areaBuf offset, (dataFragment areaBuf offset i).FlagsKnown

structure BlkBmapHeaderWellFormed : Prop where
  bytes : (blkBmapHeader areaBuf).bytesCount.toNat ≤ areaBuf.size
  flags : (blkBmapHeader areaBuf).flags &&& ~~~blkBmapFlagMask = 0

/-- The parser stays inside the area, and neither a malformed header nor a malformed bitmap lets it
go on. -/
structure BlkbmapSafe : Prop where
  returns : Checked.Returns (parseBlockBitmap decompress raw areaBuf)
  header : ∀ count offset dump, BitmapReached decompress raw areaBuf count offset dump →
    BlkBmapHeaderWellFormed areaBuf
  rejects : ∀ count offset dump, BitmapReached decompress raw areaBuf (count + 1) offset dump →
    ¬BitmapWellFormed areaBuf offset → ∃ e dump' parsed,
      parseBlockBitmapFragment decompress raw areaBuf offset (Word.sub32 areaBuf.size offset) dump =
        .ok (some e, dump', parsed)

end

section

variable {decompress : UInt8 → Buf → Nat → Nat → Buf → Nat → Mkfs Buf} {raw : Bool} {areaBuf : Buf}
  {offset count : Nat} {dump : BlkbmapDump}

theorem bitmap_contained (hle : offset ≤ areaBuf.size) (hwide : areaBuf.size < 4294967296) :
    Report.Contained
      (parseBlockBitmapFragment decompress raw areaBuf offset (Word.sub32 areaBuf.size offset) dump)
      (BitmapInside decompress raw areaBuf offset) (BitmapPasses raw areaBuf offset)
      fun st => st.2 ≠ 0 ∧ Word.u32 (offset + st.2) ≤ areaBuf.size := by
  rw [Word.sub32_of_le hle hwide]
  by_cases hpasses : BitmapPasses raw areaBuf offset
  · refine (parseBlockBitmapFragment_contained decompress raw dump ⟨Nat.add_sub_cancel' hle, hwide⟩).congr
      Iff.rfl (fun _ => Iff.rfl) fun st hst => ?_
    have hend := hpasses.parsed_le
    have hbegin := @parsedBefore_ge raw (dataFragmentsCount areaBuf offset) (dataSizes areaBuf offset)
    rw [hst.2]
    exact ⟨by omega, Nat.le_trans (Nat.mod_le _ _) hend⟩
  · exact ⟨(parseBlockBitmapFragment_contained decompress raw dump
      ⟨Nat.add_sub_cancel' hle, hwide⟩).returns, fun hr => ⟨fun h => absurd h hpasses,
        ((parseBlockBitmapFragment_contained decompress raw dump
          ⟨Nat.add_sub_cancel' hle, hwide⟩).settles hr).code⟩⟩

theorem BitmapReached.le (h : BitmapReached decompress raw areaBuf count offset dump)
    (hsize : blkBmapHdrSize ≤ areaBuf.size) (hwide : areaBuf.size < 4294967296) :
    offset ≤ areaBuf.size := by
  induction h with
  | first => exact hsize
  | next _ hparse hle => exact ((bitmap_contained hle hwide).of_done hparse).2.2.2

theorem BitmapReached.bytes (h : BitmapReached decompress raw areaBuf count offset dump) :
    (blkBmapHeader areaBuf).bytesCount.toNat ≤ areaBuf.size := by
  induction h with
  | first hbytes => exact hbytes
  | next _ _ ih => exact ih

theorem BitmapReached.returns (h : BitmapReached decompress raw areaBuf count offset dump)
    (hsize : blkBmapHdrSize ≤ areaBuf.size) (hwide : areaBuf.size < 4294967296)
    (hparse : Checked.Returns (parseBlockBitmap decompress raw areaBuf)) :
    Checked.Returns (parseBlockBitmapFragments decompress raw areaBuf count offset dump) := by
  induction h with
  | first hbytes =>
    unfold blkBmapHeader at hbytes
    unfold parseBlockBitmap at hparse
    rw [Buf.get_ok (w := BlockBitmapHeader.wire) (by rwa [Nat.zero_add]), Checked.ok_bind,
      failIf_of_not (Nat.not_lt.2 hbytes), Report.attempt_ok] at hparse
    exact hparse
  | next hreached hnext ih =>
    have hne := ((bitmap_contained (hreached.le hsize hwide) hwide).of_done hnext).2.2.1
    unfold parseBlockBitmapFragments at ih
    simp only at ih
    rw [hnext, Checked.ok_bind] at ih
    simp only [Option.isSome_none, Bool.false_eq_true, if_false] at ih
    rwa [if_neg hne] at ih

theorem parseBlockBitmapFragments_returns (hsize : blkBmapHdrSize ≤ areaBuf.size)
    (hwide : areaBuf.size < 4294967296)
    (hinside : ∀ count offset dump, BitmapReached decompress raw areaBuf (count + 1) offset dump →
      BitmapInside decompress raw areaBuf offset)
    (h : BitmapReached decompress raw areaBuf count offset dump) :
    Checked.Returns (parseBlockBitmapFragments decompress raw areaBuf count offset dump) := by
  induction count generalizing offset dump with
  | zero => exact Checked.returns_ok
  | succ count ih =>
    refine Checked.returns_bind.2 ⟨(bitmap_contained (h.le hsize hwide) hwide).returns.2
      (hinside count offset dump h), fun st hst => ?_⟩
    obtain ⟨err, dump', parsed⟩ := st
    simp only
    split
    · exact Checked.returns_ok
    · split
      · exact Checked.returns_ok
      · cases err with
        | some e => contradiction
        | none => exact ih (.next h hst)

theorem parseBlockBitmap_returns_iff (hwide : areaBuf.size < 4294967296) :
    Checked.Returns (parseBlockBitmap decompress raw areaBuf) ↔ blkBmapHdrSize ≤ areaBuf.size ∧
      ∀ count offset dump, BitmapReached decompress raw areaBuf (count + 1) offset dump →
        BitmapInside decompress raw areaBuf offset := by
  constructor
  · intro hreturns
    have hsize : blkBmapHdrSize ≤ areaBuf.size := by
      have hget := (Checked.returns_bind.1 hreturns).1
      have hroom := Buf.get_confined.returns.1 hget
      rwa [Nat.zero_add] at hroom
    exact ⟨hsize, fun count offset dump h => (bitmap_contained (h.le hsize hwide) hwide).returns.1
      (Checked.returns_bind.1 (h.returns hsize hwide hreturns)).1⟩
  · rintro ⟨hsize, hinside⟩
    unfold parseBlockBitmap
    rw [Buf.get_ok (w := BlockBitmapHeader.wire) (by rwa [Nat.zero_add]), Checked.ok_bind, failIf]
    split
    · exact Checked.returns_ok
    · rename_i hbytes
      exact parseBlockBitmapFragments_returns hsize hwide hinside (.first (Nat.not_lt.1 hbytes))

/-- The parser is safe if and only if the area has room for its header, with flags that are known unless
the size in it is refused, the library stays inside its buffers, and every bitmap that is not refused is well
formed. -/
theorem blkbmapSafe_iff (hwide : areaBuf.size < 4294967296) :
    BlkbmapSafe decompress raw areaBuf ↔ blkBmapHdrSize ≤ areaBuf.size ∧
      ((blkBmapHeader areaBuf).bytesCount.toNat ≤ areaBuf.size →
        (blkBmapHeader areaBuf).flags &&& ~~~blkBmapFlagMask = 0) ∧
      ∀ count offset dump, BitmapReached decompress raw areaBuf (count + 1) offset dump →
        BitmapInside decompress raw areaBuf offset ∧
          (BitmapPasses raw areaBuf offset → BitmapWellFormed areaBuf offset) := by
  constructor
  · rintro ⟨hreturns, hheader, hrejects⟩
    obtain ⟨hsize, hinside⟩ := (parseBlockBitmap_returns_iff hwide).1 hreturns
    refine ⟨hsize, fun hbytes => (hheader _ _ _ (.first hbytes)).flags, fun count offset dump h =>
      ⟨hinside count offset dump h, fun hpasses => ?_⟩⟩
    by_contra hnot
    obtain ⟨st, hst, -⟩ := ((bitmap_contained (h.le hsize hwide) hwide).settles
      (hinside count offset dump h)).done hpasses
    obtain ⟨e, dump', parsed, he⟩ := hrejects count offset dump h hnot
    cases hst.symm.trans he
  · rintro ⟨hsize, hflags, hsound⟩
    refine ⟨(parseBlockBitmap_returns_iff hwide).2 ⟨hsize, fun count offset dump h =>
      (hsound count offset dump h).1⟩, fun count offset dump h => ⟨h.bytes, hflags h.bytes⟩,
      fun count offset dump h hnot => ?_⟩
    obtain ⟨e, st, hst⟩ := ((bitmap_contained (h.le hsize hwide) hwide).settles
      (hsound count offset dump h).1).code fun hpasses => hnot ((hsound count offset dump h).2 hpasses)
    exact ⟨e, st.1, st.2, hst⟩

end

end Ssdfs
