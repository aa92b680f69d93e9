import Ssdfs.BlkDesc.Run
import Ssdfs.Dump.BlkbmapBounds
import Ssdfs.Dump.OffTableBounds

namespace Ssdfs

open Memory

section

variable {decompress : UInt8 → Buf → Nat → Nat → Buf → Nat → Mkfs Buf} {areaBuf : Buf}

/-- Each of the parsers ends, stays inside the area and refuses what is malformed, if and only if whatever
it comes to without a check of its own is sound. -/
theorem areaParsers_safe_iff (raw : Bool) (hkeeps : KeepsSize decompress)
    (hwide : areaBuf.size < 4294967296) :
    (OffTableSafe decompress areaBuf ↔ ∀ p, PortionReached decompress areaBuf p →
      (p ≤ areaBuf.size → PortionInside decompress areaBuf p) ∧
        (PortionPasses decompress areaBuf p → PortionSound decompress areaBuf p)) ∧
    (DescArraySafe decompress areaBuf ↔
      ∀ p, DescTableReached decompress areaBuf p → DescTableSound decompress areaBuf p) ∧
    (BlkbmapSafe decompress raw areaBuf ↔ blkBmapHdrSize ≤ areaBuf.size ∧
      ((blkBmapHeader areaBuf).bytesCount.toNat ≤ areaBuf.size →
        (blkBmapHeader areaBuf).flags &&& ~~~blkBmapFlagMask = 0) ∧
      ∀ count offset dump, BitmapReached decompress raw areaBuf (count + 1) offset dump →
        BitmapInside decompress raw areaBuf offset ∧
          (BitmapPasses raw areaBuf offset → BitmapWellFormed areaBuf offset)) :=
  ⟨offTableSafe_iff hkeeps hwide, descArraySafe_iff hkeeps hwide, blkbmapSafe_iff hwide⟩

end

theorem noDecompress_keepsSize : KeepsSize noDecompress := fun _ _ _ _ _ _ _ => nofun

/-- Of an area without any contents every parser is safe. -/
theorem areaParsers_safe_blank : OffTableSafe noDecompress (Buf.zero 256) ∧
    DescArraySafe noDecompress (Buf.zero 256) ∧ BlkbmapSafe noDecompress false (Buf.zero 256) := by
  obtain ⟨hoffsets, hdescs, hbitmaps⟩ := areaParsers_safe_iff false noDecompress_keepsSize
    (show (Buf.zero 256).size < 4294967296 by decide)
  refine ⟨hoffsets.2 ?_, hdescs.2 ?_, hbitmaps.2 ⟨by decide, fun _ => by decide, ?_⟩⟩
  · rintro _ ⟨-, st, hreached, rfl⟩
    obtain rfl := hreached.eq_start (a := ⟨128, false, [], []⟩) (by rfl)
    refine ⟨fun _ => ⟨by decide, fun i hi => absurd hi (Nat.not_lt_zero i)⟩, fun _ =>
      ⟨by decide, by decide, ⟨by decide, fun i hi => absurd hi (Nat.not_lt_zero i),
        fun i hi => absurd hi (Nat.not_lt_zero i)⟩, fun i hi => absurd hi (Nat.not_lt_zero i), ?_⟩⟩
    rintro ⟨i, hi, -⟩
    exact absurd hi (Nat.not_lt_zero i)
  · rintro p ⟨-, shown, hreached⟩
    cases hreached.eq_start (a := []) (by rfl)
    exact ⟨.inl (by decide), fun _ _ i hi => absurd hi (Nat.not_lt_zero i), fun _ _ =>
      ⟨by decide, fun i hi => absurd hi (Nat.not_lt_zero i)⟩, fun _ _ q h => absurd rfl h.1⟩
  · intro count offset dump h
    have hcount : (blkBmapHeader (Buf.zero 256)).fragmentsCount.toNat = 0 := by decide
    have hnone : ∀ {n offset dump}, BitmapReached noDecompress false (Buf.zero 256) n offset dump → n = 0 :=
      fun h => by
        induction h with
        | first => exact hcount
        | next _ _ ih => exact absurd ih (Nat.succ_ne_zero _)
    exact absurd (hnone h) (Nat.succ_ne_zero count)

def circularPortion : Buf := ⟨128, fun i => if i = 24 then 1 else if i = 46 then 14 else 0⟩

def emptyDescriptor : Buf := ⟨256, fun i => if i = 8 then 1 else if i = 22 then 64 else 0⟩

/-- The table of offsets never comes to an end, and the descriptor is read behind the area. -/
theorem areaParsers_unsafe : ¬OffTableSafe noDecompress circularPortion ∧
    ¬DescArraySafe noDecompress emptyDescriptor := by
  constructor
  · rintro ⟨hreturns, -⟩
    obtain ⟨fuel, hfuel⟩ := (parseBlk2offTable_returns_iff (by decide)).1 hreturns
    have hends : Checked.Ends (portionRound noDecompress circularPortion) firstPortion :=
      ⟨fuel, fun hout => by
        rw [hout] at hfuel
        exact Checked.not_returns_of_ne nofun hfuel⟩
    refine Checked.not_ends_of_inv (fun st => st = firstPortion ∨ st = ⟨0, true, [], []⟩) (.inl rfl)
      ?_ hends
    rintro _ (rfl | rfl)
    · exact ⟨_, by rfl, .inr rfl⟩
    · exact ⟨_, by rfl, .inr rfl⟩
  · rintro ⟨hreturns, -⟩
    have hloop := (parseBlkDescArray_returns_iff (by decide)).1 hreturns
    have hstray : descTableRound noDecompress emptyDescriptor (0, []) = .error .stray := by rfl
    exact Checked.not_returns_stray (hstray ▸ Checked.Reaches.start.returns hloop)

end Ssdfs
