import Mathlib.Order.Bounds.Basic
import Ssdfs.Segbmap.Bitmap

namespace Ssdfs

open Memory

def cleanSegs (m : Bytes) (bitmap : Nat) (hdr : SegbmapFragmentHeader) (startItem maxItem : Nat) :
    Set Nat :=
  {seg | max startItem hdr.startItem.toNat ≤ seg ∧
    seg < min maxItem (hdr.startItem.toNat + 2 * hdr.bitmapBytes) ∧
    itemState m bitmap (seg - hdr.startItem.toNat) = segClean}

/-- The outcome of a search is the first clean segment, which has been taken. -/
structure FindsFirstClean (buf : Buf) (bitmap : Nat) (hdr : SegbmapFragmentHeader)
    (startItem maxItem state : Nat) (r : Mkfs (Buf × Option Nat)) : Prop where
  finds : (∃ buf' seg, r = .ok (buf', some seg)) ↔
    (cleanSegs buf.data bitmap hdr startItem maxItem).Nonempty
  least : ∀ buf' seg, r = .ok (buf', some seg) →
    IsLeast (cleanSegs buf.data bitmap hdr startItem maxItem) seg
  items : ∀ buf' seg, r = .ok (buf', some seg) → ∀ i, itemState buf'.data bitmap i =
    if i = seg - hdr.startItem.toNat then state else itemState buf.data bitmap i
  frame : ∀ buf' seg, r = .ok (buf', some seg) →
    buf'.size = buf.size ∧ ∀ x < bitmap, buf'.data x = buf.data x

section

variable (hdr : SegbmapFragmentHeader) (startItem maxItem : Nat)

def searchFrom : Nat := (searchStart hdr startItem).1 * 2 + (searchStart hdr startItem).2

def searchTo : Nat := searchEnd hdr maxItem * 2

/-- Rounding the bounds makes no difference: nothing clean lies between the rounded start and the
real one, and something clean lies before the rounded end if anything does. -/
structure RoundingHarmless (m : Bytes) (bitmap : Nat) : Prop where
  start : ∀ i, searchFrom hdr startItem ≤ i → i < searchTo hdr maxItem →
    hdr.startItem.toNat + i < max startItem hdr.startItem.toNat → itemState m bitmap i ≠ segClean
  finish : (cleanSegs m bitmap hdr startItem maxItem).Nonempty →
    ∃ seg ∈ cleanSegs m bitmap hdr startItem maxItem,
      seg - hdr.startItem.toNat < searchTo hdr maxItem

end

section

variable {hdr : SegbmapFragmentHeader} {startItem maxItem pageSize bitmap state i : Nat} {buf : Buf}

theorem alignedStartItem_eq : alignedStartItem startItem segStateBits = startItem / 16 * 16 := by
  unfold alignedStartItem
  rw [Nat.shiftRight_eq_div_pow, Nat.shiftLeft_eq]
  rfl

theorem alignedEndItem_eq : alignedEndItem maxItem segStateBits = Word.u64 (maxItem + 1) / 16 * 16 := by
  unfold alignedEndItem
  rw [Nat.shiftRight_eq_div_pow, Nat.shiftLeft_eq]
  rfl

theorem searchFrom_le : hdr.startItem.toNat + searchFrom hdr startItem ≤
    max startItem hdr.startItem.toNat := by
  unfold searchFrom searchStart
  rw [alignedStartItem_eq]
  simp only
  split
  case isTrue hle =>
    have hlow := Word.u32_le (startItem / 16 * 16 - hdr.startItem.toNat)
    rw [Word.u8_of_lt (by omega)]
    simp only
    omega
  case isFalse => exact Nat.le_max_right _ _

/-- A search that goes on ends with the item of `maxItem` or before it. -/
theorem lt_searchTo (hmax : maxItem < 18446744073709551616) (hstart : hdr.startItem.toNat < maxItem)
    (hgo : ¬SearchStops hdr startItem maxItem) (hi : i < searchTo hdr maxItem) :
    hdr.startItem.toNat + i ≤ maxItem ∧ i < 2 * hdr.bitmapBytes := by
  have hrange := (not_or.1 hgo).1
  unfold searchTo searchEnd at hi
  unfold byteRange at hrange hi
  rw [alignedEndItem_eq] at hrange hi
  unfold Word.u32Max at hrange
  generalize hend : Word.u64 (maxItem + 1) / 16 * 16 = last at *
  unfold Word.u64 at hend
  rcases Nat.lt_or_ge last hdr.startItem.toNat with hlt | hge
  · rw [Word.sub64_of_lt hlt (by omega)] at hrange hi
    omega
  · rw [Word.sub64_of_le hge (by omega)] at hrange hi
    omega

theorem takeItem_eq {byteIndex offset : Nat}
    (hlt : hdr.startItem.toNat + (byteIndex * 2 + offset) < 18446744073709551616) :
    takeItem buf bitmap hdr maxItem state (some (byteIndex, offset)) =
      (⟨buf.size, Wire.u8.write buf.data (bitmap + byteIndex)
        (setStateInByte (buf.data (bitmap + byteIndex)) offset segStateBits segStateMask state)⟩,
        if maxItem ≤ hdr.startItem.toNat + (byteIndex * 2 + offset) ∨
          hdr.startItem.toNat + (byteIndex * 2 + offset) = Word.u64Max then none
        else some (hdr.startItem.toNat + (byteIndex * 2 + offset))) := by
  unfold takeItem
  simp only
  rw [Nat.add_assoc, Word.u64_of_lt hlt]

theorem findsFirstClean_failed {r : Mkfs (Buf × Option Nat)}
    (hr : ∀ buf' seg, r ≠ .ok (buf', some seg)) :
    FindsFirstClean buf bitmap hdr startItem maxItem state r ↔
      ¬(cleanSegs buf.data bitmap hdr startItem maxItem).Nonempty := by
  constructor
  · intro h hne
    obtain ⟨buf', seg, hrun⟩ := h.finds.2 hne
    exact hr buf' seg hrun
  · intro hnone
    exact ⟨iff_of_false (fun ⟨buf', seg, hrun⟩ => hr buf' seg hrun) hnone,
      fun buf' seg hrun => absurd hrun (hr buf' seg), fun buf' seg hrun => absurd hrun (hr buf' seg),
      fun buf' seg hrun => absurd hrun (hr buf' seg)⟩

theorem roundingHarmless_of_none (hstart : startItem < maxItem)
    (hfragment : hdr.startItem.toNat < maxItem)
    (hnone : ∀ i, searchFrom hdr startItem ≤ i → i < searchTo hdr maxItem →
      hdr.startItem.toNat + i < maxItem → itemState buf.data bitmap i ≠ segClean) :
    RoundingHarmless hdr startItem maxItem buf.data bitmap ↔
      ¬(cleanSegs buf.data bitmap hdr startItem maxItem).Nonempty := by
  have hfrom := @searchFrom_le hdr startItem
  constructor
  · intro h hne
    obtain ⟨seg, ⟨hlo, hhi, hclean⟩, hto⟩ := h.finish hne
    exact hnone _ (by omega) hto (by omega) hclean
  · intro hempty
    exact ⟨fun i hlo hhi hlt => hnone i hlo hhi (by omega), fun hne => absurd hne hempty⟩

theorem findsFirstClean_iff {r : Option (Nat × Nat)} (hmax : maxItem < 18446744073709551616)
    (hstart : startItem < maxItem) (hfragment : hdr.startItem.toNat < maxItem) (hstate : state < 16)
    (hgo : ¬SearchStops hdr startItem maxItem)
    (hr : FirstClean buf.data bitmap (searchFrom hdr startItem) (searchTo hdr maxItem) r) :
    FindsFirstClean buf bitmap hdr startItem maxItem state
        (.ok (takeItem buf bitmap hdr maxItem state r)) ↔
      RoundingHarmless hdr startItem maxItem buf.data bitmap := by
  have hfrom := @searchFrom_le hdr startItem
  cases r with
  | none =>
    rw [roundingHarmless_of_none hstart hfragment fun i hlo hhi _ => hr i hlo hhi]
    exact findsFirstClean_failed fun _ _ h => nomatch h
  | some r =>
    obtain ⟨byteIndex, offset⟩ := r
    obtain ⟨hoffset, hlo, hhi, hclean, hfirst⟩ := hr
    obtain ⟨hle, hbytes⟩ := lt_searchTo hmax hfragment hgo hhi
    rw [takeItem_eq (by omega)]
    generalize hitem : byteIndex * 2 + offset = item at *
    by_cases hlast : maxItem ≤ hdr.startItem.toNat + item
    · rw [if_pos (.inl hlast), roundingHarmless_of_none hstart hfragment fun i hlo _ hlt =>
        hfirst i hlo (by omega)]
      exact findsFirstClean_failed fun _ _ h => nomatch h
    rw [if_neg (not_or.2 ⟨hlast, by unfold Word.u64Max; omega⟩)]
    constructor
    · intro h
      have hleast := h.least _ _ rfl
      have hge := hleast.1.1
      refine ⟨fun i hilo _ hlt hiclean => hfirst i hilo (by omega) hiclean, fun _ =>
        ⟨_, hleast.1, ?_⟩⟩
      rw [Nat.add_sub_cancel_left]
      exact hhi
    · intro h
      have hge : max startItem hdr.startItem.toNat ≤ hdr.startItem.toNat + item :=
        Nat.not_lt.1 fun hlt => h.start item hlo hhi hlt hclean
      have hmem : hdr.startItem.toNat + item ∈ cleanSegs buf.data bitmap hdr startItem maxItem :=
        ⟨hge, by omega, (Nat.add_sub_cancel_left hdr.startItem.toNat item).symm ▸ hclean⟩
      refine ⟨iff_of_true ⟨_, _, rfl⟩ ⟨_, hmem⟩, fun buf' seg hrun => ?_, fun buf' seg hrun i => ?_,
        fun buf' seg hrun => ?_⟩
      · obtain ⟨-, hseg⟩ := Prod.mk.inj (Except.ok.inj hrun)
        obtain rfl := Option.some.inj hseg
        refine ⟨hmem, fun x hx => ?_⟩
        obtain ⟨hxlo, -, hxclean⟩ := hx
        by_contra hlt
        exact hfirst _ (by omega) (by omega) hxclean
      · obtain ⟨rfl, hseg⟩ := Prod.mk.inj (Except.ok.inj hrun)
        obtain rfl := Option.some.inj hseg
        rw [Nat.add_sub_cancel_left, itemState_put hoffset, hitem, Nat.mod_eq_of_lt hstate]
      · obtain ⟨rfl, -⟩ := Prod.mk.inj (Except.ok.inj hrun)
        exact ⟨rfl, fun x hx => Function.update_of_ne (by omega) ..⟩

/-- The item that the search takes, whatever its number. -/
structure IsFirstCleanItem (m : Bytes) (bitmap : Nat) (hdr : SegbmapFragmentHeader)
    (startItem maxItem i : Nat) : Prop where
  ge : searchFrom hdr startItem ≤ i
  lt : i < searchTo hdr maxItem
  clean : itemState m bitmap i = segClean
  first : ∀ i', searchFrom hdr startItem ≤ i' → i' < i → itemState m bitmap i' ≠ segClean

theorem IsFirstCleanItem.eq {j : Nat} (h : IsFirstCleanItem buf.data bitmap hdr startItem maxItem i)
    (h' : IsFirstCleanItem buf.data bitmap hdr startItem maxItem j) : i = j := by
  rcases Nat.lt_trichotomy i j with hlt | heq | hgt
  · exact absurd h.clean (h'.first i h.ge hlt)
  · exact heq
  · exact absurd h'.clean (h.first j h'.ge hgt)

theorem setClean_eq_iff {byteIndex offset : Nat} (hoffset : offset < 2)
    (hclean : itemState buf.data bitmap (byteIndex * 2 + offset) = segClean) :
    (⟨buf.size, Wire.u8.write buf.data (bitmap + byteIndex)
        (setStateInByte (buf.data (bitmap + byteIndex)) offset segStateBits segStateMask state)⟩ : Buf) =
      buf ↔ state % 16 = segClean := by
  constructor
  · intro h
    have hitem := @itemState_put bitmap state buf.data byteIndex offset hoffset (byteIndex * 2 + offset)
    have hdata := congrArg Buf.data h
    simp only at hdata
    rw [if_pos rfl, hdata, hclean] at hitem
    exact hitem.symm
  · intro hstate
    rw [itemState_byte hoffset] at hclean
    have hsame : Packed.set (buf.data (bitmap + byteIndex)) 4 offset state =
        buf.data (bitmap + byteIndex) := Packed.set_get (hclean.trans hstate.symm)
    have hwrite : Wire.u8.write buf.data (bitmap + byteIndex)
        (Packed.set (buf.data (bitmap + byteIndex)) 4 offset state) = buf.data := by
      rw [hsame]
      exact Function.update_eq_self ..
    exact congrArg (Buf.mk buf.size) hwrite

theorem setFirstCleanItemInFragment_finds_iff (hmax : maxItem < 18446744073709551616)
    (hstart : startItem < maxItem) (hfragment : hdr.startItem.toNat < maxItem) (hstate : state < 16)
    (hfit : hdr.bitmapBytes ≤ pageSize → bitmap + hdr.bitmapBytes ≤ buf.size) :
    FindsFirstClean buf bitmap hdr startItem maxItem state
        (setFirstCleanItemInFragment buf bitmap hdr startItem maxItem pageSize state) ↔
      (SearchAccepted hdr startItem maxItem pageSize ∧ ¬SearchStops hdr startItem maxItem →
        RoundingHarmless hdr startItem maxItem buf.data bitmap) ∧
      (¬(SearchAccepted hdr startItem maxItem pageSize ∧ ¬SearchStops hdr startItem maxItem) →
        ¬(cleanSegs buf.data bitmap hdr startItem maxItem).Nonempty) := by
  by_cases hgo : SearchAccepted hdr startItem maxItem pageSize ∧ ¬SearchStops hdr startItem maxItem
  · obtain ⟨r, hr, hrun⟩ := setFirstCleanItemInFragment_run hgo.1 (hfit hgo.1.bytes_le) hgo.2
    rw [hrun, findsFirstClean_iff hmax hstart hfragment hstate hgo.2 hr]
    exact ⟨fun h => ⟨fun _ => h, fun hnot => absurd hgo hnot⟩, fun h => h.1 hgo⟩
  · obtain ⟨e, hrun⟩ := @setFirstCleanItemInFragment_stops buf bitmap state startItem maxItem pageSize
      hdr hfit ((Classical.not_and_iff_not_or_not.1 hgo).imp_right Classical.not_not.1)
    rw [hrun, findsFirstClean_failed fun _ _ h => by cases h]
    exact ⟨fun h => ⟨fun hyes => absurd hyes hgo, fun _ => h⟩, fun h => h.2 hgo⟩

end

/-- The only fragment of a volume with a few segments. -/
def onlyFragment (segs : UInt16) : SegbmapFragmentHeader :=
  ⟨segbmapHdrMagic, 0, 0, 0, 0, 0, (segs + 1) / 2 + 32, segs, segs, 0, 0⟩

theorem setFirstCleanItemInFragment_finds_16 :
    FindsFirstClean (Buf.zero 8) 0 (onlyFragment 16) 0 16 segReserved
      (setFirstCleanItemInFragment (Buf.zero 8) 0 (onlyFragment 16) 0 16 pageCacheSize segReserved) :=
  (@setFirstCleanItemInFragment_finds_iff (onlyFragment 16) 0 16 pageCacheSize 0 segReserved
    (Buf.zero 8) (by decide) (by decide) (by decide) (by decide) fun _ => by decide).2
    ⟨fun _ => ⟨fun i _ _ hlt => absurd hlt (Nat.not_lt_zero _), fun _ =>
      ⟨0, ⟨by decide, by decide, rfl⟩, by decide⟩⟩,
      fun hnot => absurd ⟨⟨by decide, by decide, by decide, by decide⟩, by decide⟩ hnot⟩

/-- Of 20 segments the last four are clean, and none of them is found. -/
theorem setFirstCleanItemInFragment_misses_20 :
    ¬FindsFirstClean ⟨10, fun x => if x < 8 then 0x99 else 0⟩ 0 (onlyFragment 20) 0 20 segReserved
      (setFirstCleanItemInFragment ⟨10, fun x => if x < 8 then 0x99 else 0⟩ 0 (onlyFragment 20) 0 20
        pageCacheSize segReserved) := by
  intro h
  obtain ⟨buf', seg, hrun⟩ := h.finds.2 ⟨16, by decide, by decide, by decide⟩
  have hnone : (setFirstCleanItemInFragment ⟨10, fun x => if x < 8 then 0x99 else 0⟩ 0
      (onlyFragment 20) 0 20 pageCacheSize segReserved).toOption.map Prod.snd = some none := rfl
  rw [hrun] at hnone
  cases hnone

section

variable {hdr : SegbmapFragmentHeader} {startItem maxItem pageSize bitmap state : Nat} {buf : Buf}

/-- The bitmap is left alone by a search that fails, unless the item is set first. -/
theorem setFirstCleanItemInFragment_keeps_iff (hmax : maxItem < 18446744073709551616)
    (hfit : hdr.bitmapBytes ≤ pageSize → bitmap + hdr.bitmapBytes ≤ buf.size) :
    (∀ buf', setFirstCleanItemInFragment buf bitmap hdr startItem maxItem pageSize state =
        .ok (buf', none) → buf' = buf) ↔
      (SearchAccepted hdr startItem maxItem pageSize → ¬SearchStops hdr startItem maxItem →
        ∀ i, IsFirstCleanItem buf.data bitmap hdr startItem maxItem i →
          Word.u64 (hdr.startItem.toNat + i) < maxItem ∨ state % 16 = segClean) := by
  have hlast : ∀ seg, seg ≥ maxItem ∨ seg = Word.u64Max ↔ maxItem ≤ seg := fun seg =>
    or_iff_left_of_imp fun h => by
      unfold Word.u64Max at h
      omega
  by_cases hgo : SearchAccepted hdr startItem maxItem pageSize ∧ ¬SearchStops hdr startItem maxItem
  · obtain ⟨r, hr, hrun⟩ := setFirstCleanItemInFragment_run hgo.1 (hfit hgo.1.bytes_le) hgo.2
    rw [hrun]
    cases r with
    | none =>
      refine iff_of_true (fun buf' h => ?_) fun _ _ i hi => absurd hi.clean (hr i hi.ge hi.lt)
      exact (Prod.mk.inj (Except.ok.inj h)).1.symm
    | some r =>
      obtain ⟨byteIndex, offset⟩ := r
      obtain ⟨hoffset, hlo, hhi, hclean, hfirst⟩ := hr
      have hitem : IsFirstCleanItem buf.data bitmap hdr startItem maxItem (byteIndex * 2 + offset) :=
        ⟨hlo, hhi, hclean, hfirst⟩
      have hset := @setClean_eq_iff bitmap state buf byteIndex offset hoffset hclean
      unfold takeItem
      simp only [Nat.add_assoc, hlast]
      constructor
      · intro h _ _ i hi
        obtain rfl := hi.eq hitem
        by_contra hbad
        rw [not_or, Nat.not_lt] at hbad
        rw [if_pos hbad.1] at h
        exact hbad.2 (hset.1 (h _ rfl))
      · intro h buf' hbuf
        obtain ⟨rfl, hnone⟩ := Prod.mk.inj (Except.ok.inj hbuf)
        split at hnone
        case isFalse => cases hnone
        case isTrue hbad =>
          rcases h hgo.1 hgo.2 _ hitem with hlt | hstate
          · exact absurd hbad (Nat.not_le.2 hlt)
          · exact hset.2 hstate
  · obtain ⟨e, hrun⟩ := @setFirstCleanItemInFragment_stops buf bitmap state startItem maxItem pageSize
      hdr hfit ((Classical.not_and_iff_not_or_not.1 hgo).imp_right Classical.not_not.1)
    rw [hrun]
    exact iff_of_true (fun _ h => nomatch h) fun hacc hgo' => absurd ⟨hacc, hgo'⟩ hgo

end

theorem setFirstCleanItemInFragment_keeps_16 : ∃ buf : Buf, buf.size = 8 ∧ ∀ buf',
    setFirstCleanItemInFragment buf 0 (onlyFragment 16) 0 16 pageCacheSize segReserved =
      .ok (buf', none) → buf' = buf :=
  ⟨Buf.zero 8, rfl, (@setFirstCleanItemInFragment_keeps_iff (onlyFragment 16) 0 16 pageCacheSize 0
    segReserved (Buf.zero 8) (by decide) fun _ => by decide).2 fun _ _ i hi => .inl (by
      obtain rfl : i = 0 := Nat.eq_zero_of_not_pos fun hpos => hi.first 0 (by decide) hpos rfl
      decide)⟩

/-- The item behind the last of 15 segments is taken, and no segment is found. -/
theorem setFirstCleanItemInFragment_sets_15 :
    ¬∀ buf', setFirstCleanItemInFragment ⟨8, fun x => if x < 7 then 0x99 else 0x09⟩ 0
        (onlyFragment 15) 0 15 pageCacheSize segReserved = .ok (buf', none) →
      buf' = ⟨8, fun x => if x < 7 then 0x99 else 0x09⟩ := by
  intro h
  have hrun : (setFirstCleanItemInFragment ⟨8, fun x => if x < 7 then 0x99 else 0x09⟩ 0
      (onlyFragment 15) 0 15 pageCacheSize segReserved).toOption.map
        (fun r => (r.2, r.1.data 7)) = some (none, 0x99) := by decide +kernel
  cases hr : setFirstCleanItemInFragment ⟨8, fun x => if x < 7 then 0x99 else 0x09⟩ 0
    (onlyFragment 15) 0 15 pageCacheSize segReserved with
  | error e =>
    rw [hr] at hrun
    cases hrun
  | ok r =>
    rw [hr] at hrun
    obtain ⟨hnone, hbyte⟩ := Prod.mk.inj (Option.some.inj hrun)
    rw [h r.1 (by rw [hr, ← hnone])] at hbyte
    exact absurd hbyte (by decide)

end Ssdfs
