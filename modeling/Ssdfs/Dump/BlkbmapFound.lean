import Ssdfs.BlkDesc.Run
import Ssdfs.Dump.Blkbmap

namespace Ssdfs

open Memory

def bitmapBytes (sizes : List Nat) : Nat := 32 + sizes.length * 16 + sizes.sum

def BitmapsAt (areaBuf : Buf) : Nat → List (List Nat) → Prop
  | offset, [] => offset ≤ areaBuf.size
  | offset, sizes :: bitmaps =>
    dataFragmentsCount areaBuf offset = sizes.length ∧
      (∀ i, (h : i < sizes.length) → dataComprSize areaBuf offset i = sizes[i]) ∧
      BitmapsAt areaBuf (offset + bitmapBytes sizes) bitmaps

/-- An area with the bitmaps whose data fragments have the given compressed sizes. -/
structure BlkbmapArea (areaBuf : Buf) (bitmaps : List (List Nat)) : Prop where
  wide : areaBuf.size < 4294967296
  bytesCount : (BlockBitmapHeader.wire.read areaBuf.data 0).bytesCount.toNat ≤ areaBuf.size
  fragmentsCount : (BlockBitmapHeader.wire.read areaBuf.data 0).fragmentsCount.toNat = bitmaps.length
  bitmaps : BitmapsAt areaBuf blkBmapHdrSize bitmaps

def LibrariesInside (decompress : UInt8 → Buf → Nat → Nat → Buf → Nat → Mkfs Buf) (areaBuf : Buf) :
    Nat → List (List Nat) → Prop
  | _, [] => True
  | offset, sizes :: bitmaps =>
    (∀ i < sizes.length, offset + parsedBefore true sizes i < areaBuf.size →
      LibraryInside decompress areaBuf offset i (parsedBefore true sizes i)) ∧
      LibrariesInside decompress areaBuf (offset + bitmapBytes sizes) bitmaps

/-- Nothing depends on whether data is passed over: only the last bitmap has any, and it ends with a
fragment that is not empty, or before the end of the area. -/
structure PassedOver (areaSize offset : Nat) (bitmaps : List (List Nat)) : Prop where
  before : ∀ sizes ∈ bitmaps.dropLast, sizes.sum = 0
  last : ∀ sizes, bitmaps.getLast? = some sizes → 0 < sizes.sum → sizes.getLast? = some 0 →
    offset + (bitmaps.map bitmapBytes).sum < areaSize

/-- Both dumps find the same, and end alike. -/
def SameFound (r r' : Report Errno BlkbmapDump) : Prop := r.1 = r'.1 ∧ r.2.found = r'.2.found

section

variable {decompress : UInt8 → Buf → Nat → Nat → Buf → Nat → Mkfs Buf} {raw : Bool} {areaBuf : Buf} {offset size i j : Nat} {sizes : List Nat}
  {bitmaps : List (List Nat)} {dump : BlkbmapDump}

theorem BitmapsAt.end_le (h : BitmapsAt areaBuf offset bitmaps) :
    offset + (bitmaps.map bitmapBytes).sum ≤ areaBuf.size := by
  induction bitmaps generalizing offset with
  | nil => exact h
  | cons sizes bitmaps ih =>
    have hrest := ih h.2.2
    rw [List.map_cons, List.sum_cons, ← Nat.add_assoc]
    exact hrest

theorem parsedBefore_add_le (h : i < sizes.length) :
    parsedBefore raw sizes i + sizes[i] ≤ bitmapBytes sizes := by
  have hsplit := List.sum_take_add_sum_drop sizes (i + 1)
  rw [List.sum_take_succ _ _ h] at hsplit
  unfold parsedBefore bitmapBytes
  cases raw with
  | false => simp only [Bool.false_eq_true, if_false]; omega
  | true => simp only [if_true]; omega

/-- A bitmap at `offset`, with room for its data fragments. -/
structure BitmapAt (areaBuf : Buf) (offset size : Nat) (sizes : List Nat) : Prop where
  area : InArea areaBuf offset size
  count : dataFragmentsCount areaBuf offset = sizes.length
  comprSize : ∀ i, (h : i < sizes.length) → dataComprSize areaBuf offset i = sizes[i]
  fits : bitmapBytes sizes ≤ size

theorem BitmapAt.sizes_eq (h : BitmapAt areaBuf offset size sizes) : sizes = dataSizes areaBuf offset :=
  List.ext_getElem (by rw [length_dataSizes, h.count]) fun i hi hi' => by
    rw [dataSizes_getElem, h.comprSize i hi]

variable (decompress raw dump)

theorem each_dataFragments (h : BitmapAt areaBuf offset size sizes) (hi : i ≤ sizes.length)
    (hroom : ∀ j < i, parsedBefore raw sizes j < size)
    (hlibrary : raw = true → ∀ j < i, LibraryInside decompress areaBuf offset j (parsedBefore raw sizes j)) :
    ∃ lines, Report.each (parseDataFragment decompress raw areaBuf offset size) (List.range i)
          (dump, parsedBefore raw sizes 0) =
        .ok (none, ⟨dump.found ++ (List.range i).map (foundFragment areaBuf offset), lines⟩,
          parsedBefore raw sizes i) := by
  induction i with
  | zero => exact ⟨dump.lines, by rw [List.range_zero, List.map_nil, List.append_nil]; rfl⟩
  | succ i ih =>
    obtain ⟨lines, hlines⟩ := ih (Nat.le_of_succ_le hi) (fun j hj => hroom j (Nat.lt_succ_of_lt hj))
      fun hraw j hj => hlibrary hraw j (Nat.lt_succ_of_lt hj)
    have hbegin := hroom i (Nat.lt_succ_self i)
    have hrest := h.area.rest
    have hcompr := h.comprSize i hi
    have hend := Nat.le_trans (@parsedBefore_add_le raw _ _ hi) h.fits
    have hdescs : 32 + (i + 1) * 16 ≤ parsedBefore raw sizes i := Nat.le_trans (by omega) parsedBefore_ge
    obtain ⟨lines', hstep⟩ := parseDataFragment_ok decompress raw
      ⟨dump.found ++ (List.range i).map (foundFragment areaBuf offset), lines⟩ h.area hdescs
      ⟨by omega, by omega⟩ fun hraw => hlibrary hraw i (Nat.lt_succ_self i)
    refine ⟨lines', ?_⟩
    rw [List.range_succ, Report.each_append, hlines, Report.andThen_ok]
    rw [hcompr, ← parsedBefore_succ hi, List.append_assoc] at hstep
    rw [List.map_append]
    exact congrArg (fun r => Report.andThen r (Report.each _ [])) hstep

theorem BitmapAt.parse (h : BitmapAt areaBuf offset size sizes) :
    parseBlockBitmapFragment decompress raw areaBuf offset size dump =
      Report.each (parseDataFragment decompress raw areaBuf offset size) (List.range sizes.length)
        (dump.find (foundHeader areaBuf offset), parsedBefore raw sizes 0) := by
  have hroom : 32 ≤ size := by
    have hfits := h.fits
    unfold bitmapBytes at hfits
    omega
  have hget : areaBuf.get Errno BlockBitmapFragment.wire offset =
      .ok (BlockBitmapFragment.wire.read areaBuf.data offset) := Buf.get_ok (by
    have hrest := h.area.rest
    change offset + 32 ≤ areaBuf.size
    omega)
  have hstart : parsedBefore raw sizes 0 = 32 + dataFragmentsCount areaBuf offset * 16 := by
    rw [h.count]
    cases raw <;> rfl
  rw [hstart, ← h.count]
  unfold parseBlockBitmapFragment blkBmapFragHdrSize
  rw [failIf_of_not (Nat.not_lt.2 hroom), Report.attempt_ok, hget]
  rfl

theorem BitmapAt.parse_all (h : BitmapAt areaBuf offset size sizes)
    (hroom : ∀ j < sizes.length, parsedBefore raw sizes j < size)
    (hlibrary : raw = true → ∀ j < sizes.length,
      LibraryInside decompress areaBuf offset j (parsedBefore raw sizes j)) :
    ∃ lines, parseBlockBitmapFragment decompress raw areaBuf offset size dump =
        .ok (none, ⟨dump.found ++ foundBitmap areaBuf offset sizes.length, lines⟩,
          parsedBefore raw sizes sizes.length) := by
  obtain ⟨lines, hlines⟩ := each_dataFragments decompress raw
    (dump.find (foundHeader areaBuf offset)) h (Nat.le_refl _) hroom hlibrary
  refine ⟨lines, ?_⟩
  rw [h.parse, hlines, BlkbmapDump.find, List.append_assoc]
  rfl

theorem BitmapAt.parse_full (h : BitmapAt areaBuf offset size sizes) (hi : i < sizes.length)
    (hroom : ∀ j < i, parsedBefore raw sizes j < size)
    (hlibrary : raw = true → ∀ j < i, LibraryInside decompress areaBuf offset j (parsedBefore raw sizes j))
    (hfull : size ≤ parsedBefore raw sizes i) :
    ∃ lines, parseBlockBitmapFragment decompress raw areaBuf offset size dump =
      .ok (some .einval, ⟨dump.found ++ foundBitmap areaBuf offset i, lines⟩, parsedBefore raw sizes i) := by
  obtain ⟨lines, hlines⟩ := each_dataFragments decompress raw
    (dump.find (foundHeader areaBuf offset)) h (Nat.le_of_lt hi) hroom hlibrary
  refine ⟨lines, ?_⟩
  obtain ⟨rest, hsplit⟩ : ∃ rest, List.range sizes.length = List.range i ++ i :: rest := by
    obtain ⟨k, hk⟩ := Nat.exists_eq_add_of_lt hi
    rw [hk, Nat.add_assoc, List.range_add, List.range_succ_eq_map]
    exact ⟨_, rfl⟩
  rw [h.parse, hsplit, Report.each_append, hlines, Report.andThen_ok]
  have hstop : parseDataFragment decompress raw areaBuf offset size i
      (⟨(dump.find (foundHeader areaBuf offset)).found ++ (List.range i).map (foundFragment areaBuf offset),
        lines⟩, parsedBefore raw sizes i) = .ok (some .einval, _, _) :=
    parseDataFragment_full decompress raw _ hfull
  refine (congrArg (fun r => Report.andThen r (Report.each _ _)) hstop).trans ?_
  rw [Report.andThen_code, BlkbmapDump.find, List.append_assoc]
  rfl

variable {decompress raw dump}

theorem sameFound_of_prefix {r r' : Report Errno BlkbmapDump} {found : List BlkbmapFound}
    {item item' : BlkbmapFound} (h : found ++ [item] <+: r.2.found) (h' : found ++ [item'] <+: r'.2.found)
    (hsame : SameFound r r') : item = item' := by
  obtain ⟨rest, hrest⟩ := h
  obtain ⟨rest', hrest'⟩ := h'
  have heq : found ++ [item] ++ rest = found ++ [item'] ++ rest' := by
    rw [hrest, hrest', hsame.2]
  rw [List.append_assoc, List.append_assoc] at heq
  exact (List.cons.inj (List.append_cancel_left heq)).1

theorem PassedOver.cons_cons {next : List Nat} : PassedOver areaBuf.size offset (sizes :: next :: bitmaps) ↔
    sizes.sum = 0 ∧ PassedOver areaBuf.size (offset + bitmapBytes sizes) (next :: bitmaps) := by
  have hsum : offset + ((sizes :: next :: bitmaps).map bitmapBytes).sum =
      offset + bitmapBytes sizes + ((next :: bitmaps).map bitmapBytes).sum := by
    rw [List.map_cons, List.sum_cons, Nat.add_assoc]
  constructor
  · rintro ⟨hbefore, hlast⟩
    rw [List.dropLast_cons_cons, List.forall_mem_cons] at hbefore
    rw [List.getLast?_cons_cons, hsum] at hlast
    exact ⟨hbefore.1, hbefore.2, hlast⟩
  · rintro ⟨hnone, hbefore, hlast⟩
    refine ⟨?_, ?_⟩
    · rw [List.dropLast_cons_cons, List.forall_mem_cons]
      exact ⟨hnone, hbefore⟩
    · rw [List.getLast?_cons_cons, hsum]
      exact hlast

theorem parsedBefore_ne_zero : parsedBefore raw sizes i ≠ 0 := by
  unfold parsedBefore
  omega

theorem PassedOver.single_iff : PassedOver areaBuf.size offset [sizes] ↔
    (0 < sizes.sum → sizes.getLast? = some 0 → offset + bitmapBytes sizes < areaBuf.size) :=
  ⟨fun h => h.last sizes rfl, fun h => ⟨nofun, fun _ heq => by
    cases heq
    exact h⟩⟩

theorem sum_take_of_getLast (h : sizes.getLast? = some 0) :
    0 < sizes.length ∧ (sizes.take (sizes.length - 1)).sum = sizes.sum := by
  rw [List.getLast?_eq_getElem?] at h
  obtain ⟨hlt, hzero⟩ := List.getElem?_eq_some_iff.1 h
  refine ⟨by omega, ?_⟩
  have hsplit := List.sum_take_add_sum_drop sizes (sizes.length - 1 + 1)
  rw [List.sum_take_succ _ _ hlt, hzero, List.drop_eq_nil_of_le (by omega)] at hsplit
  simpa using hsplit

theorem getLast_of_sum_take (hi : i < sizes.length) (h : sizes.sum ≤ (sizes.take i).sum) :
    sizes.getLast? = some 0 := by
  have hsplit := List.sum_take_add_sum_drop sizes i
  have hrest : (sizes.drop i).sum = 0 := by omega
  have hlast : sizes[sizes.length - 1] ∈ sizes.drop i :=
    List.mem_drop_iff_getElem.2 ⟨sizes.length - 1 - i, by omega, by congr 1; omega⟩
  rw [List.getLast?_eq_getElem?, List.getElem?_eq_getElem (by omega)]
  exact congrArg some (List.sum_eq_zero_iff.1 hrest _ hlast)

theorem BitmapAt.same_iff {dump' : BlkbmapDump} (h : BitmapAt areaBuf offset size sizes)
    (hlibrary : ∀ j < sizes.length, parsedBefore true sizes j < size →
      LibraryInside decompress areaBuf offset j (parsedBefore true sizes j))
    (hdump : dump.found = dump'.found) : ∃ r r' p p',
      parseBlockBitmapFragment decompress true areaBuf offset size dump = .ok (r.1, r.2, p) ∧
      parseBlockBitmapFragment decompress false areaBuf offset size dump' = .ok (r'.1, r'.2, p') ∧
      (SameFound r r' ↔ PassedOver areaBuf.size offset [sizes]) ∧ p ≠ 0 ∧ p' ≠ 0 := by
  have hfits := h.fits
  have hrest := h.area.rest
  rw [PassedOver.single_iff]
  unfold bitmapBytes at hfits ⊢
  by_cases hroom : 32 + sizes.length * 16 < size
  · obtain ⟨lines', hplain⟩ := h.parse_all decompress false dump' (fun _ _ => hroom) nofun
    by_cases hall : ∀ j < sizes.length, parsedBefore true sizes j < size
    · obtain ⟨lines, hraw⟩ := h.parse_all decompress true dump hall fun _ j hj => hlibrary j hj (hall j hj)
      refine ⟨(none, _), (none, _), _, _, hraw, hplain, iff_of_true ⟨rfl, ?_⟩ fun _ hlast => ?_,
        parsedBefore_ne_zero, parsedBefore_ne_zero⟩
      · simp only
        rw [hdump]
      · obtain ⟨hlen, htake⟩ := sum_take_of_getLast hlast
        have hbefore := hall (sizes.length - 1) (by omega)
        rw [parsedBefore_true, htake] at hbefore
        omega
    · have hex : ∃ j, j < sizes.length ∧ ¬parsedBefore true sizes j < size := by
        obtain ⟨j, hj⟩ := not_forall.1 hall
        exact ⟨j, Classical.not_imp.1 hj⟩
      classical
      obtain ⟨hlt, hfull⟩ := Nat.find_spec hex
      have hbefore : ∀ j < Nat.find hex, parsedBefore true sizes j < size := fun j hj => by
        by_contra hnot
        exact Nat.find_min hex hj ⟨Nat.lt_trans hj hlt, hnot⟩
      obtain ⟨lines, hraw⟩ := h.parse_full decompress true dump hlt hbefore
        (fun _ j hj => hlibrary j (Nat.lt_trans hj hlt) (hbefore j hj)) (Nat.not_lt.1 hfull)
      refine ⟨(some .einval, _), (none, _), _, _, hraw, hplain, iff_of_false (fun hs => nomatch hs.1)
        fun hc => ?_, parsedBefore_ne_zero, parsedBefore_ne_zero⟩
      rw [parsedBefore_true] at hfull
      have hempty := hc (by
        have hsplit := List.sum_take_add_sum_drop sizes (Nat.find hex)
        omega) (getLast_of_sum_take hlt (by omega))
      have hsplit := List.sum_take_add_sum_drop sizes (Nat.find hex)
      omega
  · have hnone : sizes.sum = 0 := by omega
    by_cases hlen : 0 < sizes.length
    · obtain ⟨lines, hraw⟩ := h.parse_full decompress true dump hlen
        (fun j hj => absurd hj (Nat.not_lt_zero j)) (fun _ j hj => absurd hj (Nat.not_lt_zero j))
        (Nat.not_lt.1 hroom)
      obtain ⟨lines', hplain⟩ := h.parse_full decompress false dump' hlen
        (fun j hj => absurd hj (Nat.not_lt_zero j)) (fun _ j hj => absurd hj (Nat.not_lt_zero j))
        (Nat.not_lt.1 hroom)
      refine ⟨(some .einval, _), (some .einval, _), _, _, hraw, hplain, iff_of_true ⟨rfl, ?_⟩
        fun hpos => absurd hnone (Nat.ne_of_gt hpos), parsedBefore_ne_zero, parsedBefore_ne_zero⟩
      simp only
      rw [hdump]
    · have hvac : ∀ {raw}, ∀ j < sizes.length, parsedBefore raw sizes j < size :=
        fun j hj => absurd (Nat.lt_of_le_of_lt (Nat.zero_le j) hj) hlen
      obtain ⟨lines, hraw⟩ := h.parse_all decompress true dump hvac fun _ j hj => hlibrary j hj (hvac j hj)
      obtain ⟨lines', hplain⟩ := h.parse_all decompress false dump' hvac nofun
      refine ⟨(none, _), (none, _), _, _, hraw, hplain, iff_of_true ⟨rfl, ?_⟩
        fun hpos => absurd hnone (Nat.ne_of_gt hpos), parsedBefore_ne_zero, parsedBefore_ne_zero⟩
      simp only
      rw [hdump]

theorem BitmapsAt.first (h : BitmapsAt areaBuf offset (sizes :: bitmaps))
    (hwide : areaBuf.size < 4294967296) : BitmapAt areaBuf offset (areaBuf.size - offset) sizes := by
  have hend := h.end_le
  rw [List.map_cons, List.sum_cons] at hend
  exact ⟨⟨by omega, hwide⟩, h.1, h.2.1, by omega⟩

theorem parseBlockBitmapFragments_last {r : Report Errno BlkbmapDump} {parsed : Nat}
    (hle : offset ≤ areaBuf.size) (hwide : areaBuf.size < 4294967296)
    (h : parseBlockBitmapFragment decompress raw areaBuf offset (areaBuf.size - offset) dump =
      .ok (r.1, r.2, parsed)) : parseBlockBitmapFragments decompress raw areaBuf 1 offset dump = .ok r := by
  obtain ⟨e, dump'⟩ := r
  unfold parseBlockBitmapFragments
  simp only
  rw [Word.sub32_of_le hle hwide, h, Checked.ok_bind]
  cases e with
  | some e => rfl
  | none =>
    simp only [Option.isSome_none, Bool.false_eq_true, if_false]
    split <;> rfl

theorem parseBlockBitmapFragments_next {dump' : BlkbmapDump} {count parsed : Nat}
    (hwide : areaBuf.size < 4294967296) (hparsed : parsed ≠ 0) (hle : offset + parsed ≤ areaBuf.size)
    (h : parseBlockBitmapFragment decompress raw areaBuf offset (areaBuf.size - offset) dump =
      .ok (none, dump', parsed)) : parseBlockBitmapFragments decompress raw areaBuf (count + 1) offset dump =
      parseBlockBitmapFragments decompress raw areaBuf count (offset + parsed) dump' := by
  have hnext : Word.u32 (offset + parsed) = offset + parsed := Word.u32_of_lt (by omega)
  conv => lhs; unfold parseBlockBitmapFragments
  simp only
  rw [Word.sub32_of_le (by omega) hwide, h, Checked.ok_bind]
  simp only [Option.isSome_none, Bool.false_eq_true, if_false]
  rw [if_neg hparsed, hnext]

theorem BitmapAt.not_returns (h : BitmapAt areaBuf offset size sizes)
    (hnot : ¬∀ j < sizes.length, parsedBefore true sizes j < size →
      LibraryInside decompress areaBuf offset j (parsedBefore true sizes j)) :
    ¬Checked.Returns (parseBlockBitmapFragment decompress true areaBuf offset size dump) := by
  have hrest := h.area.rest
  have hfits := h.fits
  rw [(parseBlockBitmapFragment_contained decompress true dump h.area).returns]
  refine fun hinside => hnot fun j hj hbegin => ?_
  have hpassed := hinside rfl (by
    unfold bitmapBytes at hfits
    omega) j (h.count ▸ hj)
  rw [← h.sizes_eq] at hpassed
  refine hpassed fun k hk => ?_
  have hlt := Nat.lt_of_le_of_lt hk hj
  have hle := @parsedBefore_mono true _ _ _ hk (Nat.le_of_lt hj)
  have hend := @parsedBefore_add_le true _ _ hlt
  rw [← h.comprSize k hlt] at hend
  exact ⟨by omega, by omega⟩

/-- From bitmaps that lie one behind the other both dumps find the same if and only if the libraries stay
inside their buffers and nothing depends on whether data is passed over: induction over the bitmaps, as long
as those before hold no data. -/
theorem parseBlockBitmapFragments_same_iff {dump' : BlkbmapDump} (hwide : areaBuf.size < 4294967296)
    (h : BitmapsAt areaBuf offset bitmaps) (hdump : dump.found = dump'.found) :
    (∃ r r', parseBlockBitmapFragments decompress true areaBuf bitmaps.length offset dump = .ok r ∧
      parseBlockBitmapFragments decompress false areaBuf bitmaps.length offset dump' = .ok r' ∧
      SameFound r r') ↔
      LibrariesInside decompress areaBuf offset bitmaps ∧ PassedOver areaBuf.size offset bitmaps := by
  induction bitmaps generalizing offset dump dump' with
  | nil => exact iff_of_true ⟨_, _, rfl, rfl, rfl, hdump⟩ ⟨trivial, nofun, nofun⟩
  | cons sizes bitmaps ih =>
    have hfirst := h.first hwide
    have hend := h.end_le
    rw [List.map_cons, List.sum_cons] at hend
    by_cases hlibrary : ∀ j < sizes.length, parsedBefore true sizes j < areaBuf.size - offset →
        LibraryInside decompress areaBuf offset j (parsedBefore true sizes j)
    · have hlibrary' : ∀ j < sizes.length, offset + parsedBefore true sizes j < areaBuf.size →
          LibraryInside decompress areaBuf offset j (parsedBefore true sizes j) :=
        fun j hj hbegin => hlibrary j hj (by omega)
      unfold LibrariesInside
      rw [and_iff_right hlibrary']
      cases bitmaps with
      | nil =>
        obtain ⟨r, r', p, p', hr, hr', hiff, -, -⟩ := hfirst.same_iff hlibrary hdump
        have hle : offset ≤ areaBuf.size := by omega
        have hraw := parseBlockBitmapFragments_last hle hwide hr
        have hplain := parseBlockBitmapFragments_last hle hwide hr'
        refine ⟨?_, fun hpassed => ⟨r, r', hraw, hplain, hiff.2 hpassed.2⟩⟩
        rintro ⟨s, s', hs, hs', hsame⟩
        cases hraw.symm.trans hs
        cases hplain.symm.trans hs'
        exact ⟨trivial, hiff.1 hsame⟩
      | cons next bitmaps =>
        rw [List.map_cons, List.sum_cons] at hend
        have hroom : offset + bitmapBytes sizes + 32 ≤ areaBuf.size := by
          have hnext : 32 ≤ bitmapBytes next := by
            unfold bitmapBytes
            omega
          omega
        have hbytes : bitmapBytes sizes = 32 + sizes.length * 16 + sizes.sum := rfl
        -- the next bitmap leaves room for every data fragment of this one
        have hbefore : ∀ {raw}, ∀ j < sizes.length, parsedBefore raw sizes j < areaBuf.size - offset :=
          fun {raw} j hj => by
            have hle := @parsedBefore_add_le raw _ _ hj
            omega
        obtain ⟨lines, hraw⟩ := hfirst.parse_all decompress true dump hbefore
          fun _ j hj => hlibrary j hj (hbefore j hj)
        obtain ⟨lines', hplain⟩ := hfirst.parse_all decompress false dump' hbefore nofun
        have htrue : parsedBefore true sizes sizes.length = bitmapBytes sizes := by
          rw [parsedBefore_true, List.take_length]
          rfl
        rw [htrue] at hraw
        rw [parsedBefore_false] at hplain
        rw [PassedOver.cons_cons, List.length_cons,
          parseBlockBitmapFragments_next hwide (by omega) (by omega) hraw,
          parseBlockBitmapFragments_next hwide (by omega) (by omega) hplain]
        by_cases hsum : sizes.sum = 0
        · have hsame : 32 + sizes.length * 16 = bitmapBytes sizes := by omega
          rw [and_iff_right hsum, hsame]
          exact ih h.2.2 (congrArg (· ++ foundBitmap areaBuf offset sizes.length) hdump)
        · -- the plain dump reads the next header in front of the data
          refine iff_of_false ?_ fun hp => hsum hp.2.1
          rintro ⟨r, r', hr, hr', hsame⟩
          have hfound := parseBlockBitmapFragments_leaves_header decompress true _ hroom hwide _ _ hr
          have hfound' := parseBlockBitmapFragments_leaves_header decompress false _
            (show offset + (32 + sizes.length * 16) + 32 ≤ areaBuf.size by omega) hwide _ _ hr'
          have hitem := sameFound_of_prefix hfound (hdump ▸ hfound') hsame
          have hoffset := (BlkbmapFound.header.inj hitem).1
          omega
    · refine iff_of_false ?_ fun hinside => hlibrary fun j hj hbegin => hinside.1.1 j hj (by omega)
      rintro ⟨r, -, hr, -⟩
      refine @BitmapAt.not_returns decompress _ _ _ _ dump hfirst hlibrary ?_
      obtain ⟨st, hst, -⟩ := Checked.bind_eq_ok.1 hr
      rw [Word.sub32_of_le (by omega) hwide] at hst
      rw [hst]
      exact Checked.returns_ok

/-- Both dumps of an area find the same if and only if no data of a fragment has to be passed over, and the
libraries stay inside their buffers. -/
theorem parseBlockBitmap_sameFound_iff (h : BlkbmapArea areaBuf bitmaps) :
    (∃ r r', parseBlockBitmap decompress true areaBuf = .ok r ∧
      parseBlockBitmap decompress false areaBuf = .ok r' ∧ SameFound r r') ↔
      LibrariesInside decompress areaBuf blkBmapHdrSize bitmaps ∧
        PassedOver areaBuf.size blkBmapHdrSize bitmaps := by
  have hend := h.bitmaps.end_le
  have hget : areaBuf.get Errno BlockBitmapHeader.wire 0 =
      .ok (BlockBitmapHeader.wire.read areaBuf.data 0) := Buf.get_ok (by
    change 0 + blkBmapHdrSize ≤ areaBuf.size
    omega)
  have hparse : ∀ raw, parseBlockBitmap decompress raw areaBuf =
      parseBlockBitmapFragments decompress raw areaBuf bitmaps.length blkBmapHdrSize ⟨[], []⟩ := fun raw => by
    unfold parseBlockBitmap
    rw [hget, Checked.ok_bind, failIf_of_not (Nat.not_lt.2 h.bytesCount), Report.attempt_ok,
      h.fragmentsCount]
  rw [hparse, hparse]
  exact parseBlockBitmapFragments_same_iff h.wide h.bitmaps rfl

end

def fourByteBitmap : List UInt8 :=
  List.replicate 24 0 ++ [1, 0] ++ List.replicate 6 0 ++ [0, 0, 0, 0, 4, 0, 4, 0] ++ List.replicate 8 0 ++
    [1, 2, 3, 4]

def fourByteBitmaps (count : UInt8) : List UInt8 :=
  List.replicate 8 0 ++ [count, 0] ++ List.replicate 6 0 ++
    (List.replicate count.toNat fourByteBitmap).flatten

def fourByteArea (count : UInt8) : Buf :=
  ⟨(fourByteBitmaps count).length, fun i => (fourByteBitmaps count).getD i 0⟩

theorem fourByteArea_one : BlkbmapArea (fourByteArea 1) [[4]] where
  wide := by decide +kernel
  bytesCount := by decide +kernel
  fragmentsCount := by decide +kernel
  bitmaps := ⟨by decide +kernel, by decide +kernel, by
    change 16 + 52 ≤ (fourByteArea 1).size
    decide +kernel⟩

theorem fourByteArea_two : BlkbmapArea (fourByteArea 2) [[4], [4]] where
  wide := by decide +kernel
  bytesCount := by decide +kernel
  fragmentsCount := by decide +kernel
  bitmaps := ⟨by decide +kernel, by decide +kernel, by decide +kernel, by decide +kernel, by
    change 16 + 52 + 52 ≤ (fourByteArea 2).size
    decide +kernel⟩

/-- Behind the data of the only bitmap there is nothing to find. -/
theorem parseBlockBitmap_sameFound_one : ∃ r r', parseBlockBitmap noDecompress true (fourByteArea 1) = .ok r ∧
    parseBlockBitmap noDecompress false (fourByteArea 1) = .ok r' ∧ SameFound r r' :=
  (parseBlockBitmap_sameFound_iff fourByteArea_one).2
    ⟨⟨fun _ _ _ _ => Checked.returns_code, trivial⟩, nofun, fun _ heq _ hlast => by
      cases heq
      cases hlast⟩

/-- Without the raw dump the data of the first bitmap is taken for the header of the second one. -/
theorem parseBlockBitmap_differs : BlkbmapArea (fourByteArea 2) [[4], [4]] ∧
    ¬∃ r r', parseBlockBitmap noDecompress true (fourByteArea 2) = .ok r ∧
      parseBlockBitmap noDecompress false (fourByteArea 2) = .ok r' ∧ SameFound r r' := by
  refine ⟨fourByteArea_two, ?_⟩
  rintro ⟨r, r', h, h', hsame⟩
  have hfound : (parseBlockBitmap noDecompress true (fourByteArea 2)).map (fun r => r.2.found.length) = .ok 4 := by
    decide +kernel
  have hfound' : (parseBlockBitmap noDecompress false (fourByteArea 2)).map (fun r => r.2.found.length) ≠ .ok 4 := by
    decide +kernel
  rw [h] at hfound
  rw [h'] at hfound'
  refine hfound' (Eq.trans ?_ hfound)
  exact congrArg (fun found => Except.ok found.length) hsame.2.symm

end Ssdfs
