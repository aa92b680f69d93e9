import Ssdfs.Blkbmap.Run
import Ssdfs.Dump.RawDump
import Ssdfs.Lib.Confined

namespace Ssdfs

open Memory

inductive BlkbmapFound
  | header (offset : Nat) (hdr : BlockBitmapFragment)
  | fragment (offset : Nat) (frag : FragmentDesc)
  deriving DecidableEq

structure BlkbmapDump where
  found : List BlkbmapFound
  lines : List (List Char)

def BlkbmapDump.find (dump : BlkbmapDump) (item : BlkbmapFound) : BlkbmapDump :=
  { dump with found := dump.found ++ [item] }

section

variable (decompress : UInt8 → Buf → Nat → Nat → Buf → Nat → Mkfs Buf) (rawDumpRequested : Bool)
  (areaBuf : Buf)

def rawFragmentData (frag : FragmentDesc) (place : Nat) : Mkfs (List UInt8 × Nat) := do
  let comprSize := frag.comprSize.toNat
  let uncomprSize := frag.uncomprSize.toNat
  let stored ← areaBuf.bytes Errno place comprSize
  if (fragmentCompressionOf frag.type).isSome then
    match decompress frag.type areaBuf place comprSize (Buf.zero uncomprSize) uncomprSize with
    | .error (.code _) => .ok (stored, comprSize)
    | .error e => .error e
    | .ok data => .ok (slice data.data 0 uncomprSize, uncomprSize)
  else .ok (stored, comprSize)

def showRawDataString (data : Bytes) (offset rawDataBytes : Nat) (st : Nat × List (List Char)) :
    Mkfs (Round (Nat × List (List Char)) (List (List Char))) :=
  let (displayedBytes, lines) := st
  let (line, res) := showRawString (Word.u32 (offset + displayedBytes))
    (fun i => data (displayedBytes + i)) (Word.sub32 rawDataBytes displayedBytes)
  let displayedBytes := Word.u32 (displayedBytes + res)
  .ok (if displayedBytes < rawDataBytes then .again (displayedBytes, lines ++ [line])
    else .leave (lines ++ [line]))

/-- Every string but the last one takes more than a byte, so that the fuel is enough. -/
def showRawData (data : List UInt8) (offset rawDataBytes : Nat) (lines : List (List Char)) :
    Mkfs (List (List Char)) :=
  Checked.loop (showRawDataString (fun i => data.getD i 0) offset rawDataBytes) (rawDataBytes + 1)
    (0, lines)

def parseDataFragment (offset size i : Nat) (st : BlkbmapDump × Nat) :
    Mkfs (Report Errno (BlkbmapDump × Nat)) :=
  let (dump, parsedBytes) := st
  Report.attempt (failIf (parsedBytes ≥ size) .einval) st fun _ => do
    let fragOffset := offset + blkBmapFragHdrSize + i * fragmentDescSize
    let frag ← areaBuf.get Errno FragmentDesc.wire fragOffset
    let dump := dump.find (.fragment fragOffset frag)
    let comprSize := frag.comprSize.toNat
    Report.attempt (failIf (Word.sub32 size parsedBytes < comprSize) .einval) (dump, parsedBytes) fun _ =>
      if !rawDumpRequested then .ok (none, (dump, parsedBytes))
      else do
        let (data, rawDataBytes) ← rawFragmentData decompress areaBuf frag (offset + parsedBytes)
        let lines ← showRawData data (Word.u32 (offset + parsedBytes)) rawDataBytes dump.lines
        .ok (none, ({ dump with lines }, Word.u32 (parsedBytes + comprSize)))

def parseBlockBitmapFragment (offset size : Nat) (dump : BlkbmapDump) :
    Mkfs (Report Errno (BlkbmapDump × Nat)) :=
  Report.attempt (failIf (size < blkBmapFragHdrSize) .einval) (dump, 0) fun _ => do
    let hdr ← areaBuf.get Errno BlockBitmapFragment.wire offset
    let fragmentsCount := hdr.chainHdr.fragmentsCount.toNat
    Report.each (parseDataFragment decompress rawDumpRequested areaBuf offset size) (List.range fragmentsCount)
      (dump.find (.header offset hdr), blkBmapFragHdrSize + fragmentsCount * fragmentDescSize)

/-- The fragments from `offset` on, of which there are still `count`. -/
def parseBlockBitmapFragments : Nat → Nat → BlkbmapDump → Mkfs (Report Errno BlkbmapDump)
  | 0, _, dump => .ok (none, dump)
  | count + 1, offset, dump => do
    let size := Word.sub32 areaBuf.size offset
    let (err, dump, parsedBytes) ← parseBlockBitmapFragment decompress rawDumpRequested areaBuf offset size dump
    if err.isSome then .ok (err, dump)
    else if parsedBytes = 0 then .ok (none, dump)
    else parseBlockBitmapFragments count (Word.u32 (offset + parsedBytes)) dump

def parseBlockBitmap : Mkfs (Report Errno BlkbmapDump) := do
  let hdr ← areaBuf.get Errno BlockBitmapHeader.wire 0
  Report.attempt (failIf (areaBuf.size < hdr.bytesCount.toNat) .einval) ⟨[], []⟩ fun _ =>
    parseBlockBitmapFragments decompress rawDumpRequested areaBuf hdr.fragmentsCount.toNat blkBmapHdrSize
      ⟨[], []⟩

end

section

variable {decompress : UInt8 → Buf → Nat → Nat → Buf → Nat → Mkfs Buf} {raw : Bool} {areaBuf : Buf}
  {dump : BlkbmapDump}
  {offset size parsed i n : Nat} {frag : FragmentDesc}

theorem showRawData_ok (data : List UInt8) (offset : Nat) {rawDataBytes : Nat} (lines : List (List Char))
    (h : rawDataBytes < 65536) : ∃ lines', showRawData data offset rawDataBytes lines = .ok lines' := by
  obtain ⟨lines', hlines, -⟩ := @Checked.loop_returns _ _ _
    (showRawDataString (fun i => data.getD i 0) offset rawDataBytes) (0, lines) (rawDataBytes + 1)
    (fun st => st.1 ≤ rawDataBytes) (fun st => rawDataBytes - st.1) (fun _ => True) (Nat.zero_le _)
    (fun st hst => by
      have hnext : Word.u32 (st.1 + rawStringLen) = st.1 + rawStringLen := Word.u32_of_lt (by
        unfold rawStringLen
        omega)
      obtain ⟨lines', hround⟩ : ∃ lines', showRawDataString (fun i => data.getD i 0) offset rawDataBytes st =
          .ok (if st.1 + rawStringLen < rawDataBytes then .again (st.1 + rawStringLen, lines')
            else .leave lines') := ⟨_, by rw [← hnext]; rfl⟩
      rw [hround]
      by_cases hmore : st.1 + rawStringLen < rawDataBytes
      · rw [if_pos hmore]
        refine .inl ⟨_, rfl, Nat.le_of_lt hmore, ?_⟩
        unfold rawStringLen at hmore ⊢
        simp only
        omega
      · rw [if_neg hmore]
        exact .inr ⟨_, rfl, trivial⟩) (Nat.lt_succ_self _)
  exact ⟨lines', hlines⟩

theorem rawFragmentData_lt {place : Nat} {shown : List UInt8 × Nat}
    (h : rawFragmentData decompress areaBuf frag place = .ok shown) : shown.2 < 65536 := by
  obtain ⟨stored, -, h⟩ := Checked.bind_eq_ok.1 h
  split at h
  · split at h
    · cases h
      exact frag.comprSize.toNat_lt
    · cases h
    · cases h
      exact frag.uncomprSize.toNat_lt
  · cases h
    exact frag.comprSize.toNat_lt

def foundFragment (areaBuf : Buf) (offset i : Nat) : BlkbmapFound :=
  .fragment (offset + 32 + i * 16) (FragmentDesc.wire.read areaBuf.data (offset + 32 + i * 16))

def foundHeader (areaBuf : Buf) (offset : Nat) : BlkbmapFound :=
  .header offset (BlockBitmapFragment.wire.read areaBuf.data offset)

def dataComprSize (areaBuf : Buf) (offset i : Nat) : Nat :=
  (FragmentDesc.wire.read areaBuf.data (offset + 32 + i * 16)).comprSize.toNat

/-- The number of data fragments that the header at `offset` tells of. -/
def dataFragmentsCount (areaBuf : Buf) (offset : Nat) : Nat :=
  (BlockBitmapFragment.wire.read areaBuf.data offset).chainHdr.fragmentsCount.toNat

structure InArea (areaBuf : Buf) (offset size : Nat) : Prop where
  rest : offset + size = areaBuf.size
  wide : areaBuf.size < 4294967296

/-- The compressed sizes of the data fragments that the bitmap at `offset` tells of. -/
def dataSizes (areaBuf : Buf) (offset : Nat) : List Nat :=
  (List.range (dataFragmentsCount areaBuf offset)).map (dataComprSize areaBuf offset)

/-- The bytes that are parsed before data fragment `i`. -/
def parsedBefore (raw : Bool) (sizes : List Nat) (i : Nat) : Nat :=
  32 + sizes.length * 16 + if raw then (sizes.take i).sum else 0

/-- Data fragment `i`, which lies `parsed` bytes behind the begin of its bitmap, begins and ends inside the
area. -/
def DataInside (areaBuf : Buf) (offset i parsed : Nat) : Prop :=
  offset + parsed < areaBuf.size ∧ offset + parsed + dataComprSize areaBuf offset i ≤ areaBuf.size

/-- With data fragment `i` the library stays inside its buffers. -/
def LibraryInside (decompress : UInt8 → Buf → Nat → Nat → Buf → Nat → Mkfs Buf) (areaBuf : Buf)
    (offset i parsed : Nat) : Prop :=
  let frag := FragmentDesc.wire.read areaBuf.data (offset + 32 + i * 16)
  (fragmentCompressionOf frag.type).isSome = true → Checked.Returns (decompress frag.type areaBuf
    (offset + parsed) frag.comprSize.toNat (Buf.zero frag.uncomprSize.toNat) frag.uncomprSize.toNat)

theorem rawFragmentData_unrefused {place : Nat} :
    Checked.Unrefused (rawFragmentData decompress areaBuf frag place) :=
  Checked.Unrefused.bind Checked.Unrefused.access fun stored _ => by
    split
    · split
      · exact Checked.Unrefused.ok
      · rename_i hcode _
        exact fun e he => hcode e (Except.error.inj he)
      · exact Checked.Unrefused.ok
    · exact Checked.Unrefused.ok

/-- The stored bytes are read inside the area, so that only the library may stray. -/
theorem rawFragmentData_returns_iff (hinside : DataInside areaBuf offset i parsed) :
    Checked.Returns (rawFragmentData decompress areaBuf
      (FragmentDesc.wire.read areaBuf.data (offset + 32 + i * 16)) (offset + parsed)) ↔
      LibraryInside decompress areaBuf offset i parsed := by
  have hfit := hinside.2
  unfold dataComprSize at hfit
  unfold rawFragmentData LibraryInside
  simp only
  rw [Buf.bytes_ok hfit, Checked.ok_bind]
  by_cases hcompressed : (fragmentCompressionOf
      (FragmentDesc.wire.read areaBuf.data (offset + 32 + i * 16)).type).isSome = true
  · rw [if_pos hcompressed, forall_prop_of_true hcompressed]
    generalize decompress _ _ _ _ _ _ = r
    match r with
    | .ok data => exact iff_of_true Checked.returns_ok Checked.returns_ok
    | .error (.code e) => exact iff_of_true Checked.returns_ok Checked.returns_code
    | .error .abort | .error .trap | .error .stray | .error .fuel =>
      exact iff_of_false (Checked.not_returns_of_ne nofun) (Checked.not_returns_of_ne nofun)
  · rw [if_neg hcompressed]
    exact iff_of_true Checked.returns_ok fun h => absurd h hcompressed

variable (decompress raw dump)

theorem parseDataFragment_inside (harea : InArea areaBuf offset size) (hdesc : 32 + (i + 1) * 16 ≤ parsed)
    (hinside : DataInside areaBuf offset i parsed) :
    parseDataFragment decompress raw areaBuf offset size i (dump, parsed) =
      if !raw then .ok (none, dump.find (foundFragment areaBuf offset i), parsed)
      else rawFragmentData decompress areaBuf
          (FragmentDesc.wire.read areaBuf.data (offset + 32 + i * 16)) (offset + parsed) >>= fun shown =>
        showRawData shown.1 (Word.u32 (offset + parsed)) shown.2 dump.lines >>= fun lines =>
        .ok (none, ⟨dump.found ++ [foundFragment areaBuf offset i], lines⟩,
          parsed + dataComprSize areaBuf offset i) := by
  obtain ⟨hrest, hwide⟩ := harea
  obtain ⟨hbegin, hend⟩ := hinside
  have hget : areaBuf.get Errno FragmentDesc.wire (offset + 32 + i * 16) =
      .ok (FragmentDesc.wire.read areaBuf.data (offset + 32 + i * 16)) := Buf.get_ok (by
    change offset + 32 + i * 16 + 16 ≤ areaBuf.size
    omega)
  have hsub : Word.sub32 size parsed = size - parsed := Word.sub32_of_le (by omega) (by omega)
  have hnext : Word.u32 (parsed + dataComprSize areaBuf offset i) =
      parsed + dataComprSize areaBuf offset i := Word.u32_of_lt (by omega)
  unfold dataComprSize at hend hnext ⊢
  unfold parseDataFragment blkBmapFragHdrSize fragmentDescSize
  simp only
  rw [failIf_of_not (by omega), Report.attempt_ok, hget, Checked.ok_bind, hsub,
    failIf_of_not (by omega), Report.attempt_ok, hnext]
  rfl

theorem parseDataFragment_ok (harea : InArea areaBuf offset size) (hdesc : 32 + (i + 1) * 16 ≤ parsed)
    (hinside : DataInside areaBuf offset i parsed)
    (hlibrary : raw = true → LibraryInside decompress areaBuf offset i parsed) :
    ∃ lines, parseDataFragment decompress raw areaBuf offset size i (dump, parsed) =
      .ok (none, ⟨dump.found ++ [foundFragment areaBuf offset i], lines⟩,
        if raw then parsed + dataComprSize areaBuf offset i else parsed) := by
  rw [parseDataFragment_inside decompress raw dump harea hdesc hinside]
  cases raw with
  | false => exact ⟨dump.lines, rfl⟩
  | true =>
    have hreturns := (@rawFragmentData_returns_iff decompress areaBuf offset parsed i hinside).2
      (hlibrary rfl)
    match hshown : rawFragmentData decompress areaBuf
        (FragmentDesc.wire.read areaBuf.data (offset + 32 + i * 16)) (offset + parsed) with
    | .error f =>
      obtain ⟨e, rfl⟩ := hreturns f hshown
      exact absurd hshown (rawFragmentData_unrefused e)
    | .ok (data, rawDataBytes) =>
      obtain ⟨lines, hlines⟩ := showRawData_ok data (Word.u32 (offset + parsed)) dump.lines
        (rawFragmentData_lt hshown)
      refine ⟨lines, ?_⟩
      rw [if_neg (by decide), Checked.ok_bind]
      simp only
      rw [hlines]
      rfl

theorem parseDataFragment_full (hfull : size ≤ parsed) :
    parseDataFragment decompress raw areaBuf offset size i (dump, parsed) =
      .ok (some .einval, dump, parsed) := by
  unfold parseDataFragment
  simp only
  rw [failIf, if_pos hfull]
  rfl

theorem parseDataFragment_large (harea : InArea areaBuf offset size) (hdesc : 32 + (i + 1) * 16 ≤ parsed)
    (hbegin : parsed < size) (hend : size < parsed + dataComprSize areaBuf offset i) :
    parseDataFragment decompress raw areaBuf offset size i (dump, parsed) =
      .ok (some .einval, dump.find (foundFragment areaBuf offset i), parsed) := by
  obtain ⟨hrest, hwide⟩ := harea
  have hget : areaBuf.get Errno FragmentDesc.wire (offset + 32 + i * 16) =
      .ok (FragmentDesc.wire.read areaBuf.data (offset + 32 + i * 16)) := Buf.get_ok (by
    change offset + 32 + i * 16 + 16 ≤ areaBuf.size
    omega)
  have hsub : Word.sub32 size parsed = size - parsed := Word.sub32_of_le (Nat.le_of_lt hbegin) (by omega)
  unfold dataComprSize at hend
  unfold parseDataFragment blkBmapFragHdrSize fragmentDescSize
  simp only
  rw [failIf_of_not (Nat.not_le.2 hbegin), Report.attempt_ok, hget, Checked.ok_bind, hsub, failIf,
    if_pos (by omega)]
  rfl

theorem parseDataFragment_contained (harea : InArea areaBuf offset size)
    (hdesc : 32 + (i + 1) * 16 ≤ parsed) :
    Report.Contained (parseDataFragment decompress raw areaBuf offset size i (dump, parsed))
      (raw = true → DataInside areaBuf offset i parsed → LibraryInside decompress areaBuf offset i parsed)
      (DataInside areaBuf offset i parsed)
      fun st => st.1.found = dump.found ++ [foundFragment areaBuf offset i] ∧
        st.2 = if raw then parsed + dataComprSize areaBuf offset i else parsed := by
  by_cases hinside : DataInside areaBuf offset i parsed
  · by_cases hlibrary : raw = true → LibraryInside decompress areaBuf offset i parsed
    · obtain ⟨lines, h⟩ := parseDataFragment_ok decompress raw dump harea hdesc hinside hlibrary
      rw [h]
      exact (Report.Contained.of_settles (.ok ⟨rfl, rfl⟩)).congr
        (iff_of_true (fun hraw _ => hlibrary hraw) trivial) (fun _ => iff_of_true hinside trivial)
        fun _ h => h
    · obtain ⟨rfl, hnot⟩ := Classical.not_imp.1 hlibrary
      refine .strays (fun hreturns => hnot ?_) fun h => hnot (h rfl hinside)
      rw [parseDataFragment_inside decompress true dump harea hdesc hinside, if_neg (by decide)] at hreturns
      exact (rawFragmentData_returns_iff hinside).1 (Checked.returns_bind.1 hreturns).1
  · refine (Report.Contained.of_settles ⟨fun h => absurd h hinside, fun _ => ?_⟩).congr
      (iff_of_true (fun _ h => absurd h hinside) trivial) (fun _ => Iff.rfl) fun _ h => h
    have hrest := harea.rest
    by_cases hbegin : parsed < size
    · refine ⟨_, _, parseDataFragment_large decompress raw dump harea hdesc hbegin (Nat.not_le.1 fun hend => ?_)⟩
      exact hinside ⟨by omega, by omega⟩
    · exact ⟨_, _, parseDataFragment_full decompress raw dump (Nat.not_lt.1 hbegin)⟩

theorem parseDataFragment_leaves : Report.Leaves
    (parseDataFragment decompress raw areaBuf offset size i (dump, parsed))
    fun st => dump.found <+: st.1.found := by
  refine .attempt (List.prefix_refl _) fun _ _ => .bind fun frag _ =>
    .attempt (List.prefix_append _ _) fun _ _ => ?_
  split
  · exact .ok (List.prefix_append _ _)
  · exact .bind fun shown _ => .bind fun lines _ => .ok (List.prefix_append _ _)

theorem parseBlockBitmapFragment_leaves : Report.Leaves
    (parseBlockBitmapFragment decompress raw areaBuf offset size dump)
    fun st => dump.found <+: st.1.found ∧
      (32 ≤ size → dump.found ++ [foundHeader areaBuf offset] <+: st.1.found) := by
  unfold parseBlockBitmapFragment
  by_cases hsize : size < blkBmapFragHdrSize
  · rw [failIf, if_pos hsize]
    exact .ok ⟨List.prefix_refl _, fun h => absurd h (Nat.not_le.2 hsize)⟩
  · rw [failIf_of_not hsize, Report.attempt_ok]
    refine .bind fun hdr hget => ?_
    obtain ⟨-, rfl⟩ := Buf.get_eq_ok.1 hget
    refine Report.Leaves.mono (I := fun st => dump.found ++ [foundHeader areaBuf offset] <+: st.1.found)
      (.each (List.prefix_refl _) fun i _ st hst => ?_)
      fun st hst => ⟨(List.prefix_append _ _).trans hst, fun _ => hst⟩
    exact Report.Leaves.mono (parseDataFragment_leaves decompress raw st.1) fun _ h => hst.trans h

theorem parseBlockBitmapFragments_leaves (count : Nat) : Report.Leaves
    (parseBlockBitmapFragments decompress raw areaBuf count offset dump)
    fun dump' => dump.found <+: dump'.found := by
  induction count generalizing offset dump with
  | zero => exact .ok (List.prefix_refl _)
  | succ count ih =>
    refine .bind fun st hst => ?_
    obtain ⟨err, dump', parsed⟩ := st
    have hkept := (parseBlockBitmapFragment_leaves decompress raw dump err _ hst).1
    simp only
    split
    · exact .ok hkept
    · split
      · exact .ok hkept
      · exact Report.Leaves.mono (ih dump') fun _ h => hkept.trans h

theorem parseBlockBitmapFragments_leaves_header {count : Nat} (hle : offset + 32 ≤ areaBuf.size)
    (hwide : areaBuf.size < 4294967296) : Report.Leaves
    (parseBlockBitmapFragments decompress raw areaBuf (count + 1) offset dump)
    fun dump' => dump.found ++ [foundHeader areaBuf offset] <+: dump'.found := by
  refine .bind fun st hst => ?_
  rw [Word.sub32_of_le (by omega) hwide] at hst
  obtain ⟨err, dump', parsed⟩ := st
  have hfound := (parseBlockBitmapFragment_leaves decompress raw dump err _ hst).2 (by omega)
  simp only
  split
  · exact .ok hfound
  · split
    · exact .ok hfound
    · exact Report.Leaves.mono (parseBlockBitmapFragments_leaves decompress raw dump' count) fun _ h =>
        hfound.trans h

/-- What is found of a bitmap with its first `i` data fragments. -/
def foundBitmap (areaBuf : Buf) (offset i : Nat) : List BlkbmapFound :=
  foundHeader areaBuf offset :: (List.range i).map (foundFragment areaBuf offset)

/-- No check of the parser refuses the bitmap at `offset`. -/
structure BitmapPasses (raw : Bool) (areaBuf : Buf) (offset : Nat) : Prop where
  header : offset + 32 ≤ areaBuf.size
  fragments : ∀ i < dataFragmentsCount areaBuf offset,
    DataInside areaBuf offset i (parsedBefore raw (dataSizes areaBuf offset) i)

/-- With every data fragment of the bitmap that the raw dump comes to, the library stays inside its
buffers. -/
def BitmapInside (areaBuf : Buf) (offset : Nat) : Prop :=
  raw = true → offset + 32 ≤ areaBuf.size → ∀ i < dataFragmentsCount areaBuf offset,
    (∀ j ≤ i, DataInside areaBuf offset j (parsedBefore true (dataSizes areaBuf offset) j)) →
      LibraryInside decompress areaBuf offset i (parsedBefore true (dataSizes areaBuf offset) i)

end

section

variable {raw : Bool} {areaBuf : Buf} {offset size i j : Nat} {sizes : List Nat}

@[simp] theorem length_dataSizes : (dataSizes areaBuf offset).length = dataFragmentsCount areaBuf offset := by
  rw [dataSizes, List.length_map, List.length_range]

@[simp] theorem dataSizes_getElem (h : i < (dataSizes areaBuf offset).length) :
    (dataSizes areaBuf offset)[i] = dataComprSize areaBuf offset i := by
  rw [← Option.some_inj, ← List.getElem?_eq_getElem]
  simp at h
  simp [dataSizes, h]

@[simp] theorem parsedBefore_zero : parsedBefore raw sizes 0 = 32 + sizes.length * 16 := by
  cases raw <;> rfl

@[simp] theorem parsedBefore_false : parsedBefore false sizes i = 32 + sizes.length * 16 := rfl

theorem parsedBefore_true : parsedBefore true sizes i = 32 + sizes.length * 16 + (sizes.take i).sum := rfl

theorem parsedBefore_ge : 32 + sizes.length * 16 ≤ parsedBefore raw sizes i := Nat.le_add_right _ _

theorem parsedBefore_succ (h : i < sizes.length) : parsedBefore raw sizes (i + 1) =
    if raw then parsedBefore raw sizes i + sizes[i] else parsedBefore raw sizes i := by
  unfold parsedBefore
  cases raw with
  | false => rfl
  | true => simp only [if_true, List.sum_take_succ _ _ h, Nat.add_assoc]

theorem parsedBefore_mono (hj : j ≤ i) (hi : i ≤ sizes.length) :
    parsedBefore raw sizes j ≤ parsedBefore raw sizes i := by
  induction i, hj using Nat.le_induction with
  | base => exact Nat.le_refl _
  | succ i _ ih =>
    refine Nat.le_trans (ih (Nat.le_of_lt hi)) ?_
    rw [parsedBefore_succ hi]
    split
    · exact Nat.le_add_right _ _
    · exact Nat.le_refl _

theorem parseBlockBitmapFragment_contained
    (decompress : UInt8 → Buf → Nat → Nat → Buf → Nat → Mkfs Buf) (raw : Bool) (dump : BlkbmapDump)
    (harea : InArea areaBuf offset size) :
    Report.Contained (parseBlockBitmapFragment decompress raw areaBuf offset size dump)
      (BitmapInside decompress raw areaBuf offset) (BitmapPasses raw areaBuf offset) fun st =>
        st.1.found = dump.found ++ foundBitmap areaBuf offset (dataFragmentsCount areaBuf offset) ∧
          st.2 = parsedBefore raw (dataSizes areaBuf offset) (dataFragmentsCount areaBuf offset) := by
  have hrest := harea.rest
  unfold parseBlockBitmapFragment blkBmapFragHdrSize
  by_cases hsize : size < 32
  · rw [failIf, if_pos hsize]
    refine (Report.Contained.of_settles (C := BitmapPasses raw areaBuf offset)
      ⟨fun h => absurd h.header (by omega), fun _ => ⟨_, _, rfl⟩⟩).congr
      (iff_of_true (fun _ hroom => absurd hroom (by omega)) trivial) (fun _ => Iff.rfl) fun _ h => h
  have hget : areaBuf.get Errno BlockBitmapFragment.wire offset =
      .ok (BlockBitmapFragment.wire.read areaBuf.data offset) := Buf.get_ok (by
    change offset + 32 ≤ areaBuf.size
    omega)
  have hstart : 32 + dataFragmentsCount areaBuf offset * 16 =
      parsedBefore raw (dataSizes areaBuf offset) 0 := by
    rw [parsedBefore_zero, length_dataSizes]
  rw [failIf_of_not hsize, Report.attempt_ok, hget, Checked.ok_bind]
  change Report.Contained (Report.each _ (List.range (dataFragmentsCount areaBuf offset))
    (dump.find (foundHeader areaBuf offset), 32 + dataFragmentsCount areaBuf offset * 16)) _ _ _
  rw [hstart]
  refine (Report.Contained.range
    (A := fun i => raw = true → DataInside areaBuf offset i (parsedBefore raw (dataSizes areaBuf offset) i) →
      LibraryInside decompress areaBuf offset i (parsedBefore raw (dataSizes areaBuf offset) i))
    (G := fun i => DataInside areaBuf offset i (parsedBefore raw (dataSizes areaBuf offset) i))
    (fun i st => st.1.found = dump.found ++ foundBitmap areaBuf offset i ∧
      st.2 = parsedBefore raw (dataSizes areaBuf offset) i) ⟨rfl, rfl⟩ fun i hi st hst => ?_).congr
    ?_ (fun _ => ?_) fun _ h => h
  · obtain ⟨dump', parsed⟩ := st
    obtain ⟨hfound, rfl⟩ := hst
    have hlen : i < (dataSizes areaBuf offset).length := by rwa [length_dataSizes]
    have hdesc : 32 + (i + 1) * 16 ≤ parsedBefore raw (dataSizes areaBuf offset) i :=
      Nat.le_trans (by omega) parsedBefore_ge
    refine (parseDataFragment_contained decompress raw dump' harea hdesc).congr Iff.rfl (fun _ => Iff.rfl)
      fun st hst => ⟨?_, ?_⟩
    · rw [hst.1, hfound, foundBitmap, foundBitmap, List.range_succ, List.map_append, List.append_assoc]
      rfl
    · rw [hst.2, parsedBefore_succ hlen, dataSizes_getElem]
  · constructor
    · rintro h i hi hbefore rfl hinside
      exact h rfl (by omega) i hi fun j hj => (Nat.lt_or_eq_of_le hj).elim (hbefore j) fun heq =>
        heq ▸ hinside
    · rintro h rfl - i hi hinside
      exact h i hi (fun j hj => hinside j (Nat.le_of_lt hj)) rfl (hinside i (Nat.le_refl i))
  · exact ⟨fun h => h.fragments, fun h => ⟨by omega, h⟩⟩

theorem BitmapPasses.parsed_le (h : BitmapPasses raw areaBuf offset) :
    offset + parsedBefore raw (dataSizes areaBuf offset) (dataFragmentsCount areaBuf offset) ≤
      areaBuf.size := by
  have hheader := h.header
  generalize hcount : dataFragmentsCount areaBuf offset = n
  have hlength : (dataSizes areaBuf offset).length = n := length_dataSizes.trans hcount
  cases n with
  | zero =>
    rw [parsedBefore_zero, hlength]
    omega
  | succ n =>
    obtain ⟨hbegin, hend⟩ := h.fragments n (by omega)
    rw [parsedBefore_succ (by omega), dataSizes_getElem]
    split <;> omega

end

end Ssdfs
