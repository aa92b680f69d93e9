import Ssdfs.Device.LogHeaders
import Ssdfs.Lib.Loop

namespace Ssdfs

open Memory

def rawStringLen : Nat := 16

def hexDigits (width n : Nat) : List Char := List.leftpad width '0' (Nat.toDigits 16 n)

def isPrint (byte : UInt8) : Bool := 32 ≤ byte.toNat ∧ byte.toNat ≤ 126

/-- What a line of the dump shows. -/
structure RawString where
  offset : Nat
  bytes : List UInt8
  deriving Repr, DecidableEq

namespace RawString

def column (line : RawString) (i : Nat) : List Char :=
  (if i = rawStringLen / 2 then [' '] else []) ++
    match line.bytes[i]? with
    | some byte => hexDigits 2 byte.toNat ++ [' ']
    | none => [' ', ' ', ' ']

def glyph (line : RawString) (i : Nat) : Char :=
  match line.bytes[i]? with
  | some byte => if isPrint byte then Char.ofNat byte.toNat else '.'
  | none => ' '

def text (line : RawString) : List Char :=
  (hexDigits 8 line.offset).map Char.toUpper ++ [' ', ' '] ++
    (List.range rawStringLen).flatMap line.column ++ [' ', '|'] ++
    (List.range rawStringLen).map line.glyph ++ ['|', '\n']

end RawString

def showRawString (offset : Nat) (ptr : Bytes) (len : Nat) : List Char × Nat :=
  (RawString.text ⟨offset, (List.range (min len rawStringLen)).map ptr⟩, rawStringLen)

/-- A device that is open, with the size of the volume that is taken from it. -/
structure OpenedDevice where
  dev : Buf
  fsSize : UInt64
  size_eq : dev.size = fsSize.toNat

/-- The part of the device that is asked for, and the buffer that it is read into. -/
structure RawDumpEnvironment where
  offset : UInt64
  size : UInt32
  bufSize : UInt32

structure RawDumpState where
  offset : Nat
  readBytes : Nat
  lines : List (List Char)

def showBufferString (buf : Bytes) (size : Nat) (st : RawDumpState × Nat) :
    Mkfs (Round (RawDumpState × Nat) RawDumpState) :=
  let (st, displayedBytes) := st
  let (line, res) := showRawString st.offset (fun i => buf (displayedBytes + i))
    (Word.sub32 size displayedBytes)
  let displayedBytes := Word.u32 (displayedBytes + res)
  let st := { st with offset := Word.u64 (st.offset + res), lines := st.lines ++ [line] }
  .ok (if displayedBytes < size then .again (st, displayedBytes) else .leave st)

def showNextBuffer (fuel : Nat) (dev : Buf) (bufSize len : Nat) (st : RawDumpState) :
    Mkfs (Round RawDumpState RawDumpState) := do
  let size := min bufSize (Word.sub32 len st.readBytes)
  let buf ← deviceRead dev st.offset size
  let st ← Checked.loop (showBufferString buf size) fuel
    ({ st with readBytes := Word.u32 (st.readBytes + size) }, 0)
  .ok (if st.readBytes < len then .again st else .leave st)

def showRawDump (fuel : Nat) (volume : OpenedDevice) (env : RawDumpEnvironment) :
    Mkfs (List (List Char)) := do
  failIf (env.offset.toNat ≥ volume.fsSize.toNat) .einval
  let len := Word.u32 (min env.size.toNat (volume.fsSize.toNat - env.offset.toNat))
  let st ← Checked.loop (showNextBuffer fuel volume.dev env.bufSize.toNat len) fuel
    ⟨env.offset.toNat, 0, []⟩
  .ok st.lines

/-- The lines show the bytes from `start` to `stop` in their order, each with the offset of its first
byte. -/
structure Shows (dev : Buf) (start stop : Nat) (lines : List RawString) : Prop where
  bytes : lines.flatMap RawString.bytes = (List.range' start (stop - start)).map dev.data
  places : ∀ k line, lines[k]? = some line → line.offset = start + rawStringLen * k ∧
    line.bytes = (List.range' line.offset (min rawStringLen (stop - line.offset))).map dev.data

section

variable {dev : Buf} {start stop offset size displayed k n : Nat} {buf : Bytes} {st : RawDumpState}

/-- The line for the bytes from `offset` on. -/
def rawLine (dev : Buf) (stop offset : Nat) : RawString :=
  ⟨offset, (List.range' offset (min rawStringLen (stop - offset))).map dev.data⟩

def rawLines (dev : Buf) (start stop n : Nat) : List RawString :=
  (List.range n).map fun k => rawLine dev stop (start + rawStringLen * k)

theorem rawLines_succ : rawLines dev start stop (n + 1) =
    rawLines dev start stop n ++ [rawLine dev stop (start + rawStringLen * n)] := by
  unfold rawLines
  rw [List.range_succ, List.map_append]
  rfl

theorem rawLines_bytes (hle : start ≤ stop) : (rawLines dev start stop n).flatMap RawString.bytes =
    (List.range' start (min (rawStringLen * n) (stop - start))).map dev.data := by
  induction n with
  | zero => rw [Nat.mul_zero, Nat.zero_min]; rfl
  | succ n ih =>
    have hsplit : min (rawStringLen * (n + 1)) (stop - start) =
        min (rawStringLen * n) (stop - start) +
          min rawStringLen (stop - (start + rawStringLen * n)) := by
      rw [Nat.mul_succ]
      omega
    rw [rawLines_succ, List.flatMap_append, ih, hsplit, ← List.range'_append_1, List.map_append]
    apply congrArg
    rw [List.flatMap_cons, List.flatMap_nil, List.append_nil]
    by_cases hfull : rawStringLen * n ≤ stop - start
    · rw [Nat.min_eq_left hfull]
      rfl
    · have hnone : stop - (start + rawStringLen * n) = 0 := by omega
      unfold rawLine
      rw [hnone, Nat.min_zero]
      rfl

theorem rawLines_shows (hle : start ≤ stop) (hn : stop - start ≤ rawStringLen * n) :
    Shows dev start stop (rawLines dev start stop n) where
  bytes := by rw [rawLines_bytes hle, Nat.min_eq_right hn]
  places k line h := by
    unfold rawLines at h
    rw [List.getElem?_map] at h
    obtain ⟨j, hj, rfl⟩ := Option.map_eq_some_iff.1 h
    have hk := List.getElem?_eq_some_iff.1 hj
    obtain ⟨hlt, rfl⟩ := hk
    rw [List.getElem_range]
    exact ⟨rfl, rfl⟩

theorem showRawString_eq {readOffset : Nat} (hbuf : ∀ i, buf i = dev.data (readOffset + i))
    (hlen : min (size - displayed) rawStringLen = min rawStringLen (stop - (readOffset + displayed))) :
    (showRawString (readOffset + displayed) (fun i => buf (displayed + i)) (size - displayed)).1 =
      (rawLine dev stop (readOffset + displayed)).text := by
  unfold showRawString rawLine
  rw [hlen, List.range'_eq_map_range, List.map_map]
  apply congrArg RawString.text
  apply congrArg (RawString.mk _)
  apply List.map_congr_left
  intro i _
  rw [hbuf, ← Nat.add_assoc]
  rfl

/-- The strings of a buffer so far: the bytes before `read` have been shown from other buffers. -/
structure Buffered (dev : Buf) (start stop read size : Nat) (st : RawDumpState × Nat) : Prop where
  offset : st.1.offset = start + read + st.2
  readBytes : st.1.readBytes = read + size
  lines : st.1.lines = (rawLines dev start stop ((read + st.2) / rawStringLen)).map RawString.text
  stride : rawStringLen ∣ st.2
  room : st.2 < size ∨ st.2 = 0

/-- The buffer has been shown, with `displayed` bytes for its strings. -/
structure Emptied (dev : Buf) (start stop read size : Nat) (st : RawDumpState) (displayed : Nat) :
    Prop where
  offset : st.offset = Word.u64 (start + read + displayed)
  readBytes : st.readBytes = read + size
  lines : st.lines = (rawLines dev start stop ((read + displayed) / rawStringLen)).map RawString.text
  stride : rawStringLen ∣ displayed
  shown : size ≤ displayed
  last : displayed < size + rawStringLen ∨ size = 0

structure BufferSize (bufSize start stop read size : Nat) : Prop where
  stride : rawStringLen ∣ bufSize
  pos : 0 < bufSize
  bound : bufSize < 4294967296
  rest : start + read + size ≤ stop
  wide : stop < 18446744073709551616
  full : size = bufSize ∨ start + read + size = stop
  le : size ≤ bufSize

theorem showBufferString_eq : showBufferString buf size (st, displayed) =
    .ok (if Word.u32 (displayed + rawStringLen) < size then
      .again (⟨Word.u64 (st.offset + rawStringLen), st.readBytes, st.lines ++
        [(showRawString st.offset (fun i => buf (displayed + i)) (Word.sub32 size displayed)).1]⟩,
        Word.u32 (displayed + rawStringLen))
    else
      .leave ⟨Word.u64 (st.offset + rawStringLen), st.readBytes, st.lines ++
        [(showRawString st.offset (fun i => buf (displayed + i)) (Word.sub32 size displayed)).1]⟩) := rfl

theorem showBufferString_round {bufSize read : Nat} {s : RawDumpState × Nat}
    (hsize : BufferSize bufSize start stop read size) (hread : rawStringLen ∣ read)
    (hbuf : ∀ i, buf i = dev.data (start + read + i)) (hs : Buffered dev start stop read size s) :
    (∃ s', showBufferString buf size s = .ok (.again s') ∧ Buffered dev start stop read size s' ∧
        size - s'.2 < size - s.2) ∨
      ∃ st, showBufferString buf size s = .ok (.leave st) ∧
        ∃ displayed, Emptied dev start stop read size st displayed := by
  obtain ⟨st, displayed⟩ := s
  obtain ⟨hoffset, hreadBytes, hlines, hstride, hroom⟩ := hs
  obtain ⟨hbufStride, hpos, hbound, hrest, hwide, hfull, hle⟩ := hsize
  simp only at hoffset hreadBytes hlines hstride hroom
  have hcolumns : rawStringLen = 16 := rfl
  have hbufStride' : 16 ∣ bufSize := hbufStride
  have hstride' : 16 ∣ displayed := hstride
  have hd : displayed ≤ size := by omega
  have hsub : Word.sub32 size displayed = size - displayed := Word.sub32_of_le hd (by omega)
  have hnext : Word.u32 (displayed + rawStringLen) = displayed + rawStringLen :=
    Word.u32_of_lt (by omega)
  have hlen : min (size - displayed) rawStringLen =
      min rawStringLen (stop - (start + read + displayed)) := by
    omega
  have hindex : (read + (displayed + rawStringLen)) / rawStringLen =
      (read + displayed) / rawStringLen + 1 := by
    rw [← Nat.add_assoc]
    exact Nat.add_div_right _ (by decide)
  have hplace : start + rawStringLen * ((read + displayed) / rawStringLen) = start + read + displayed := by
    rw [Nat.mul_div_cancel' (Nat.dvd_add hread hstride), Nat.add_assoc]
  have hline : (showRawString (start + read + displayed) (fun i => buf (displayed + i))
      (size - displayed)).1 = (rawLine dev stop (start + read + displayed)).text :=
    showRawString_eq hbuf hlen
  have hlines' : st.lines ++ [(showRawString (start + read + displayed) (fun i => buf (displayed + i))
      (size - displayed)).1] =
      (rawLines dev start stop ((read + (displayed + rawStringLen)) / rawStringLen)).map RawString.text := by
    rw [hline, hlines, hindex, rawLines_succ, List.map_append, hplace]
    rfl
  rw [showBufferString_eq, hsub, hnext, hoffset, hlines']
  by_cases hmore : displayed + rawStringLen < size
  · rw [if_pos hmore]
    refine .inl ⟨_, rfl, ⟨?_, hreadBytes, rfl, ?_, .inl hmore⟩, ?_⟩
    · simp only
      rw [Nat.add_assoc]
      exact Word.u64_of_lt (by omega)
    · exact Nat.dvd_add hstride (Nat.dvd_refl _)
    · simp only
      omega
  · rw [if_neg hmore]
    refine .inr ⟨_, rfl, displayed + rawStringLen, ?_, hreadBytes, rfl, ?_, Nat.not_lt.1 hmore, ?_⟩
    · simp only
      rw [Nat.add_assoc (start + read)]
    · exact Nat.dvd_add hstride (Nat.dvd_refl _)
    · omega

structure Read (dev : Buf) (start stop : Nat) (st : RawDumpState) : Prop where
  offset : st.offset = start + st.readBytes
  lines : st.lines = (rawLines dev start stop (st.readBytes / rawStringLen)).map RawString.text
  stride : rawStringLen ∣ st.readBytes
  rest : start + st.readBytes ≤ stop

def AllShown (dev : Buf) (start stop : Nat) (st : RawDumpState) : Prop :=
  ∃ n, st.lines = (rawLines dev start stop n).map RawString.text ∧ stop - start ≤ rawStringLen * n

theorem showNextBuffer_round {fuel bufSize len : Nat} (hstride : rawStringLen ∣ bufSize) (hpos : 0 < bufSize)
    (hbound : bufSize < 4294967296) (hlen : len < 4294967296) (hstop : start + len = stop)
    (hwide : stop < 18446744073709551616) (hdev : stop ≤ dev.size) (hfuel : 4294967296 ≤ fuel)
    (hst : Read dev start stop st) :
    (∃ st', showNextBuffer fuel dev bufSize len st = .ok (.again st') ∧ Read dev start stop st' ∧
        len - st'.readBytes < len - st.readBytes) ∨
      ∃ st', showNextBuffer fuel dev bufSize len st = .ok (.leave st') ∧ AllShown dev start stop st' := by
  obtain ⟨hoffset, hlines, hread, hrest⟩ := hst
  have hsub : Word.sub32 len st.readBytes = len - st.readBytes :=
    Word.sub32_of_le (by omega) hlen
  have hsize : BufferSize bufSize start stop st.readBytes (min bufSize (len - st.readBytes)) := by
    refine ⟨hstride, hpos, hbound, ?_, hwide, ?_, Nat.min_le_left _ _⟩
    · omega
    · omega
  have hreadBytes : Word.u32 (st.readBytes + min bufSize (len - st.readBytes)) =
      st.readBytes + min bufSize (len - st.readBytes) := Word.u32_of_lt (by omega)
  have hbuf : deviceRead dev st.offset (min bufSize (len - st.readBytes)) =
      .ok fun i => dev.data (start + st.readBytes + i) := by
    rw [hoffset]
    exact if_pos (by omega)
  have hbegin : Buffered dev start stop st.readBytes (min bufSize (len - st.readBytes))
      ({ st with readBytes := st.readBytes + min bufSize (len - st.readBytes) }, 0) :=
    ⟨hoffset, rfl, hlines, Nat.dvd_zero _, .inr rfl⟩
  obtain ⟨st', hloop, displayed, hst'⟩ := Checked.loop_returns
    (Buffered dev start stop st.readBytes (min bufSize (len - st.readBytes)))
    (fun s => min bufSize (len - st.readBytes) - s.2)
    (fun st' => ∃ displayed, Emptied dev start stop st.readBytes (min bufSize (len - st.readBytes)) st'
      displayed) hbegin
    (fun s hs => showBufferString_round hsize hread (fun _ => rfl) hs)
    (show _ < fuel by omega)
  have heq : showNextBuffer fuel dev bufSize len st =
      .ok (if st'.readBytes < len then .again st' else .leave st') := by
    unfold showNextBuffer
    simp only [hsub, hreadBytes]
    rw [hbuf, Checked.ok_bind, hloop, Checked.ok_bind]
  rw [heq]
  obtain ⟨hoffset', hreadBytes', hlines', hstride', hshown, hlast⟩ := hst'
  by_cases hmore : st'.readBytes < len
  · have hfull : min bufSize (len - st.readBytes) = bufSize := by omega
    have hcolumns : rawStringLen = 16 := rfl
    have hdisplayed : displayed = bufSize := by
      rw [hfull] at hshown hlast
      have hbufStride : 16 ∣ bufSize := hstride
      have hcolumnStride : 16 ∣ displayed := hstride'
      omega
    have hnext : st'.readBytes = st.readBytes + displayed := by omega
    rw [if_pos hmore]
    refine .inl ⟨st', rfl, ⟨?_, ?_, ?_, by omega⟩, by omega⟩
    · rw [hoffset', hnext, ← Nat.add_assoc]
      exact Word.u64_of_lt (by omega)
    · rw [hlines', hnext]
    · rw [hnext]
      exact Nat.dvd_add hread hstride'
  · rw [if_neg hmore]
    refine .inr ⟨st', rfl, _, hlines', ?_⟩
    rw [Nat.mul_div_cancel' (Nat.dvd_add hread hstride')]
    omega

end

/-- What is asked for is shown, as far as it is on the volume. -/
theorem showRawDump_shows {volume : OpenedDevice} {env : RawDumpEnvironment}
    (hoffset : env.offset.toNat < volume.fsSize.toNat) (hpos : 0 < env.bufSize.toNat)
    (hstride : rawStringLen ∣ env.bufSize.toNat) :
    ∃ fuel lines, showRawDump fuel volume env = .ok (lines.map RawString.text) ∧
      Shows volume.dev env.offset.toNat
        (min (env.offset.toNat + env.size.toNat) volume.fsSize.toNat) lines := by
  have hsize : env.size.toNat < 4294967296 := env.size.toNat_lt
  have hfsSize : volume.fsSize.toNat < 18446744073709551616 := volume.fsSize.toNat_lt
  have hdev := volume.size_eq
  have hlen : Word.u32 (min env.size.toNat (volume.fsSize.toNat - env.offset.toNat)) =
      min (env.offset.toNat + env.size.toNat) volume.fsSize.toNat - env.offset.toNat := by
    rw [Word.u32_of_lt (by omega)]
    omega
  have hbegin : Read volume.dev env.offset.toNat
      (min (env.offset.toNat + env.size.toNat) volume.fsSize.toNat) ⟨env.offset.toNat, 0, []⟩ := by
    refine ⟨rfl, ?_, Nat.dvd_zero _, ?_⟩
    · rw [Nat.zero_div]
      rfl
    · simp only
      omega
  obtain ⟨st, hloop, n, hlines, hn⟩ := Checked.loop_returns
    (Read volume.dev env.offset.toNat (min (env.offset.toNat + env.size.toNat) volume.fsSize.toNat))
    (fun st => min (env.offset.toNat + env.size.toNat) volume.fsSize.toNat - env.offset.toNat -
      st.readBytes)
    (AllShown volume.dev env.offset.toNat
      (min (env.offset.toNat + env.size.toNat) volume.fsSize.toNat))
    hbegin
    (fun st hst => showNextBuffer_round hstride hpos env.bufSize.toNat_lt (by omega) (by omega)
      (by omega) (by omega) (Nat.le_refl 4294967296) hst)
    (show _ < 4294967296 by omega)
  refine ⟨4294967296, _, ?_, rawLines_shows (by omega) hn⟩
  unfold showRawDump
  rw [failIf_of_not (Nat.not_le.2 hoffset), Checked.ok_bind, hlen]
  exact Checked.bind_eq_ok.2 ⟨st, hloop, congrArg Except.ok hlines⟩

/-- A dump of ninety bytes through a buffer of thirty-two. -/
theorem showRawDump_shows_90 : ∃ fuel lines,
    showRawDump fuel ⟨⟨100, fun i => UInt8.ofNat i⟩, 100, rfl⟩ ⟨3, 90, 32⟩ =
        .ok (lines.map RawString.text) ∧
      Shows ⟨100, fun i => UInt8.ofNat i⟩ 3 (min (3 + 90) 100) lines :=
  @showRawDump_shows ⟨⟨100, fun i => UInt8.ofNat i⟩, 100, rfl⟩ ⟨3, 90, 32⟩
    (by decide) (by decide) (by decide)

end Ssdfs
