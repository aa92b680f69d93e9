import Ssdfs.Dump.BlkDescBounds
import Ssdfs.Dump.OffTable

namespace Ssdfs

open Memory

def offTableFlagsMask : UInt16 := 0x1F

def FragmentDesc.IsExtents (frag : FragmentDesc) : Prop :=
  frag.type = blk2offExtentDesc ∨ frag.type = blk2offExtentDescZlib ∨ frag.type = blk2offExtentDescLzo

def FragmentDesc.IsOffsets (frag : FragmentDesc) : Prop :=
  frag.type = blk2offDesc ∨ frag.type = blk2offDescZlib ∨ frag.type = blk2offDescLzo

instance (frag : FragmentDesc) : Decidable frag.IsExtents := inferInstanceAs (Decidable (_ ∨ _))
instance (frag : FragmentDesc) : Decidable frag.IsOffsets := inferInstanceAs (Decidable (_ ∨ _))

section

variable (decompress : UInt8 → Buf → Nat → Nat → Buf → Nat → Mkfs Buf) (areaBuf : Buf)

/-- What the library makes of the compressed extents at `place`; LZO is given the start of the area. -/
def unpackExtents (frag : FragmentDesc) (place : Nat) : Mkfs Buf :=
  decompress frag.type areaBuf (if frag.type = blk2offExtentDescLzo then 0 else place)
    frag.comprSize.toNat (Buf.zero frag.uncomprSize.toNat) frag.uncomprSize.toNat

def ExtentsInside (frag : FragmentDesc) (place : Nat) : Prop :=
  if frag.type = blk2offExtentDesc then
    place + frag.comprSize.toNat / translationExtentSize * translationExtentSize ≤ areaBuf.size
  else Checked.Returns (unpackExtents decompress areaBuf frag place)

/-- Extents that ZLIB cannot decompress are not counted. -/
def extentsEnd (frag : FragmentDesc) (place : Nat) : Nat :=
  if frag.type = blk2offExtentDescZlib ∧ (unpackExtents decompress areaBuf frag place).toOption = none then
    place
  else Word.u32 (place + frag.comprSize.toNat)

/-- The fragment at `place` ends inside the area. -/
def FitsAt (frag : FragmentDesc) (place : Nat) : Prop :=
  place ≤ areaBuf.size ∧ frag.comprSize.toNat ≤ areaBuf.size - place

/-- The sizes that a table of offsets tells of are not above that of its fragment. -/
def PotTableSized (fragment : Buf) (offset uncomprSize : Nat) : Prop :=
  let potTable := PhysOffsetTableHeader.wire.read fragment.data offset
  potTable.byteSize.toNat ≤ uncomprSize ∧ physOffDescSize * potTable.idCount.toNat ≤ uncomprSize

def PotTableInside (fragment : Buf) (offset uncomprSize : Nat) : Prop :=
  offset + physOffTblHdrSize ≤ fragment.size ∧ (PotTableSized fragment offset uncomprSize →
    offset + physOffTblHdrSize +
      (PhysOffsetTableHeader.wire.read fragment.data offset).idCount.toNat * physOffDescSize ≤
      fragment.size)

structure OffsetsInside (frag : FragmentDesc) (place : Nat) : Prop where
  library : Checked.Returns (blk2offFragmentData decompress areaBuf frag place)
  table : ∀ data, blk2offFragmentData decompress areaBuf frag place = .ok data →
    physOffTblHdrSize ≤ frag.comprSize.toNat → PotTableInside data.1 data.2 frag.uncomprSize.toNat

structure OffsetsPass (frag : FragmentDesc) (place : Nat) : Prop where
  fits : FitsAt areaBuf frag place
  size : physOffTblHdrSize ≤ frag.comprSize.toNat
  data : ∃ data, blk2offFragmentData decompress areaBuf frag place = .ok data ∧
    PotTableSized data.1 data.2 frag.uncomprSize.toNat

def SlotInside (frag : FragmentDesc) (place : Nat) : Prop :=
  if frag.IsExtents then ExtentsInside decompress areaBuf frag place
  else frag.IsOffsets → FitsAt areaBuf frag place → OffsetsInside decompress areaBuf frag place

def SlotPasses (frag : FragmentDesc) (place : Nat) : Prop :=
  ¬frag.IsExtents → frag.IsOffsets → OffsetsPass decompress areaBuf frag place

def slotEnd (frag : FragmentDesc) (place : Nat) : Nat :=
  if frag.IsExtents then extentsEnd decompress areaBuf frag place
  else if frag.IsOffsets then Word.u32 (place + frag.comprSize.toNat)
  else if frag.type = nextTableDesc then frag.offset.toNat
  else place

end

section

variable {decompress : UInt8 → Buf → Nat → Nat → Buf → Nat → Mkfs Buf} {areaBuf : Buf}
  {frag : FragmentDesc} {st : OffTableDump}

theorem parseExtentsFragment_confined (hkeeps : KeepsSize decompress) (hextents : frag.IsExtents) :
    Checked.Confined (parseExtentsFragment decompress areaBuf frag st)
      (ExtentsInside decompress areaBuf frag st.parsedBytes) True fun st' =>
      st'.parsedBytes = extentsEnd decompress areaBuf frag st.parsedBytes ∧
        st'.nextFragmentExist = st.nextFragmentExist := by
  unfold parseExtentsFragment ExtentsInside
  simp only
  by_cases hplain : frag.type = blk2offExtentDesc
  · rw [if_pos hplain, if_pos hplain]
    have hzlib : frag.type ≠ blk2offExtentDescZlib := hplain ▸ by decide
    refine (Buf.getArray_confined.bind_access fun extents _ _ => .ok ⟨?_, rfl⟩).congr
      (R := _ + _ * translationExtentSize ≤ _ ∧ True) (and_true _).symm.to_iff (fun _ => Iff.rfl)
      fun _ h => h
    unfold extentsEnd
    rw [if_neg fun h => hzlib h.1]
  · rw [if_neg hplain, if_neg hplain]
    unfold extentsEnd
    have hunpack : decompress frag.type areaBuf (if frag.type = blk2offExtentDescLzo then 0 else
        st.parsedBytes) frag.comprSize.toNat (Buf.zero frag.uncomprSize.toNat) frag.uncomprSize.toNat =
        unpackExtents decompress areaBuf frag st.parsedBytes := rfl
    rw [hunpack]
    generalize hdata : unpackExtents decompress areaBuf frag st.parsedBytes = r
    cases r with
    | ok data =>
      have hsize : data.size = frag.uncomprSize.toNat := hkeeps _ _ _ _ _ _ _ hdata
      have hfit : 0 + frag.uncomprSize.toNat / translationExtentSize * TranslationExtent.wire.size ≤
          data.size := by
        rw [hsize, Nat.zero_add]
        exact Nat.div_mul_le_self _ _
      simp only
      rw [Buf.getArray_ok hfit, Checked.ok_bind]
      refine (Checked.Confined.ok ⟨?_, rfl⟩).congr (iff_of_true Checked.returns_ok trivial)
        (fun _ => Iff.rfl) fun _ h => h
      rw [if_neg fun h => by cases h.2]
    | error f =>
      have hstrays : (∀ e, f ≠ .code e) → ¬Checked.Returns (.error f : Mkfs Buf) ∧
          ¬Checked.Returns (.error f : Mkfs OffTableDump) := fun hf =>
        ⟨Checked.not_returns_of_ne hf, Checked.not_returns_of_ne hf⟩
      cases f
      case code e =>
        refine (Checked.Confined.ok ⟨?_, ?_⟩).congr (iff_of_true Checked.returns_code trivial)
          (fun _ => Iff.rfl) fun _ h => h
        · by_cases hlzo : frag.type = blk2offExtentDescLzo
          · rw [if_pos hlzo, if_neg fun h => absurd (hlzo.symm.trans h.1) (by decide)]
          · rw [if_neg hlzo, if_pos ⟨(hextents.resolve_left hplain).resolve_right hlzo, rfl⟩]
        · split <;> rfl
      all_goals exact .strays (hstrays fun e h => by cases h).2 (hstrays fun e h => by cases h).1

theorem parsePotTable_confined {fragment : Buf} {offset uncomprSize : Nat} :
    Checked.Confined (parsePotTable fragment offset uncomprSize)
      (PotTableInside fragment offset uncomprSize) (PotTableSized fragment offset uncomprSize)
      fun _ => True := by
  have hget : Checked.Confined (fragment.get Errno PhysOffsetTableHeader.wire offset)
      (offset + physOffTblHdrSize ≤ fragment.size) True
      (· = PhysOffsetTableHeader.wire.read fragment.data offset) := Buf.get_confined
  have hoffsets : Checked.Confined (fragment.getArray Errno PhysOffsetDescriptor.wire
      (offset + physOffTblHdrSize) (PhysOffsetTableHeader.wire.read fragment.data offset).idCount.toNat)
      (offset + physOffTblHdrSize +
        (PhysOffsetTableHeader.wire.read fragment.data offset).idCount.toNat * physOffDescSize ≤
        fragment.size) True fun _ => True := Buf.getArray_confined
  unfold parsePotTable
  have hrest : ∀ potTable, offset + physOffTblHdrSize ≤ fragment.size →
      potTable = PhysOffsetTableHeader.wire.read fragment.data offset → Checked.Confined (do
        failIf (uncomprSize < potTable.byteSize.toNat) .einval
        failIf (uncomprSize < physOffDescSize * potTable.idCount.toNat) .erange
        let offsets ← fragment.getArray Errno PhysOffsetDescriptor.wire (offset + physOffTblHdrSize)
          potTable.idCount.toNat
        .ok (offsets.mapIdx fun i d => (potTable.startId.toNat + i, d)))
      (PotTableSized fragment offset uncomprSize → offset + physOffTblHdrSize +
        (PhysOffsetTableHeader.wire.read fragment.data offset).idCount.toNat * physOffDescSize ≤
        fragment.size) (PotTableSized fragment offset uncomprSize) fun _ => True := by
    rintro _ - rfl
    refine (failIf_confined fun _ => failIf_confined fun _ => hoffsets.bind_access fun _ _ _ =>
      .ok trivial).congr (Q := fun _ => True) ?_ (fun _ => ?_) fun _ h => h
    · unfold PotTableSized
      rw [Nat.not_lt, Nat.not_lt, and_true, and_imp]
    · unfold PotTableSized
      rw [Nat.not_lt, Nat.not_lt, and_true]
  exact hget.bind_access hrest

theorem fitsAt_iff {place : Nat} (hwide : areaBuf.size < 4294967296) : FitsAt areaBuf frag place ↔
    ¬place > areaBuf.size ∧ ¬Word.sub32 areaBuf.size place < frag.comprSize.toNat := by
  unfold FitsAt
  rw [Nat.not_lt]
  refine and_congr_right fun hplace => ?_
  rw [Word.sub32_of_le hplace hwide, Nat.not_lt]

theorem parseBlk2offTableFragment_confined (hwide : areaBuf.size < 4294967296) :
    Checked.Confined (parseBlk2offTableFragment decompress areaBuf frag st)
      (FitsAt areaBuf frag st.parsedBytes → OffsetsInside decompress areaBuf frag st.parsedBytes)
      (OffsetsPass decompress areaBuf frag st.parsedBytes) fun st' =>
      st'.parsedBytes = Word.u32 (st.parsedBytes + frag.comprSize.toNat) ∧
        st'.nextFragmentExist = st.nextFragmentExist := by
  have hdata : ∀ r, blk2offFragmentData decompress areaBuf frag st.parsedBytes = r →
      Checked.Confined (r >>= fun data => do
        failIf (frag.comprSize.toNat < physOffTblHdrSize) .einval
        let offsets ← parsePotTable data.1 data.2 frag.uncomprSize.toNat
        .ok { st with
          parsedBytes := Word.u32 (st.parsedBytes + frag.comprSize.toNat)
          offsets := st.offsets ++ offsets }) (OffsetsInside decompress areaBuf frag st.parsedBytes)
      (physOffTblHdrSize ≤ frag.comprSize.toNat ∧
        ∃ data, r = .ok data ∧ PotTableSized data.1 data.2 frag.uncomprSize.toNat) fun st' =>
      st'.parsedBytes = Word.u32 (st.parsedBytes + frag.comprSize.toNat) ∧
        st'.nextFragmentExist = st.nextFragmentExist := fun r hr => by
    match r with
    | .ok data =>
      rw [Checked.ok_bind]
      have hshown : ∀ offsets, Checked.Confined (.ok { st with
          parsedBytes := Word.u32 (st.parsedBytes + frag.comprSize.toNat)
          offsets := st.offsets ++ offsets } : Mkfs _) True True fun st' =>
            st'.parsedBytes = Word.u32 (st.parsedBytes + frag.comprSize.toNat) ∧
              st'.nextFragmentExist = st.nextFragmentExist := fun _ => .ok ⟨rfl, rfl⟩
      refine (failIf_confined fun _ => parsePotTable_confined.bind fun offsets _ _ _ =>
        hshown offsets).congr ?_ (fun _ => ?_) fun _ h => h
      · rw [Nat.not_lt, imp_true_iff, and_true]
        constructor
        · exact fun h => h.table data hr
        · exact fun h => ⟨hr ▸ Checked.returns_ok, fun data' hdata' => by
            cases hr.symm.trans hdata'
            exact h⟩
      · rw [Nat.not_lt, and_true]
        refine and_congr_right fun _ => ⟨fun ⟨data', hdata', hsized⟩ => ?_, fun h => ⟨data, rfl, h⟩⟩
        cases hdata'
        exact hsized
    | .error (.code e) =>
      refine Checked.Confined.code.congr (iff_of_true ⟨hr ▸ Checked.returns_code, fun data h => ?_⟩ trivial)
        (fun _ => iff_of_false (fun h => ?_) id) fun _ h => h
      · exact nomatch hr.symm.trans h
      · obtain ⟨-, data, hdata, -⟩ := h
        exact nomatch hdata
    | .error .abort | .error .trap | .error .stray | .error .fuel =>
      refine .strays (Checked.not_returns_of_ne nofun) fun h => ?_
      exact absurd (hr ▸ h.library) (Checked.not_returns_of_ne nofun)
  unfold parseBlk2offTableFragment
  simp only
  refine (failIf_confined fun _ => failIf_confined fun _ => hdata _ rfl).congr ?_ (fun _ => ?_)
    fun _ h => h
  · rw [fitsAt_iff hwide, and_imp]
  · rw [← and_assoc, ← fitsAt_iff hwide]
    exact ⟨fun h => ⟨h.fits, h.size, h.data⟩, fun h => ⟨h.1, h.2.1, h.2.2⟩⟩

theorem dumpSlot_confined {portion i : Nat} (hkeeps : KeepsSize decompress)
    (hwide : areaBuf.size < 4294967296)
    (hslot : areaBuf.get Errno FragmentDesc.wire (portion + fragmentSlotsOffset + i * 16) = .ok frag) :
    Checked.Confined (dumpSlot decompress areaBuf portion i st)
      (SlotInside decompress areaBuf frag st.parsedBytes) (SlotPasses decompress areaBuf frag st.parsedBytes)
      fun st' => st'.parsedBytes = slotEnd decompress areaBuf frag st.parsedBytes ∧
        (st'.nextFragmentExist = true ↔ st.nextFragmentExist = true ∨ frag.type = nextTableDesc) := by
  unfold dumpSlot
  rw [hslot, Checked.ok_bind]
  change Checked.Confined (if frag.IsExtents then parseExtentsFragment decompress areaBuf frag st
    else if frag.IsOffsets then parseBlk2offTableFragment decompress areaBuf frag st else _) _ _ _
  unfold SlotInside SlotPasses slotEnd
  by_cases hextents : frag.IsExtents
  · have hnext : frag.type ≠ nextTableDesc := by
      rcases hextents with h | h | h <;> rw [h] <;> decide
    rw [if_pos hextents, if_pos hextents, if_pos hextents]
    refine (parseExtentsFragment_confined hkeeps hextents).congr Iff.rfl
      (fun _ => iff_of_true (absurd hextents) trivial) fun st' h => ⟨h.1, ?_⟩
    rw [h.2, or_iff_left hnext]
  rw [if_neg hextents, if_neg hextents, if_neg hextents]
  by_cases hoffsets : frag.IsOffsets
  · have hnext : frag.type ≠ nextTableDesc := by
      rcases hoffsets with h | h | h <;> rw [h] <;> decide
    rw [if_pos hoffsets, if_pos hoffsets]
    refine (parseBlk2offTableFragment_confined hwide).congr (forall_prop_of_true hoffsets)
      (fun _ => ⟨fun h => h hextents hoffsets, fun h _ _ => h⟩) fun st' h => ⟨h.1, ?_⟩
    rw [h.2, or_iff_left hnext]
  · rw [if_neg hoffsets, if_neg hoffsets]
    by_cases hnext : frag.type = nextTableDesc
    · rw [if_pos hnext, if_pos hnext]
      exact (Checked.Confined.ok ⟨rfl, iff_of_true rfl (.inr hnext)⟩).congr
        (iff_of_true (absurd · hoffsets) trivial)
        (fun _ => iff_of_true (fun _ h => absurd h hoffsets) trivial) fun _ h => h
    · rw [if_neg hnext, if_neg hnext]
      exact (Checked.Confined.ok ⟨rfl, (or_iff_left hnext).symm⟩).congr
        (iff_of_true (absurd · hoffsets) trivial)
        (fun _ => iff_of_true (fun _ h => absurd h hoffsets) trivial) fun _ h => h

end

section

variable (decompress : UInt8 → Buf → Nat → Nat → Buf → Nat → Mkfs Buf) (areaBuf : Buf)

/-- The header of the portion at `p`, whatever it is that the area holds there. -/
def portionChainHdr (p : Nat) : FragmentsChainHeader :=
  FragmentsChainHeader.wire.read areaBuf.data (p + chainHdrOffset)

def portionSlots (p : Nat) : Nat := (portionChainHdr areaBuf p).fragmentsCount.toNat

def portionSlot (p i : Nat) : FragmentDesc :=
  FragmentDesc.wire.read areaBuf.data (p + fragmentSlotsOffset + i * 16)

/-- The place that is reached before slot `i` of the portion at `p`. -/
def slotPlace (p : Nat) : Nat → Nat
  | 0 => Word.u32 (p + blk2offTblHdrSize)
  | i + 1 => slotEnd decompress areaBuf (portionSlot areaBuf p i) (slotPlace p i)

/-- A slot of the portion at `p` leads to another one. -/
def PortionChained (p : Nat) : Prop := ∃ i < portionSlots areaBuf p, (portionSlot areaBuf p i).type = nextTableDesc

def portionEnd (p : Nat) : Nat := slotPlace decompress areaBuf p (portionSlots areaBuf p)

/-- The slots of the portion lie inside the area, and whatever is read for those that are come to. -/
structure PortionInside (p : Nat) : Prop where
  header : p + fragmentSlotsOffset + portionSlots areaBuf p * 16 ≤ areaBuf.size
  slots : ∀ i < portionSlots areaBuf p, (∀ j < i, SlotPasses decompress areaBuf (portionSlot areaBuf p j)
    (slotPlace decompress areaBuf p j)) → SlotInside decompress areaBuf (portionSlot areaBuf p i)
      (slotPlace decompress areaBuf p i)

/-- No check of the parser refuses the portion at `p`. -/
structure PortionPasses (p : Nat) : Prop where
  start : p ≤ areaBuf.size
  slots : ∀ i < portionSlots areaBuf p, SlotPasses decompress areaBuf (portionSlot areaBuf p i)
    (slotPlace decompress areaBuf p i)
  last : ¬PortionChained areaBuf p → portionEnd decompress areaBuf p ≤ areaBuf.size

structure PortionFlagsKnown (p : Nat) : Prop where
  chain : (portionChainHdr areaBuf p).FlagsKnown
  fragments : ∀ i < portionSlots areaBuf p, (portionSlot areaBuf p i).FlagsKnown
  tables : ∀ i < portionSlots areaBuf p, (portionSlot areaBuf p i).IsOffsets →
    ∀ data, blk2offFragmentData decompress areaBuf (portionSlot areaBuf p i)
      (slotPlace decompress areaBuf p i) = .ok data →
      (PhysOffsetTableHeader.wire.read data.1.data data.2).flags &&& ~~~offTableFlagsMask = 0

/-- The header of the portion lies inside the area, its count, flags and sizes are those of a portion,
and the next one is ahead. -/
structure PortionSound (p : Nat) : Prop where
  header : p + blk2offTblHdrSize ≤ areaBuf.size
  count : portionSlots areaBuf p ≤ blk2offTblMax
  flags : PortionFlagsKnown decompress areaBuf p
  sizes : ∀ i < portionSlots areaBuf p,
    (portionSlot areaBuf p i).IsExtents ∨ (portionSlot areaBuf p i).IsOffsets →
      slotPlace decompress areaBuf p i + (portionSlot areaBuf p i).comprSize.toNat ≤ areaBuf.size
  ahead : PortionChained areaBuf p → p < portionEnd decompress areaBuf p

structure PortionWellFormed (p : Nat) : Prop extends PortionPasses decompress areaBuf p,
  PortionSound decompress areaBuf p

def portionRound (st : OffTableDump) : Mkfs (Round OffTableDump OffTableDump) := do
  failIf (st.parsedBytes > areaBuf.size) .e2big
  let portion := st.parsedBytes
  let chainHdr ← areaBuf.get Errno FragmentsChainHeader.wire (portion + chainHdrOffset)
  let _ ← areaBuf.getArray Errno FragmentDesc.wire (portion + fragmentSlotsOffset)
    chainHdr.fragmentsCount.toNat
  let st ← Checked.forRange chainHdr.fragmentsCount.toNat (dumpSlot decompress areaBuf portion)
    { st with parsedBytes := Word.u32 (portion + blk2offTblHdrSize), nextFragmentExist := false }
  if st.nextFragmentExist then .ok (.again st)
  else do
    failIf (areaBuf.size < st.parsedBytes) .erange
    .ok (.leave st)

def firstPortion : OffTableDump := ⟨0, false, [], []⟩

/-- The parser comes to the portion at `p`. -/
def PortionReached (p : Nat) : Prop :=
  blk2offTblHdrSize ≤ areaBuf.size ∧ ∃ st, Checked.Reaches (portionRound decompress areaBuf) firstPortion st ∧
    st.parsedBytes = p

/-- The parser ends and stays inside the area, and no malformed portion lets it go on. -/
structure OffTableSafe : Prop where
  returns : ∃ fuel, Checked.Returns (parseBlk2offTable decompress areaBuf fuel)
  rejects : ∀ st, blk2offTblHdrSize ≤ areaBuf.size →
    Checked.Reaches (portionRound decompress areaBuf) firstPortion st →
    ¬PortionWellFormed decompress areaBuf st.parsedBytes → ∃ e, portionRound decompress areaBuf st = fail e

end

section

variable {decompress : UInt8 → Buf → Nat → Nat → Buf → Nat → Mkfs Buf} {areaBuf : Buf} {p fuel : Nat}
  {st : OffTableDump}

theorem dumpPortions_eq_loop : (dumpPortions decompress areaBuf fuel st >>= fun st => do
      failIf (areaBuf.size < st.parsedBytes) .erange
      .ok st) = Checked.loop (portionRound decompress areaBuf) fuel st := by
  induction fuel generalizing st with
  | zero => rfl
  | succ fuel ih =>
    unfold dumpPortions Checked.loop portionRound
    simp only
    by_cases hplace : st.parsedBytes > areaBuf.size
    · rw [failIf, if_pos hplace]
      rfl
    rw [failIf_of_not hplace, Checked.ok_bind, Checked.ok_bind]
    cases areaBuf.get Errno FragmentsChainHeader.wire (st.parsedBytes + chainHdrOffset) with
    | error e => rfl
    | ok chainHdr =>
      simp only [Checked.ok_bind]
      cases areaBuf.getArray Errno FragmentDesc.wire (st.parsedBytes + fragmentSlotsOffset)
        chainHdr.fragmentsCount.toNat with
      | error e => rfl
      | ok slots =>
        simp only [Checked.ok_bind]
        cases Checked.forRange chainHdr.fragmentsCount.toNat (dumpSlot decompress areaBuf st.parsedBytes)
          { st with
            parsedBytes := Word.u32 (st.parsedBytes + blk2offTblHdrSize)
            nextFragmentExist := false } with
        | error e => rfl
        | ok st' =>
          simp only [Checked.ok_bind]
          by_cases hnext : st'.nextFragmentExist = true
          · rw [if_pos hnext, if_pos hnext]
            exact ih
          · rw [if_neg hnext, if_neg hnext]
            simp only [Checked.ok_bind]
            by_cases hend : areaBuf.size < st'.parsedBytes
            · rw [failIf, if_pos hend]
              rfl
            · rw [failIf_of_not hend]
              rfl

theorem portionSlots_confined (hkeeps : KeepsSize decompress) (hwide : areaBuf.size < 4294967296)
    (hheader : p + fragmentSlotsOffset + portionSlots areaBuf p * 16 ≤ areaBuf.size) :
    Checked.Confined (Checked.forRange (portionSlots areaBuf p) (dumpSlot decompress areaBuf p)
        { st with parsedBytes := Word.u32 (p + blk2offTblHdrSize), nextFragmentExist := false })
      (∀ i < portionSlots areaBuf p, (∀ j < i, SlotPasses decompress areaBuf (portionSlot areaBuf p j)
        (slotPlace decompress areaBuf p j)) → SlotInside decompress areaBuf (portionSlot areaBuf p i)
          (slotPlace decompress areaBuf p i))
      (∀ i < portionSlots areaBuf p, SlotPasses decompress areaBuf (portionSlot areaBuf p i)
        (slotPlace decompress areaBuf p i))
      fun st' => st'.parsedBytes = portionEnd decompress areaBuf p ∧
        (st'.nextFragmentExist = true ↔ PortionChained areaBuf p) := by
  refine Checked.Confined.forRange (fun i (st : OffTableDump) => st.parsedBytes = slotPlace decompress areaBuf p i ∧
    (st.nextFragmentExist = true ↔ ∃ j < i, (portionSlot areaBuf p j).type = nextTableDesc))
    ⟨rfl, iff_of_false Bool.false_ne_true fun ⟨j, hj, _⟩ => Nat.not_lt_zero j hj⟩ fun i hi t ht => ?_
  obtain ⟨hplace, hnext⟩ := ht
  have hslot : areaBuf.get Errno FragmentDesc.wire (p + fragmentSlotsOffset + i * 16) =
      .ok (portionSlot areaBuf p i) := Buf.get_ok (by
    rw [FragmentDesc.wire_size]
    omega)
  rw [← hplace]
  refine (dumpSlot_confined hkeeps hwide hslot).congr Iff.rfl (fun _ => Iff.rfl) fun t' ht' => ⟨?_, ?_⟩
  · rw [ht'.1, hplace]
    rfl
  · rw [ht'.2, hnext]
    constructor
    · rintro (⟨j, hj, htype⟩ | htype)
      · exact ⟨j, Nat.lt_succ_of_lt hj, htype⟩
      · exact ⟨i, Nat.lt_succ_self i, htype⟩
    · rintro ⟨j, hj, htype⟩
      rcases Nat.lt_succ_iff_lt_or_eq.1 hj with hlt | rfl
      · exact .inl ⟨j, hlt, htype⟩
      · exact .inr htype

theorem portionEnd_confined {st' : OffTableDump} (hplace : st'.parsedBytes = portionEnd decompress areaBuf p)
    (hnext : st'.nextFragmentExist = true ↔ PortionChained areaBuf p) :
    Checked.Confined (do
        if st'.nextFragmentExist then .ok (Round.again st')
        else do
          failIf (areaBuf.size < st'.parsedBytes) .erange
          .ok (.leave st') : Mkfs (Round OffTableDump OffTableDump)) True
      (¬PortionChained areaBuf p → portionEnd decompress areaBuf p ≤ areaBuf.size)
      fun r => ∀ st', r = .again st' → PortionChained areaBuf p ∧
        st'.parsedBytes = portionEnd decompress areaBuf p := by
  by_cases hchained : st'.nextFragmentExist = true
  · have hagain : ∀ t : OffTableDump, (Round.again st' : Round _ OffTableDump) = .again t →
        PortionChained areaBuf p ∧ t.parsedBytes = portionEnd decompress areaBuf p := fun t heq => by
      cases heq
      exact ⟨hnext.1 hchained, hplace⟩
    rw [if_pos hchained]
    exact (Checked.Confined.ok hagain).congr Iff.rfl
      (fun _ => iff_of_true (absurd (hnext.1 hchained)) trivial) fun _ h => h
  · have hcheck : Checked.Confined (failIf (areaBuf.size < st'.parsedBytes) .erange >>= fun _ =>
        .ok (.leave st') : Mkfs (Round OffTableDump OffTableDump)) _ _ fun r => ∀ t, r = .again t →
        PortionChained areaBuf p ∧ t.parsedBytes = portionEnd decompress areaBuf p :=
      failIf_confined fun _ => .ok nofun
    rw [if_neg hchained]
    refine hcheck.congr (imp_true_iff _).symm (fun _ => ?_) fun _ h => h
    rw [and_true, Nat.not_lt, hplace]
    exact forall_prop_of_true (mt hnext.2 hchained)

theorem portionRound_confined (hkeeps : KeepsSize decompress) (hwide : areaBuf.size < 4294967296) :
    Checked.Confined (portionRound decompress areaBuf st)
      (st.parsedBytes ≤ areaBuf.size → PortionInside decompress areaBuf st.parsedBytes)
      (PortionPasses decompress areaBuf st.parsedBytes)
      fun r => ∀ st', r = .again st' → PortionChained areaBuf st.parsedBytes ∧
        st'.parsedBytes = portionEnd decompress areaBuf st.parsedBytes := by
  generalize hp : st.parsedBytes = p
  have hslots : Checked.Confined (areaBuf.getArray Errno FragmentDesc.wire (p + fragmentSlotsOffset)
      (portionSlots areaBuf p)) (p + fragmentSlotsOffset + portionSlots areaBuf p * 16 ≤ areaBuf.size) True
      fun _ => True := Buf.getArray_confined
  have hfollow := fun hheader => (@portionSlots_confined decompress areaBuf p st hkeeps hwide hheader).bind
    fun st' _ _ h => portionEnd_confined h.1 h.2
  unfold portionRound
  simp only [hp]
  refine Checked.Confined.congr (failIf_confined fun _ => Buf.get_bind_confined fun _ =>
    hslots.bind_access fun _ hheader _ => hfollow hheader) ?_ (fun _ => ?_) fun _ h => h
  · rw [Nat.not_lt, imp_true_iff, and_true]
    refine imp_congr_right fun _ => ⟨fun h => ⟨?_, h.header, h.slots⟩, fun h => ⟨h.2.1, h.2.2⟩⟩
    have hheader := h.header
    unfold fragmentSlotsOffset at hheader
    unfold chainHdrOffset
    rw [FragmentsChainHeader.wire_size]
    omega
  · rw [Nat.not_lt]
    exact ⟨fun h => ⟨h.start, h.slots, h.last⟩, fun h => ⟨h.1, h.2.1, h.2.2⟩⟩

theorem parseBlk2offTable_returns_iff (hsize : blk2offTblHdrSize ≤ areaBuf.size) :
    (∃ fuel, Checked.Returns (parseBlk2offTable decompress areaBuf fuel)) ↔
      ∃ fuel, Checked.Returns (Checked.loop (portionRound decompress areaBuf) fuel firstPortion) := by
  refine exists_congr fun fuel => ?_
  rw [← dumpPortions_eq_loop]
  unfold parseBlk2offTable
  rw [failIf_of_not (Nat.not_lt.2 hsize), Checked.ok_bind]
  rfl

theorem offTableSafe_iff (hkeeps : KeepsSize decompress) (hwide : areaBuf.size < 4294967296) :
    OffTableSafe decompress areaBuf ↔ ∀ p, PortionReached decompress areaBuf p →
      (p ≤ areaBuf.size → PortionInside decompress areaBuf p) ∧
        (PortionPasses decompress areaBuf p → PortionSound decompress areaBuf p) := by
  constructor
  · rintro ⟨hreturns, hrejects⟩ _ ⟨hsize, st, hreached, rfl⟩
    rw [parseBlk2offTable_returns_iff hsize] at hreturns
    have hround := @portionRound_confined decompress areaBuf st hkeeps hwide
    have hinside := hround.returns.1 (hreached.returns hreturns)
    refine ⟨hinside, fun hpasses => ?_⟩
    by_contra hnot
    obtain ⟨r, hr, -⟩ := hround.succeeds hinside hpasses
    obtain ⟨e, he⟩ := hrejects st hsize hreached fun hwell => hnot hwell.toPortionSound
    exact nomatch hr.symm.trans he
  · intro hsound
    refine ⟨?_, fun st hsize hreached hnot => ?_⟩
    · by_cases hsize : blk2offTblHdrSize ≤ areaBuf.size
      · rw [parseBlk2offTable_returns_iff hsize]
        refine Checked.loop_returns_of (fun st => areaBuf.size + 1 - st.parsedBytes)
          (fun st hreached => (portionRound_confined hkeeps hwide).returns.2
            (hsound _ ⟨hsize, st, hreached, rfl⟩).1) fun st st' hreached hagain => ?_
        obtain ⟨hinside, hunchecked⟩ := hsound _ ⟨hsize, st, hreached, rfl⟩
        have hround := @portionRound_confined decompress areaBuf st hkeeps hwide
        have hpasses : PortionPasses decompress areaBuf st.parsedBytes := by
          by_contra hnot
          obtain ⟨e, he⟩ := hround.refuses hinside hnot
          exact nomatch hagain.symm.trans he
        obtain ⟨r, hr, hleads⟩ := hround.succeeds hinside hpasses
        obtain ⟨hchained, hplace⟩ := hleads st' (Except.ok.inj (hr.symm.trans hagain))
        have hahead := (hunchecked hpasses).ahead hchained
        have hstart := hpasses.start
        omega
      · refine ⟨0, ?_⟩
        unfold parseBlk2offTable
        rw [failIf, if_pos (Nat.not_le.1 hsize)]
        exact Checked.returns_code
    · obtain ⟨hinside, hunchecked⟩ := hsound _ ⟨hsize, st, hreached, rfl⟩
      exact (portionRound_confined hkeeps hwide).refuses hinside fun hpasses =>
        hnot ⟨hpasses, hunchecked hpasses⟩

end

end Ssdfs
