import Ssdfs.Dump.BlkDesc
import Ssdfs.Lib.Confined
import Ssdfs.OffTable.Format

namespace Ssdfs

open Memory

def chainHdrFlagMask : UInt16 := 0x1

def FragmentsChainHeader.FlagsKnown (hdr : FragmentsChainHeader) : Prop :=
  hdr.flags &&& ~~~chainHdrFlagMask = 0

def FragmentDesc.FlagsKnown (frag : FragmentDesc) : Prop := frag.flags &&& ~~~fragmentDescFlagsMask = 0

instance (hdr : FragmentsChainHeader) : Decidable hdr.FlagsKnown := inferInstanceAs (Decidable (_ = _))
instance (frag : FragmentDesc) : Decidable frag.FlagsKnown := inferInstanceAs (Decidable (_ = _))

/-- The buffer that a decompressor fills keeps its size. -/
def KeepsSize (decompress : UInt8 → Buf → Nat → Nat → Buf → Nat → Mkfs Buf) : Prop :=
  ∀ type src start len dst n data, decompress type src start len dst n = .ok data → data.size = dst.size

section

variable (decompress : UInt8 → Buf → Nat → Nat → Buf → Nat → Mkfs Buf) (areaBuf : Buf)

/-- The header of the table at `p`, whatever it is that the area holds there. -/
def tableChainHdr (p : Nat) : FragmentsChainHeader := FragmentsChainHeader.wire.read areaBuf.data p

/-- The descriptor in slot `i` of the table at `p`. -/
def tableFragment (p i : Nat) : FragmentDesc := FragmentDesc.wire.read areaBuf.data (blkOffset p i)

def shownFragments (p : Nat) : Nat :=
  min (tableChainHdr areaBuf p).fragmentsCount.toNat nextBlkTableIndex

/-- Where the bytes of fragment `i` begin in the table at `p`: behind those of the fragments before. -/
def shownPlace (p : Nat) : Nat → Nat
  | 0 => p + areaBlockTableSize
  | i + 1 => shownPlace p i + (tableFragment areaBuf p i).comprSize.toNat

/-- The stored bytes of fragment `i` lie inside the area. -/
def StoredInside (p i : Nat) : Prop := shownPlace areaBuf p (i + 1) ≤ areaBuf.size

/-- The descriptors of fragment `i` lie inside the area, or the library stays inside it. -/
def DescriptorsInside (p i : Nat) : Prop :=
  let frag := tableFragment areaBuf p i
  let uncomprSize := frag.uncomprSize.toNat
  let place := shownPlace areaBuf p i
  if frag.type = dataBlkDescZlib ∨ frag.type = dataBlkDescLzo then
    Checked.Returns (decompress frag.type areaBuf place frag.comprSize.toNat (Buf.zero uncomprSize)
      uncomprSize)
  else place + uncomprSize / blockDescriptorSize * blockDescriptorSize ≤ areaBuf.size

def DescTableCounted (p : Nat) : Prop := (tableChainHdr areaBuf p).fragmentsCount.toNat ≤ blkTableMax

def DescTableInside (p : Nat) : Prop :=
  DescTableCounted areaBuf p → ∀ i < shownFragments areaBuf p, (∀ j < i, StoredInside areaBuf p j) →
    StoredInside areaBuf p i → DescriptorsInside decompress areaBuf p i

def DescTableChained (p : Nat) : Prop := (tableChainHdr areaBuf p).flags &&& multipleHdrChain ≠ 0

/-- The table at `p` leads to one at `q`. -/
def DescTableLeads (p q : Nat) : Prop :=
  DescTableChained areaBuf p ∧ nextTableOffset (tableFragment areaBuf p nextBlkTableIndex)
    (shownPlace areaBuf p (shownFragments areaBuf p)) = .ok q

/-- No check of the parser refuses the table at `p`. -/
structure DescTablePasses (p : Nat) : Prop where
  count : DescTableCounted areaBuf p
  sizes : ∀ i < shownFragments areaBuf p, StoredInside areaBuf p i
  next : DescTableChained areaBuf p → ∃ q, DescTableLeads areaBuf p q

def DescTableFlagsKnown (p : Nat) : Prop := (tableChainHdr areaBuf p).FlagsKnown ∧
  ∀ i < shownFragments areaBuf p, (tableFragment areaBuf p i).FlagsKnown

structure DescTableWellFormed (p : Nat) : Prop extends DescTablePasses areaBuf p where
  header : p + areaBlockTableSize ≤ areaBuf.size
  flags : DescTableFlagsKnown areaBuf p
  ahead : ∀ q, DescTableLeads areaBuf p q → p < q

def descTableRound (st : Nat × List BlockDescriptor) :
    Mkfs (Round (Nat × List BlockDescriptor) (List BlockDescriptor)) := do
  let (table, shown) := st
  let chainHdr ← areaBuf.get Errno FragmentsChainHeader.wire table
  let (parsedBytes, shown) ← dumpTable decompress areaBuf chainHdr table shown
  if chainHdr.flags &&& multipleHdrChain ≠ 0 then do
    let frag ← areaBuf.get Errno FragmentDesc.wire (blkOffset table nextBlkTableIndex)
    let parsedBytes ← nextTableOffset frag parsedBytes
    .ok (.again (parsedBytes, shown))
  else .ok (.leave shown)

/-- The parser comes to the table at `p`. -/
def DescTableReached (p : Nat) : Prop :=
  areaBlockTableSize ≤ areaBuf.size ∧
    ∃ shown, Checked.Reaches (descTableRound decompress areaBuf) (0, []) (p, shown)

/-- The parser ends and stays inside the area, and no malformed table lets it go on. -/
structure DescArraySafe : Prop where
  returns : ∃ fuel, Checked.Returns (parseBlkDescArray decompress areaBuf fuel)
  rejects : ∀ st, areaBlockTableSize ≤ areaBuf.size →
    Checked.Reaches (descTableRound decompress areaBuf) (0, []) st → ¬DescTableWellFormed areaBuf st.1 →
    ∃ e, descTableRound decompress areaBuf st = fail e

/-- What the parser does not check: that the table is inside the area, unless its count is refused, and
the descriptors that it tells of as well, that its flags are known, and that the next table is ahead. -/
structure DescTableSound (p : Nat) : Prop where
  header : p + areaBlockTableSize ≤ areaBuf.size ∨
    p + 16 ≤ areaBuf.size ∧ ¬DescTableCounted areaBuf p
  inside : p + areaBlockTableSize ≤ areaBuf.size → DescTableInside decompress areaBuf p
  flags : p + areaBlockTableSize ≤ areaBuf.size → DescTablePasses areaBuf p →
    DescTableFlagsKnown areaBuf p
  ahead : p + areaBlockTableSize ≤ areaBuf.size → DescTablePasses areaBuf p →
    ∀ q, DescTableLeads areaBuf p q → p < q

end

section

variable {decompress : UInt8 → Buf → Nat → Nat → Buf → Nat → Mkfs Buf} {areaBuf : Buf} {p i fuel : Nat}
  {shown : List BlockDescriptor} {st : Nat × List BlockDescriptor}

theorem parseNextArea_eq_loop : parseNextArea decompress areaBuf fuel p shown =
    Checked.loop (descTableRound decompress areaBuf) fuel (p, shown) := by
  induction fuel generalizing p shown with
  | zero => rfl
  | succ fuel ih =>
    unfold parseNextArea Checked.loop descTableRound
    simp only
    cases areaBuf.get Errno FragmentsChainHeader.wire p with
    | error e => rfl
    | ok chainHdr =>
      simp only [Checked.ok_bind]
      cases dumpTable decompress areaBuf chainHdr p shown with
      | error e => rfl
      | ok r =>
        simp only [Checked.ok_bind]
        by_cases hflag : chainHdr.flags &&& multipleHdrChain ≠ 0
        · rw [if_pos hflag, if_pos hflag]
          cases areaBuf.get Errno FragmentDesc.wire (blkOffset p nextBlkTableIndex) with
          | error e => rfl
          | ok frag =>
            simp only [Checked.ok_bind]
            cases nextTableOffset frag r.1 with
            | error e => rfl
            | ok q => exact ih
        · rw [if_neg hflag, if_neg hflag]
          rfl

theorem failIf_confined {α : Type} {c R A : Prop} [Decidable c] {e : Errno} {f : Unit → Mkfs α}
    {Q : α → Prop} (hf : ¬c → Checked.Confined (f ()) R A Q) :
    Checked.Confined (failIf c e >>= f) (¬c → R) (¬c ∧ A) Q := by
  by_cases hc : c
  · have hfail : (failIf c e >>= f) = .error (.code e) := by
      rw [failIf, if_pos hc]
      rfl
    rw [hfail]
    exact Checked.Confined.code.congr (iff_of_true (absurd hc) trivial)
      (fun _ => iff_of_false (fun h => h.1 hc) id) fun _ h => h
  · rw [failIf_of_not hc, Checked.ok_bind]
    exact (hf hc).congr (forall_prop_of_true hc) (fun _ => and_iff_right hc) fun _ h => h

theorem readItem_confined {data : Buf} {offset : Nat} : Checked.Confined (readItem data offset i shown)
    (offset + i * blockDescriptorSize + 64 ≤ data.size) True fun _ => True := by
  have hget : Checked.Confined (data.get Errno BlockDescriptor.wire (offset + i * blockDescriptorSize))
      (offset + i * blockDescriptorSize + 64 ≤ data.size) True _ := Buf.get_confined
  unfold readItem
  refine (hget.bind_access fun _ _ _ => Checked.Confined.ok trivial).congr ?_ (fun _ => Iff.rfl)
    fun _ h => h
  exact (and_true _).symm.to_iff

theorem parseBlkStates_confined {data : Buf} {offset uncomprSize : Nat} (hoffset : offset ≤ data.size) :
    Checked.Confined (parseBlkStates data offset uncomprSize shown)
      (offset + uncomprSize / blockDescriptorSize * blockDescriptorSize ≤ data.size) True
      fun _ => True := by
  have hitems := @Checked.Confined.forRange Errno _ (readItem data offset)
    (fun i => offset + i * blockDescriptorSize + 64 ≤ data.size) (fun _ => True) (fun _ _ => True)
    (uncomprSize / blockDescriptorSize) shown trivial fun i _ t _ => readItem_confined
  refine hitems.congr ?_ (fun _ => iff_of_true trivial fun _ _ => trivial) fun _ h => h
  unfold blockDescriptorSize
  constructor
  · intro h i hi _
    have hle : (i + 1) * 64 ≤ uncomprSize / 64 * 64 := Nat.mul_le_mul_right 64 hi
    omega
  · intro h
    rcases Nat.eq_zero_or_pos (uncomprSize / 64) with hzero | hpos
    · rw [hzero]
      omega
    · have hlast := h (uncomprSize / 64 - 1) (by omega) fun _ _ => trivial
      omega

theorem dumpFragmentData_confined (hkeeps : KeepsSize decompress)
    (hplace : shownPlace areaBuf p i ≤ areaBuf.size) :
    Checked.Confined (dumpFragmentData decompress areaBuf (tableFragment areaBuf p i)
      (shownPlace areaBuf p i) shown) (DescriptorsInside decompress areaBuf p i) True fun _ => True := by
  unfold dumpFragmentData DescriptorsInside
  simp only
  split
  · generalize hdata : decompress _ _ _ _ _ _ = r
    match r with
    | .ok data =>
      have hsize : data.size = (tableFragment areaBuf p i).uncomprSize.toNat := hkeeps _ _ _ _ _ _ _ hdata
      refine (parseBlkStates_confined (Nat.zero_le _)).congr (iff_of_true Checked.returns_ok ?_)
        (fun _ => Iff.rfl) fun _ h => h
      rw [hsize, Nat.zero_add]
      exact Nat.div_mul_le_self _ _
    | .error (.code e) =>
      exact (Checked.Confined.ok trivial).congr (iff_of_true Checked.returns_code trivial)
        (fun _ => Iff.rfl) fun _ h => h
    | .error .abort | .error .trap | .error .stray | .error .fuel =>
      exact .strays (Checked.not_returns_of_ne nofun) (Checked.not_returns_of_ne nofun)
  · exact parseBlkStates_confined hplace

theorem tableSlot_le (hheader : p + areaBlockTableSize ≤ areaBuf.size) (hi : i < blkTableMax) :
    blkOffset p i + FragmentDesc.wire.size ≤ areaBuf.size := by
  unfold areaBlockTableSize at hheader
  unfold blkTableMax fragmentsChainMax at hi
  unfold blkOffset
  rw [FragmentDesc.wire_size]
  omega

theorem dumpFragment_confined (hkeeps : KeepsSize decompress) (hwide : areaBuf.size < 4294967296)
    (hheader : p + areaBlockTableSize ≤ areaBuf.size) (hi : i < blkTableMax)
    (hplace : shownPlace areaBuf p i ≤ areaBuf.size) :
    Checked.Confined (dumpFragment decompress areaBuf p i (shownPlace areaBuf p i, shown))
      (StoredInside areaBuf p i → DescriptorsInside decompress areaBuf p i) (StoredInside areaBuf p i)
      fun st => st.1 = shownPlace areaBuf p (i + 1) ∧ st.1 ≤ areaBuf.size := by
  have hstored : StoredInside areaBuf p i ↔
      ¬areaBuf.size - shownPlace areaBuf p i < (tableFragment areaBuf p i).comprSize.toNat := by
    unfold StoredInside
    rw [shownPlace]
    omega
  have hdata : Checked.Confined _ _ True _ :=
    @dumpFragmentData_confined decompress areaBuf p i shown hkeeps hplace
  have hnext : Checked.Confined (failIf (areaBuf.size - shownPlace areaBuf p i <
      (tableFragment areaBuf p i).comprSize.toNat) .einval >>= fun _ => do
        let shown ← dumpFragmentData decompress areaBuf (tableFragment areaBuf p i)
          (shownPlace areaBuf p i) shown
        .ok (Word.u32 (shownPlace areaBuf p i + (tableFragment areaBuf p i).comprSize.toNat), shown))
      _ _ fun st => st.1 = shownPlace areaBuf p (i + 1) ∧ st.1 ≤ areaBuf.size :=
    failIf_confined fun hfits => hdata.bind_access fun shown _ _ => .ok (by
      have hend : shownPlace areaBuf p i + (tableFragment areaBuf p i).comprSize.toNat ≤ areaBuf.size :=
        hstored.2 hfits
      rw [Word.u32_of_lt (Nat.lt_of_le_of_lt hend hwide)]
      exact ⟨rfl, hend⟩)
  unfold dumpFragment
  simp only
  rw [Buf.get_ok (tableSlot_le hheader hi), Checked.ok_bind, Word.sub32_of_le hplace hwide, hstored]
  exact hnext.congr (by rw [and_true]) (fun _ => (and_true _).symm.to_iff) fun _ h => h

theorem shownFragments_lt (hi : i < shownFragments areaBuf p) : i < blkTableMax :=
  Nat.lt_succ_of_lt (Nat.lt_of_lt_of_le hi (Nat.min_le_right ..))

theorem dumpTable_confined (hkeeps : KeepsSize decompress) (hwide : areaBuf.size < 4294967296)
    (hheader : p + areaBlockTableSize ≤ areaBuf.size) :
    Checked.Confined (dumpTable decompress areaBuf (tableChainHdr areaBuf p) p shown)
      (DescTableInside decompress areaBuf p)
      (DescTableCounted areaBuf p ∧ ∀ i < shownFragments areaBuf p, StoredInside areaBuf p i)
      fun st => st.1 = shownPlace areaBuf p (shownFragments areaBuf p) ∧ st.1 ≤ areaBuf.size := by
  have hstart : Word.u32 (p + areaBlockTableSize) = shownPlace areaBuf p 0 :=
    Word.u32_of_lt (Nat.lt_of_le_of_lt hheader hwide)
  have hfragments := @Checked.Confined.forRange Errno _ (dumpFragment decompress areaBuf p)
    (fun i => StoredInside areaBuf p i → DescriptorsInside decompress areaBuf p i)
    (StoredInside areaBuf p) (fun i st => st.1 = shownPlace areaBuf p i ∧ st.1 ≤ areaBuf.size)
    (shownFragments areaBuf p) (Word.u32 (p + areaBlockTableSize), shown)
    ⟨hstart, hstart ▸ hheader⟩ (fun i hi st hst => by
      obtain ⟨parsedBytes, shown⟩ := st
      obtain ⟨rfl, hplace⟩ := hst
      exact dumpFragment_confined hkeeps hwide hheader (shownFragments_lt hi) hplace)
  have htable := @failIf_confined _ ((tableChainHdr areaBuf p).fragmentsCount.toNat > blkTableMax)
    _ _ _ .erange (fun _ => _) _ fun _ => hfragments
  unfold DescTableInside DescTableCounted
  exact htable.congr (by rw [Nat.not_lt]) (fun _ => by rw [Nat.not_lt]) fun _ h => h

theorem nextTableOffset_returns {frag : FragmentDesc} {parsed : Nat} :
    Checked.Returns (nextTableOffset frag parsed) := by
  have hfail : ∀ {α : Type} {c : Prop} [Decidable c] {e : Errno} {f : Unit → Mkfs α},
      (¬c → Checked.Returns (f ())) → Checked.Returns (failIf c e >>= f) := fun {α c _ e f} h => by
    by_cases hc : c
    · rw [failIf, if_pos hc]
      exact Checked.returns_code
    · rw [failIf_of_not hc, Checked.ok_bind]
      exact h hc
  unfold nextTableOffset
  refine hfail fun _ => ?_
  simp only
  split
  · exact hfail fun _ => hfail fun _ => hfail fun _ => Checked.returns_ok
  · exact Checked.returns_ok

theorem descTableEnd_confined (hheader : p + areaBlockTableSize ≤ areaBuf.size) : Checked.Confined (do
    if (tableChainHdr areaBuf p).flags &&& multipleHdrChain ≠ 0 then do
      let frag ← areaBuf.get Errno FragmentDesc.wire (blkOffset p nextBlkTableIndex)
      let parsedBytes ← nextTableOffset frag (shownPlace areaBuf p (shownFragments areaBuf p))
      .ok (Round.again (parsedBytes, shown))
    else .ok (.leave shown) : Mkfs (Round (Nat × List BlockDescriptor) (List BlockDescriptor)))
    True (DescTableChained areaBuf p → ∃ q, DescTableLeads areaBuf p q)
    fun r => ∀ st, r = .again st → DescTableLeads areaBuf p st.1 := by
  by_cases hchained : (tableChainHdr areaBuf p).flags &&& multipleHdrChain ≠ 0
  · have hreturns := @nextTableOffset_returns (tableFragment areaBuf p nextBlkTableIndex)
      (shownPlace areaBuf p (shownFragments areaBuf p))
    have hslot : blkOffset p nextBlkTableIndex + FragmentDesc.wire.size ≤ areaBuf.size :=
      tableSlot_le hheader (Nat.lt_succ_self _)
    rw [if_pos hchained, Buf.get_ok hslot, Checked.ok_bind]
    change Checked.Confined (nextTableOffset (tableFragment areaBuf p nextBlkTableIndex)
      (shownPlace areaBuf p (shownFragments areaBuf p)) >>= _) _ _ _
    cases hnext : nextTableOffset (tableFragment areaBuf p nextBlkTableIndex)
      (shownPlace areaBuf p (shownFragments areaBuf p)) with
    | ok q =>
      have hleads : ∀ st : Nat × List BlockDescriptor,
          (Round.again (q, shown) : Round _ (List BlockDescriptor)) = .again st →
            DescTableLeads areaBuf p st.1 := fun st heq => by
        cases heq
        exact ⟨hchained, hnext⟩
      exact (Checked.Confined.ok hleads).congr Iff.rfl
        (fun _ => iff_of_true (fun _ => ⟨q, hchained, hnext⟩) trivial) fun _ h => h
    | error f =>
      obtain ⟨e, rfl⟩ := hreturns f hnext
      refine Checked.Confined.code.congr Iff.rfl (fun _ => iff_of_false (fun h => ?_) id) fun _ h => h
      obtain ⟨q, -, hq⟩ := h hchained
      exact nomatch hnext.symm.trans hq
  · rw [if_neg hchained]
    exact (Checked.Confined.ok nofun).congr Iff.rfl
      (fun _ => iff_of_true (fun h => absurd h hchained) trivial) fun _ h => h

theorem tableChainHdr_get (h : p + 16 ≤ areaBuf.size) :
    areaBuf.get Errno FragmentsChainHeader.wire p = .ok (tableChainHdr areaBuf p) := Buf.get_ok h

theorem descTableRound_confined (hkeeps : KeepsSize decompress) (hwide : areaBuf.size < 4294967296)
    (hheader : p + areaBlockTableSize ≤ areaBuf.size) :
    Checked.Confined (descTableRound decompress areaBuf (p, shown))
      (DescTableInside decompress areaBuf p) (DescTablePasses areaBuf p)
      fun r => ∀ st, r = .again st → DescTableLeads areaBuf p st.1 := by
  unfold descTableRound
  simp only
  rw [tableChainHdr_get (Nat.le_trans (Nat.add_le_add_left (by decide) p) hheader), Checked.ok_bind]
  refine ((dumpTable_confined hkeeps hwide hheader).bind fun st _ _ hst => ?_).congr (R := _ ∧ (_ → True))
    (A := _ ∧ (DescTableChained areaBuf p → ∃ q, DescTableLeads areaBuf p q)) ?_ (fun _ => ?_) fun _ h => h
  · obtain ⟨parsedBytes, shown⟩ := st
    obtain ⟨rfl, -⟩ := hst
    exact descTableEnd_confined hheader
  · rw [imp_true_iff, and_true]
  · exact ⟨fun h => ⟨⟨h.count, h.sizes⟩, h.next⟩, fun h => ⟨h.1.1, h.1.2, h.2⟩⟩

theorem dumpFragmentData_unrefused {frag : FragmentDesc} {place : Nat} :
    Checked.Unrefused (dumpFragmentData decompress areaBuf frag place shown) := by
  have hstates : ∀ {data : Buf} {offset n : Nat}, Checked.Unrefused (parseBlkStates data offset n shown) :=
    Checked.Unrefused.forRange (fun _ _ => True) trivial fun _ _ _ _ =>
      ⟨Checked.Unrefused.access.bind fun _ _ => .ok, fun _ _ => trivial⟩
  unfold dumpFragmentData
  simp only
  split
  · split
    · exact .ok
    · exact fun e he => by
        rename_i hcode _
        exact hcode e (Except.error.inj he)
    · exact hstates
  · exact hstates

/-- Behind the end of the area the room that is left seems to be that of four gigabytes, so that no
fragment is refused. -/
theorem dumpFragment_unrefused {k : Nat} (hk : 1 ≤ k) (hmax : k ≤ 240 + i * 65535)
    (hi : i < fragmentsChainMax) (hplace : st.1 = Word.u32 (areaBuf.size + k)) :
    Checked.Unrefused (dumpFragment decompress areaBuf p i st) ∧
      ∀ st', dumpFragment decompress areaBuf p i st = .ok st' →
        ∃ k', 1 ≤ k' ∧ k' ≤ 240 + (i + 1) * 65535 ∧ st'.1 = Word.u32 (areaBuf.size + k') := by
  unfold fragmentsChainMax at hi
  obtain ⟨place, shown⟩ := st
  obtain rfl : place = Word.u32 (areaBuf.size + k) := hplace
  have hroom : Word.sub32 areaBuf.size (Word.u32 (areaBuf.size + k)) = 4294967296 - k := by
    unfold Word.sub32 Word.u32
    omega
  unfold dumpFragment
  simp only
  rw [hroom]
  constructor
  · refine Checked.Unrefused.access.bind fun frag _ => ?_
    have hsize := frag.comprSize.toNat_lt
    rw [failIf_of_not (by omega), Checked.ok_bind]
    exact dumpFragmentData_unrefused.bind fun _ _ => .ok
  · intro st' h
    obtain ⟨frag, -, h⟩ := Checked.bind_eq_ok.1 h
    have hsize := frag.comprSize.toNat_lt
    rw [failIf_of_not (by omega), Checked.ok_bind] at h
    obtain ⟨shown', -, h⟩ := Checked.bind_eq_ok.1 h
    cases h
    refine ⟨k + frag.comprSize.toNat, by omega, by omega, ?_⟩
    unfold Word.u32
    simp only
    omega

theorem descTableRound_cut (hin : p + 16 ≤ areaBuf.size)
    (hcut : areaBuf.size < p + areaBlockTableSize) :
    (¬DescTableCounted areaBuf p → descTableRound decompress areaBuf (p, shown) = fail .erange) ∧
      (DescTableCounted areaBuf p → Checked.Unrefused (descTableRound decompress areaBuf (p, shown))) := by
  unfold areaBlockTableSize at hcut
  unfold descTableRound
  simp only
  rw [tableChainHdr_get hin, Checked.ok_bind]
  unfold dumpTable
  simp only
  constructor
  · intro hcount
    rw [failIf, if_pos (Nat.not_le.1 hcount)]
    rfl
  · intro hcount
    rw [failIf_of_not (Nat.not_lt.2 hcount), Checked.ok_bind]
    refine (Checked.Unrefused.forRange
      (fun i st => ∃ k, 1 ≤ k ∧ k ≤ 240 + i * 65535 ∧ st.1 = Word.u32 (areaBuf.size + k)) ?_
      fun i hi st hst => ?_).bind fun st _ => ?_
    · refine ⟨p + 256 - areaBuf.size, by omega, by omega, ?_⟩
      unfold areaBlockTableSize
      simp only
      congr 1
      omega
    · obtain ⟨k, hk, hmax, hplace⟩ := hst
      exact dumpFragment_unrefused hk hmax (Nat.lt_of_lt_of_le hi (Nat.min_le_right ..)) hplace
    · split
      · have hslot : ¬blkOffset p nextBlkTableIndex + FragmentDesc.wire.size ≤ areaBuf.size := by
          rw [FragmentDesc.wire_size]
          unfold blkOffset nextBlkTableIndex fragmentsChainMax
          omega
        rw [Buf.get, if_neg hslot]
        intro e h
        cases h
      · exact .ok

theorem descTableRound_out (hout : areaBuf.size < p + 16) :
    descTableRound decompress areaBuf (p, shown) = .error .stray := by
  have hget : areaBuf.get Errno FragmentsChainHeader.wire p = .error .stray := if_neg (Nat.not_le.2 hout)
  unfold descTableRound
  simp only
  rw [hget]
  rfl

theorem descTableRound_sound (hkeeps : KeepsSize decompress) (hwide : areaBuf.size < 4294967296)
    (h : DescTableSound decompress areaBuf p) :
    Checked.Returns (descTableRound decompress areaBuf (p, shown)) ∧
      (∀ st, descTableRound decompress areaBuf (p, shown) = .ok (.again st) →
        p + areaBlockTableSize ≤ areaBuf.size ∧ p < st.1) ∧
      (¬DescTableWellFormed areaBuf p → ∃ e, descTableRound decompress areaBuf (p, shown) = fail e) := by
  by_cases hheader : p + areaBlockTableSize ≤ areaBuf.size
  · have hround := @descTableRound_confined decompress areaBuf p shown hkeeps hwide hheader
    have hinside := h.inside hheader
    refine ⟨hround.returns.2 hinside, fun st hst => ⟨hheader, ?_⟩, fun hnot =>
      hround.refuses hinside fun hpasses =>
        hnot ⟨hpasses, hheader, h.flags hheader hpasses, h.ahead hheader hpasses⟩⟩
    by_cases hpasses : DescTablePasses areaBuf p
    · obtain ⟨r, hr, hleads⟩ := hround.succeeds hinside hpasses
      exact h.ahead hheader hpasses _ (hleads st (Except.ok.inj (hr.symm.trans hst)))
    · obtain ⟨e, he⟩ := hround.refuses hinside hpasses
      exact nomatch hst.symm.trans he
  · obtain ⟨hin, hcount⟩ := h.header.resolve_left hheader
    have hfail := (@descTableRound_cut decompress areaBuf p shown hin
      (Nat.not_le.1 hheader)).1 hcount
    rw [hfail]
    exact ⟨Checked.returns_code, fun st => nofun, fun _ => ⟨_, rfl⟩⟩

theorem descTableSound_of (hkeeps : KeepsSize decompress) (hwide : areaBuf.size < 4294967296)
    (hreturns : Checked.Returns (descTableRound decompress areaBuf (p, shown)))
    (hrejects : ¬DescTableWellFormed areaBuf p →
      ∃ e, descTableRound decompress areaBuf (p, shown) = fail e) :
    DescTableSound decompress areaBuf p := by
  by_cases hheader : p + areaBlockTableSize ≤ areaBuf.size
  · have hround := @descTableRound_confined decompress areaBuf p shown hkeeps hwide hheader
    have hinside := hround.returns.1 hreturns
    have hwell : DescTablePasses areaBuf p → DescTableWellFormed areaBuf p := fun hpasses => by
      by_contra hnot
      obtain ⟨r, hr, -⟩ := hround.succeeds hinside hpasses
      obtain ⟨e, he⟩ := hrejects hnot
      exact nomatch hr.symm.trans he
    exact ⟨.inl hheader, fun _ => hinside, fun _ h => (hwell h).flags, fun _ h => (hwell h).ahead⟩
  · have hin : p + 16 ≤ areaBuf.size := by
      by_contra hout
      rw [descTableRound_out (Nat.not_le.1 hout)] at hreturns
      exact Checked.not_returns_stray hreturns
    have hcount : ¬DescTableCounted areaBuf p := fun hcount => by
      obtain ⟨e, he⟩ := hrejects fun hwell => hheader hwell.header
      exact (@descTableRound_cut decompress areaBuf p shown hin (Nat.not_le.1 hheader)).2 hcount e he
    exact ⟨.inr ⟨hin, hcount⟩, fun h => absurd h hheader, fun h => absurd h hheader,
      fun h => absurd h hheader⟩

theorem parseBlkDescArray_returns_iff (hsize : areaBlockTableSize ≤ areaBuf.size) :
    (∃ fuel, Checked.Returns (parseBlkDescArray decompress areaBuf fuel)) ↔
      ∃ fuel, Checked.Returns (Checked.loop (descTableRound decompress areaBuf) fuel (0, [])) := by
  refine exists_congr fun fuel => ?_
  unfold parseBlkDescArray
  rw [failIf_of_not (Nat.not_lt.2 hsize), Checked.ok_bind, parseNextArea_eq_loop]

theorem descArraySafe_iff (hkeeps : KeepsSize decompress) (hwide : areaBuf.size < 4294967296) :
    DescArraySafe decompress areaBuf ↔
      ∀ p, DescTableReached decompress areaBuf p → DescTableSound decompress areaBuf p := by
  constructor
  · rintro ⟨hreturns, hrejects⟩ p ⟨hsize, shown, hreached⟩
    rw [parseBlkDescArray_returns_iff hsize] at hreturns
    exact descTableSound_of hkeeps hwide (hreached.returns hreturns) (hrejects _ hsize hreached)
  · intro hsound
    have hrounds : ∀ st, areaBlockTableSize ≤ areaBuf.size →
        Checked.Reaches (descTableRound decompress areaBuf) (0, []) st → _ :=
      fun st hsize hreached => @descTableRound_sound decompress areaBuf st.1 st.2 hkeeps hwide
        (hsound st.1 ⟨hsize, st.2, hreached⟩)
    refine ⟨?_, fun st hsize hreached => (hrounds st hsize hreached).2.2⟩
    by_cases hsize : areaBlockTableSize ≤ areaBuf.size
    · rw [parseBlkDescArray_returns_iff hsize]
      refine Checked.loop_returns_of (fun st => areaBuf.size - st.1)
        (fun st hreached => (hrounds st hsize hreached).1) fun st st' hreached hagain => ?_
      obtain ⟨hheader, hahead⟩ := (hrounds st hsize hreached).2.1 st' hagain
      unfold areaBlockTableSize at hheader
      omega
    · refine ⟨0, ?_⟩
      unfold parseBlkDescArray
      rw [failIf, if_pos (Nat.not_le.1 hsize)]
      exact Checked.returns_code

end

end Ssdfs
