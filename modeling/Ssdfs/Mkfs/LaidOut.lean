import Ssdfs.Mkfs.DefineLayout

namespace Ssdfs

namespace PebContent

def IsBlank (peb : PebContent) : Prop := ∀ k, peb.extents k = ⟨none, 0, 0⟩

def blankHeader (offset : Nat) : ExtentDesc :=
  ⟨some fun _ => 0, UInt32.ofNat offset, UInt32.ofNat segmentHeaderSize⟩

structure Headed (offset : Nat) (peb : PebContent) : Prop where
  header : (peb.extents .segHeader).buf.isSome = true
  start : peb.start .segHeader = offset
  size : peb.size .segHeader = segmentHeaderSize

structure Keeps (j : ExtentIndex) (peb peb' : PebContent) : Prop where
  lebId : peb'.lebId = peb.lebId
  pebId : peb'.pebId = peb.pebId
  extent : peb'.extents j = peb.extents j

structure GetsHeader (offset : Nat) (peb peb' : PebContent) : Prop where
  lebId : peb'.lebId = peb.lebId
  pebId : peb'.pebId = peb.pebId
  header : peb'.extents .segHeader = blankHeader offset

variable {peb peb' peb'' : PebContent} {j k : ExtentIndex} {offset : Nat}

theorem Keeps.refl : Keeps j peb peb := ⟨rfl, rfl, rfl⟩

theorem Keeps.trans (h : Keeps j peb peb') (h' : Keeps j peb' peb'') : Keeps j peb peb'' :=
  ⟨h'.lebId.trans h.lebId, h'.pebId.trans h.pebId, h'.extent.trans h.extent⟩

theorem GetsHeader.keep (h : GetsHeader offset peb peb') (h' : Keeps .segHeader peb' peb'') :
    GetsHeader offset peb peb'' :=
  ⟨h'.lebId.trans h.lebId, h'.pebId.trans h.pebId, h'.extent.trans h.header⟩

theorem headed_of_blankHeader (h : peb.extents .segHeader = blankHeader offset)
    (hlt : offset < 4294967296) : peb.Headed offset := by
  unfold blankHeader at h
  refine ⟨?_, ?_, ?_⟩
  · rw [h]
    rfl
  · unfold start
    rw [h]
    exact UInt32.toNat_ofNat_of_lt' hlt
  · unfold PebContent.size
    rw [h]
    rfl

theorem setOffset_keeps (hk : k ≠ j) : Keeps j peb (peb.setOffset k offset) :=
  ⟨rfl, rfl, Function.update_of_ne hk.symm ..⟩

theorem fill_keeps {buf : Memory.Bytes} {n : Nat} (hk : k ≠ j) : Keeps j peb (peb.fill k buf n) := by
  refine ⟨rfl, rfl, ?_⟩
  unfold fill setSize setBuf
  simp only
  rw [Function.update_of_ne hk.symm, Function.update_of_ne hk.symm]

theorem setExtentStartOffset_keeps {layout : VolumeLayout} {segType : SegType} (hk : k ≠ j) :
    Keeps j peb (setExtentStartOffset layout segType peb k) :=
  setOffset_keeps hk

theorem IsBlank.start (h : peb.IsBlank) (k : ExtentIndex) : peb.start k = 0 := by
  unfold PebContent.start
  rw [h k]
  rfl

theorem IsBlank.startOffset (h : peb.IsBlank) {layout : VolumeLayout} {segType : SegType} :
    (setExtentStartOffset layout segType peb .segHeader).start .segHeader = 0 := by
  have hoffset : Ssdfs.startOffset (logPageSize layout segType) (peb.start .segHeader) peb.size
      .segHeader = peb.start .segHeader := rfl
  unfold setExtentStartOffset
  rw [hoffset, h.start]
  unfold setOffset PebContent.start
  simp only [Function.update_self]
  rfl

end PebContent

section

variable {crc32 : UInt32 → List UInt8 → UInt32} {libs : CompressionLibs} {layout : VolumeLayout}
  {options : LogOptions} {segType : SegType} {payload : PayloadSource} {a : SegsArray}
  {site : TableSite} {src : CommitSource} {peb peb' : PebContent} {j k : ExtentIndex}
  {fragments fragments' : Nat → Option Buf} {segIndex pebIndex : Nat}

theorem defineSegmentHeaderLayout_ok (h : defineSegmentHeaderLayout a segIndex pebIndex peb = .ok peb') :
    segIndex < a.segsCapacity ∧ peb.GetsHeader (peb.start .segHeader) peb' := by
  obtain ⟨u, hplace, h⟩ := Checked.bind_eq_ok.1 h
  obtain ⟨hcapacity, -⟩ := failIf_bind_eq_ok.1 hplace
  obtain ⟨-, h⟩ := bugOn_bind_eq_ok.1 h
  cases h
  refine ⟨Nat.not_le.1 hcapacity, rfl, rfl, ?_⟩
  unfold PebContent.blankHeader PebContent.start PebContent.fill PebContent.setSize PebContent.setBuf
  simp only [Function.update_self]
  rw [UInt32.ofNat_toNat]

theorem defineSegmentHeaderLayout_keeps (hj : .segHeader ≠ j)
    (h : defineSegmentHeaderLayout a segIndex pebIndex peb = .ok peb') : peb.Keeps j peb' := by
  obtain ⟨-, -, h⟩ := Checked.bind_eq_ok.1 h
  obtain ⟨-, h⟩ := bugOn_bind_eq_ok.1 h
  cases h
  exact PebContent.fill_keeps hj

theorem defineLogFooterLayout_ok (hj : .logFooter ≠ j)
    (h : defineLogFooterLayout a segIndex pebIndex layout peb = .ok peb') : peb.Keeps j peb' := by
  obtain ⟨-, -, h⟩ := Checked.bind_eq_ok.1 h
  obtain ⟨-, h⟩ := bugOn_bind_eq_ok.1 h
  obtain ⟨-, h⟩ := bugOn_bind_eq_ok.1 h
  cases h
  exact PebContent.fill_keeps hj

theorem layoutBlockBitmap_ok {hasBackupCopy : Bool} (hk : k ≠ j)
    (h : layoutBlockBitmap crc32 libs layout options segType payload a site hasBackupCopy k peb =
      .ok peb') : peb.Keeps j peb' := by
  obtain ⟨-, -, h⟩ := Checked.bind_eq_ok.1 h
  obtain ⟨extent, -, h⟩ := Checked.bind_eq_ok.1 h
  cases h
  exact (PebContent.setExtentStartOffset_keeps hk).trans (PebContent.fill_keeps hk)

theorem layoutOffsetTable_ok (hk : k ≠ j)
    (h : layoutOffsetTable crc32 layout segType payload a site k peb = .ok peb') :
    peb.Keeps j peb' := by
  obtain ⟨-, -, h⟩ := Checked.bind_eq_ok.1 h
  obtain ⟨buf, -, h⟩ := Checked.bind_eq_ok.1 h
  cases h
  exact (PebContent.setExtentStartOffset_keeps hk).trans (PebContent.fill_keeps hk)

theorem layoutBlockBitmapBackup_ok (hj : .blockBitmapBackup ≠ j)
    (h : layoutBlockBitmapBackup crc32 libs layout options segType payload a site src peb = .ok peb') :
    peb.Keeps j peb' := by
  unfold layoutBlockBitmapBackup at h
  split at h
  · exact layoutBlockBitmap_ok hj h
  · cases h
    exact .refl

theorem layoutOffsetTableBackup_ok (hj : .offsetTableBackup ≠ j)
    (h : layoutOffsetTableBackup crc32 layout segType payload a site src peb = .ok peb') :
    peb.Keeps j peb' := by
  unfold layoutOffsetTableBackup at h
  split at h
  · exact layoutOffsetTable_ok hj h
  · cases h
    exact .refl

theorem layoutBlockDescriptors_ok (hj : .blockDescriptors ≠ j)
    (h : layoutBlockDescriptors crc32 layout segType payload a site peb = .ok peb') :
    peb.Keeps j peb' := by
  obtain ⟨buf, -, h⟩ := Checked.bind_eq_ok.1 h
  cases h
  exact (PebContent.setExtentStartOffset_keeps hj).trans (PebContent.fill_keeps hj)

theorem layoutPayload_ok
    (h : layoutPayload layout segType payload site fragments peb = .ok (peb', fragments')) :
    (.logPayload ≠ j → peb.Keeps j peb') ∧ (peb.extents .logPayload).buf = none ∧
      site.fragmentIndex < payload.buffersCount ∧ ∃ buf, fragments site.fragmentIndex = some buf ∧
        (peb'.extents .logPayload).buf = some buf.data ∧
          fragments' = Function.update fragments site.fragmentIndex none := by
  unfold layoutPayload at h
  simp only at h
  split at h
  case isTrue => cases h
  case isFalse hnone =>
    split at h
    case isTrue => cases h
    case isFalse hin =>
      split at h
      case h_1 => cases h
      case h_2 buf hbuf =>
        cases h
        refine ⟨fun hj => (PebContent.setExtentStartOffset_keeps hj).trans (PebContent.fill_keeps hj),
          ?_, Nat.not_le.1 hin, buf, hbuf, ?_, rfl⟩
        · unfold setExtentStartOffset PebContent.setOffset at hnone
          simpa only [Function.update_self, Option.not_isSome_iff_eq_none] using hnone
        · unfold PebContent.fill PebContent.setSize PebContent.setBuf
          simp only [Function.update_self]

theorem layoutLog_payload
    (h : layoutLog crc32 libs layout options segType payload a site src fragments peb =
      .ok (peb', fragments')) : (peb.extents .logPayload).buf = none ∧
      site.fragmentIndex < payload.buffersCount ∧ ∃ buf, fragments site.fragmentIndex = some buf ∧
        (peb'.extents .logPayload).buf = some buf.data ∧
          fragments' = Function.update fragments site.fragmentIndex none := by
  obtain ⟨peb₁, hheader, h⟩ := Checked.bind_eq_ok.1 h
  obtain ⟨peb₂, hbitmap, h⟩ := Checked.bind_eq_ok.1 h
  obtain ⟨peb₃, htable, h⟩ := Checked.bind_eq_ok.1 h
  obtain ⟨peb₄, hdescs, h⟩ := Checked.bind_eq_ok.1 h
  obtain ⟨⟨peb₅, fragments₅⟩, hpayload, h⟩ := Checked.bind_eq_ok.1 h
  obtain ⟨peb₆, hfooter, h⟩ := Checked.bind_eq_ok.1 h
  obtain ⟨peb₇, hbitmap', h⟩ := Checked.bind_eq_ok.1 h
  obtain ⟨peb₈, htable', h⟩ := Checked.bind_eq_ok.1 h
  cases h
  have hbefore : peb.Keeps .logPayload peb₄ := ((((PebContent.setExtentStartOffset_keeps
    (by decide)).trans (defineSegmentHeaderLayout_keeps (by decide) hheader)).trans
      (layoutBlockBitmap_ok (by decide) hbitmap)).trans (layoutOffsetTable_ok (by decide) htable)).trans
        (layoutBlockDescriptors_ok (by decide) hdescs)
  have hbehind : peb₅.Keeps .logPayload peb' := (((PebContent.setExtentStartOffset_keeps
    (by decide)).trans (defineLogFooterLayout_ok (by decide) hfooter)).trans
      (layoutBlockBitmapBackup_ok (by decide) hbitmap')).trans
        (layoutOffsetTableBackup_ok (by decide) htable')
  obtain ⟨-, hnone, hin, buf, htaken, hbuf, hleft⟩ := layoutPayload_ok (j := .logPayload) hpayload
  rw [hbefore.extent] at hnone
  exact ⟨hnone, hin, buf, htaken, by rw [hbehind.extent, hbuf], hleft⟩

theorem layoutLog_ok (hblank : peb.IsBlank)
    (h : layoutLog crc32 libs layout options segType payload a site src fragments peb =
      .ok (peb', fragments')) : site.segIndex < a.segsCapacity ∧ peb.GetsHeader 0 peb' := by
  obtain ⟨peb₁, hheader, h⟩ := Checked.bind_eq_ok.1 h
  obtain ⟨peb₂, hbitmap, h⟩ := Checked.bind_eq_ok.1 h
  obtain ⟨peb₃, htable, h⟩ := Checked.bind_eq_ok.1 h
  obtain ⟨peb₄, hdescs, h⟩ := Checked.bind_eq_ok.1 h
  obtain ⟨⟨peb₅, fragments₅⟩, hpayload, h⟩ := Checked.bind_eq_ok.1 h
  obtain ⟨peb₆, hfooter, h⟩ := Checked.bind_eq_ok.1 h
  obtain ⟨peb₇, hbitmap', h⟩ := Checked.bind_eq_ok.1 h
  obtain ⟨peb₈, htable', h⟩ := Checked.bind_eq_ok.1 h
  cases h
  obtain ⟨hplace, h₁⟩ := defineSegmentHeaderLayout_ok hheader
  rw [hblank.startOffset] at h₁
  have hstart : peb.GetsHeader 0 peb₁ := ⟨h₁.lebId, h₁.pebId, h₁.header⟩
  have hareas : peb₁.Keeps .segHeader peb₄ := ((layoutBlockBitmap_ok (by decide) hbitmap).trans
    (layoutOffsetTable_ok (by decide) htable)).trans (layoutBlockDescriptors_ok (by decide) hdescs)
  have hend : peb₅.Keeps .segHeader peb' := (((PebContent.setExtentStartOffset_keeps
    (by decide)).trans (defineLogFooterLayout_ok (by decide) hfooter)).trans
      (layoutBlockBitmapBackup_ok (by decide) hbitmap')).trans
        (layoutOffsetTableBackup_ok (by decide) htable')
  exact ⟨hplace, hstart.keep ((hareas.trans ((layoutPayload_ok hpayload).1 (by decide))).trans hend)⟩

theorem layoutMaptblCache_ok {cache : MaptblCache} (hj : .maptblCache ≠ j)
    (h : layoutMaptblCache layout cache peb = .ok peb') : peb.Keeps j peb' := by
  obtain ⟨-, h⟩ := bugOn_bind_eq_ok.1 h
  have hfill : peb.Keeps j ((setExtentStartOffset layout .sb peb .maptblCache).fill .maptblCache
      (cache.buffer layout.pageSize) cache.bytesCount) :=
    (PebContent.setExtentStartOffset_keeps hj).trans (PebContent.fill_keeps hj)
  simp only at h
  split at h
  · cases h
    exact hfill.trans (PebContent.setOffset_keeps hj)
  · cases h
    exact hfill

theorem layoutSbLog_ok {cache : MaptblCache} (hblank : peb.IsBlank)
    (h : layoutSbLog layout a segIndex cache peb = .ok peb') :
    segIndex < a.segsCapacity ∧ peb.GetsHeader 0 peb' := by
  obtain ⟨peb₁, hheader, h⟩ := Checked.bind_eq_ok.1 h
  obtain ⟨peb₂, hcache, h⟩ := Checked.bind_eq_ok.1 h
  obtain ⟨hplace, h₁⟩ := defineSegmentHeaderLayout_ok hheader
  rw [hblank.startOffset] at h₁
  have hstart : peb.GetsHeader 0 peb₁ := ⟨h₁.lebId, h₁.pebId, h₁.header⟩
  exact ⟨hplace, (hstart.keep (layoutMaptblCache_ok (by decide) hcache)).keep
    ((PebContent.setExtentStartOffset_keeps (by decide)).trans (defineLogFooterLayout_ok (by decide) h))⟩

theorem layoutSnapLog_ok (hblank : peb.IsBlank) (h : layoutSnapLog layout a segIndex peb = .ok peb') :
    segIndex < a.segsCapacity ∧ peb.GetsHeader reservedVbrSize peb' := by
  obtain ⟨peb₁, hheader, h⟩ := Checked.bind_eq_ok.1 h
  have hoffset : ((setExtentStartOffset layout .initialSnapshot peb .segHeader).setOffset .segHeader
      (Word.u32 ((setExtentStartOffset layout .initialSnapshot peb .segHeader).start .segHeader +
        reservedVbrSize))).start .segHeader = reservedVbrSize := by
    rw [hblank.startOffset]
    unfold PebContent.setOffset PebContent.start
    simp only [Function.update_self]
    rfl
  obtain ⟨hplace, h₁⟩ := defineSegmentHeaderLayout_ok hheader
  rw [hoffset] at h₁
  have hstart : peb.GetsHeader reservedVbrSize peb₁ := ⟨h₁.lebId, h₁.pebId, h₁.header⟩
  exact ⟨hplace, hstart.keep
    ((PebContent.setExtentStartOffset_keeps (by decide)).trans (defineLogFooterLayout_ok (by decide) h))⟩

end

def SegmentDesc.headerOffset (seg : SegmentDesc) : Nat :=
  if seg.segType = some .initialSnapshot then reservedVbrSize else 0

theorem SegmentDesc.headerOffset_of_ne {seg : SegmentDesc}
    (h : seg.segType ≠ some .initialSnapshot) : seg.headerOffset = 0 := if_neg h

theorem SegmentDesc.headerOffset_lt (seg : SegmentDesc) : seg.headerOffset < 4096 := by
  unfold SegmentDesc.headerOffset
  split <;> decide

namespace SegsArray

def zonesOf (a : SegsArray) (i : Nat) : Nat :=
  if (a.segs i).segType = some .initialSnapshot then 0 else (a.segs i).pebsCount

def zonesTotal (a : SegsArray) : Nat := ((List.range a.segsCapacity).map a.zonesOf).sum

def addPeb (a : SegsArray) (i : Nat) (peb : PebContent) : SegsArray :=
  let seg := a.segs i
  a.setSeg i { seg with
    pebsCount := seg.pebsCount + 1
    pebs := Function.update seg.pebs seg.pebsCount peb }

variable {a : SegsArray} {seg : SegmentDesc} {i j k n : Nat} {peb : PebContent}

@[simp] theorem addPeb_self : (a.addPeb i peb).segs i = { a.segs i with
    pebsCount := (a.segs i).pebsCount + 1
    pebs := Function.update (a.segs i).pebs (a.segs i).pebsCount peb } :=
  Function.update_self ..

theorem addPeb_of_ne (hk : k ≠ i) : (a.addPeb i peb).segs k = a.segs k := Function.update_of_ne hk ..

@[simp] theorem setSeg_setPeb : (a.setSeg i seg).setPeb i j peb =
    a.setSeg i { seg with pebs := Function.update seg.pebs j peb } := by
  unfold setPeb setSeg
  simp only [Function.update_self, Function.update_idem]

theorem setPeb_eq_addPeb (hj : (a.segs i).pebsCount = j) (hn : n = j + 1) :
    (a.setSeg i { a.segs i with pebsCount := n }).setPeb i j peb = a.addPeb i peb := by
  subst hj hn
  exact setSeg_setPeb

end SegsArray

theorem sum_map_range_of_succ {f f' : Nat → Nat} {n i : Nat} (hi : i < n) (hone : f' i = f i + 1)
    (hsame : ∀ j, j ≠ i → f' j = f j) :
    ((List.range n).map f').sum = ((List.range n).map f).sum + 1 := by
  induction n with
  | zero => exact absurd hi (Nat.not_lt_zero i)
  | succ n ih =>
    rw [List.range_succ, List.map_append, List.map_append, List.sum_append, List.sum_append]
    simp only [List.map_cons, List.map_nil, List.sum_cons, List.sum_nil, Nat.add_zero]
    rcases Nat.lt_succ_iff_lt_or_eq.1 hi with hlt | rfl
    · rw [ih hlt, hsame n (by omega), Nat.add_right_comm]
    · have hrest : (List.range i).map f' = (List.range i).map f :=
        List.map_congr_left fun j hj => hsame j (Nat.ne_of_lt (List.mem_range.1 hj))
      rw [hrest, hone, Nat.add_assoc]

structure Laying (a₀ a : SegsArray) (openZones : UInt32) : Prop where
  array : a = { a₀ with segs := a.segs }
  segs : ∀ i, (a.segs i).segType = (a₀.segs i).segType ∧ (a.segs i).segId = (a₀.segs i).segId ∧
    (a.segs i).pebsCapacity = (a₀.segs i).pebsCapacity
  pebs : ∀ i j, ((a.segs i).pebs j).lebId = ((a₀.segs i).pebs j).lebId ∧
    ((a.segs i).pebs j).pebId = ((a₀.segs i).pebs j).pebId
  blank : ∀ i j, (a.segs i).pebsCount ≤ j → ((a.segs i).pebs j).IsBlank
  headed : ∀ i j, j < (a.segs i).pebsCount →
    ((a.segs i).pebs j).extents .segHeader = PebContent.blankHeader (a.segs i).headerOffset
  counted : openZones.toNat = Word.u32 a.zonesTotal

section

variable {a₀ a : SegsArray} {openZones : UInt32} {i : Nat} {peb : PebContent}

theorem toNat_add_one {z : UInt32} {n : Nat} (h : z.toNat = Word.u32 n) :
    (z + 1).toNat = Word.u32 (n + 1) := by
  rw [UInt32.toNat_add, h]
  unfold Word.u32
  change (n % 4294967296 + 1) % 4294967296 = _
  omega

/-- The zone of the PEB is counted unless it is closed again. -/
theorem Laying.addPeb (h : Laying a₀ a openZones) (hi : i < a.segsCapacity)
    (hpeb : ((a.segs i).pebs (a.segs i).pebsCount).GetsHeader (a.segs i).headerOffset peb) :
    Laying a₀ (a.addPeb i peb)
      (if (a.segs i).segType = some .initialSnapshot then openZones else openZones + 1) := by
  refine ⟨?_, fun k => ?_, fun k j => ?_, fun k j hj => ?_, fun k j hj => ?_, ?_⟩
  · rw [h.array]
    rfl
  · by_cases hk : k = i
    · subst hk
      rw [SegsArray.addPeb_self]
      exact h.segs k
    · rw [SegsArray.addPeb_of_ne hk]
      exact h.segs k
  · by_cases hk : k = i
    · subst hk
      rw [SegsArray.addPeb_self]
      simp only [Function.update_apply]
      split
      case isTrue hj =>
        subst hj
        rw [hpeb.lebId, hpeb.pebId]
        exact h.pebs k _
      case isFalse => exact h.pebs k j
    · rw [SegsArray.addPeb_of_ne hk]
      exact h.pebs k j
  · by_cases hk : k = i
    · subst hk
      rw [SegsArray.addPeb_self] at hj ⊢
      simp only at hj ⊢
      rw [Function.update_of_ne (by omega)]
      exact h.blank k j (by omega)
    · rw [SegsArray.addPeb_of_ne hk] at hj ⊢
      exact h.blank k j hj
  · by_cases hk : k = i
    · subst hk
      rw [SegsArray.addPeb_self] at hj ⊢
      simp only [Function.update_apply] at hj ⊢
      split
      case isTrue => exact hpeb.header
      case isFalse => exact h.headed k j (by omega)
    · rw [SegsArray.addPeb_of_ne hk] at hj ⊢
      exact h.headed k j hj
  · have hothers : ∀ k, k ≠ i → (a.addPeb i peb).zonesOf k = a.zonesOf k := fun k hk => by
      unfold SegsArray.zonesOf
      rw [SegsArray.addPeb_of_ne hk]
    split
    case isTrue hsnap =>
      have hsame : (a.addPeb i peb).zonesOf = a.zonesOf := by
        funext k
        by_cases hk : k = i
        · subst hk
          unfold SegsArray.zonesOf
          rw [SegsArray.addPeb_self]
          simp only [hsnap, if_true]
        · exact hothers k hk
      rw [h.counted]
      unfold SegsArray.zonesTotal
      rw [hsame]
      rfl
    case isFalse hzone =>
      have hone : (a.addPeb i peb).zonesOf i = a.zonesOf i + 1 := by
        unfold SegsArray.zonesOf
        rw [SegsArray.addPeb_self]
        simp only [if_neg hzone]
      rw [toNat_add_one h.counted]
      unfold SegsArray.zonesTotal
      exact congrArg Word.u32 (sum_map_range_of_succ hi hone hothers).symm

end

end Ssdfs
