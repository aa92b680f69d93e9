import Ssdfs.Mkfs.LayoutRun

namespace Ssdfs

inductive Refilled (peb : PebContent) : PebContent → Prop
  | refl : Refilled peb peb
  | setBuf {peb' : PebContent} {k : ExtentIndex} {buf : Memory.Bytes} :
      Refilled peb peb' → Refilled peb (peb'.setBuf k buf)

namespace Refilled

variable {peb peb' peb'' : PebContent}

theorem trans (h : Refilled peb peb') (h' : Refilled peb' peb'') : Refilled peb peb'' := by
  induction h' with
  | refl => exact h
  | setBuf _ ih => exact .setBuf ih

theorem ids (h : Refilled peb peb') : peb'.lebId = peb.lebId ∧ peb'.pebId = peb.pebId := by
  induction h with
  | refl => exact ⟨rfl, rfl⟩
  | setBuf _ ih => exact ih

theorem start_eq (h : Refilled peb peb') (k : ExtentIndex) : peb'.start k = peb.start k := by
  induction h with
  | refl => rfl
  | @setBuf peb' j buf _ ih =>
    rw [← ih]
    unfold PebContent.start PebContent.setBuf
    by_cases hk : k = j
    · subst hk
      simp only [Function.update_self]
    · simp only [Function.update_of_ne hk]

theorem isSome (h : Refilled peb peb') {k : ExtentIndex} (hsome : (peb.extents k).buf.isSome = true) :
    (peb'.extents k).buf.isSome = true := by
  induction h with
  | refl => exact hsome
  | @setBuf peb' j buf _ ih =>
    unfold PebContent.setBuf
    by_cases hk : k = j
    · subst hk
      simp only [Function.update_self]
      rfl
    · simp only [Function.update_of_ne hk]
      exact ih

theorem size_eq (h : Refilled peb peb') (k : ExtentIndex) : peb'.size k = peb.size k := by
  induction h with
  | refl => rfl
  | @setBuf peb' j buf _ ih =>
    rw [← ih]
    unfold PebContent.size PebContent.setBuf
    by_cases hk : k = j
    · subst hk
      simp only [Function.update_self]
    · simp only [Function.update_of_ne hk]

theorem headed {offset : Nat} (h : Refilled peb peb') (hpeb : peb.Headed offset) : peb'.Headed offset :=
  ⟨h.isSome hpeb.header, by rw [h.start_eq]; exact hpeb.start, by rw [h.size_eq]; exact hpeb.size⟩

end Refilled

section

variable {crc32 : UInt32 → List UInt8 → UInt32} {layout : VolumeLayout} {src : CommitSource}
  {segType : SegType} {a : SegsArray} {seg : SegmentDesc} {segIndex pebIndex blks : Nat}
  {peb peb' : PebContent} {k : ExtentIndex} {logs : MetaLogs}

theorem preCommitSegmentHeader_refilled
    (h : preCommitSegmentHeader src segType a segIndex pebIndex peb = .ok peb') :
    Refilled peb peb' := by
  obtain ⟨-, h⟩ := failIf_bind_eq_ok.1 h
  obtain ⟨-, h⟩ := failIf_bind_eq_ok.1 h
  obtain ⟨buf, -, h⟩ := Checked.bind_eq_ok.1 h
  cases h
  exact .setBuf .refl

theorem commitLogFooter_refilled (h : commitLogFooter crc32 layout src seg blks peb = .ok peb') :
    Refilled peb peb' := by
  have hfull : ∀ {segType}, commitFullLogFooter crc32 layout src segType blks peb = .ok peb' →
      Refilled peb peb' := fun h => by
    obtain ⟨⟨buf, rfl⟩, -⟩ := commitFullLogFooter_ok h
    exact .setBuf .refl
  have hpart : commitPartialLogHeader crc32 layout src seg blks peb = .ok peb' →
      Refilled peb peb' := fun h => by
    obtain ⟨⟨buf, rfl⟩, -⟩ := commitPartialLogHeader_ok h
    exact .setBuf .refl
  obtain ⟨-, h⟩ := bugOn_bind_eq_ok.1 h
  split at h
  · exact hfull h
  · exact hfull h
  · split at h
    · exact hpart h
    · exact hfull h
  · split at h
    · exact hpart h
    · exact hfull h
  · cases h
    exact .refl

theorem commitSegmentHeader_refilled {metaIndex : Option MetaIndex}
    (h : commitSegmentHeader crc32 layout src metaIndex blks peb = .ok peb') : Refilled peb peb' := by
  obtain ⟨hdr, rfl, -⟩ := commitSegmentHeader_described h
  exact .setBuf .refl

theorem commitHeaderLog_refilled
    (h : commitHeaderLog crc32 layout src segType a segIndex peb = .ok peb') : Refilled peb peb' := by
  obtain ⟨peb₁, hheader, h⟩ := Checked.bind_eq_ok.1 h
  obtain ⟨_, -, h⟩ := Checked.bind_eq_ok.1 h
  obtain ⟨blks, -, h⟩ := Checked.bind_eq_ok.1 h
  obtain ⟨peb₂, hfooter, h⟩ := Checked.bind_eq_ok.1 h
  exact ((preCommitSegmentHeader_refilled hheader).trans (commitLogFooter_refilled hfooter)).trans
    (commitSegmentHeader_refilled h)

theorem defineMigrationThreshold_refilled {threshold : UInt16}
    (h : defineMigrationThreshold threshold peb = .ok peb') : Refilled peb peb' := by
  obtain ⟨buf, -, h⟩ := Checked.bind_eq_ok.1 h
  cases h
  exact .setBuf .refl

theorem commitBlockBitmap_refilled (h : commitBlockBitmap layout k blks peb = .ok peb') :
    Refilled peb peb' := by
  obtain ⟨buf, -, h⟩ := Checked.bind_eq_ok.1 h
  obtain ⟨-, h⟩ := bugOn_bind_eq_ok.1 h
  cases h
  exact .setBuf .refl

theorem commitOffsetTable_refilled (h : commitOffsetTable crc32 k peb = .ok peb') :
    Refilled peb peb' := by
  obtain ⟨buf, -, h⟩ := Checked.bind_eq_ok.1 h
  cases h
  exact .setBuf .refl

theorem commitBlockBitmapBackup_refilled (h : commitBlockBitmapBackup layout src blks peb = .ok peb') :
    Refilled peb peb' := by
  unfold commitBlockBitmapBackup at h
  split at h
  · exact commitBlockBitmap_refilled h
  · cases h
    exact .refl

theorem commitOffsetTableBackup_refilled (h : commitOffsetTableBackup crc32 src peb = .ok peb') :
    Refilled peb peb' := by
  unfold commitOffsetTableBackup at h
  split at h
  · exact commitOffsetTable_refilled h
  · cases h
    exact .refl

theorem commitPeb_refilled (h : commitPeb crc32 layout src logs a segIndex pebIndex peb = .ok peb') :
    Refilled peb peb' := by
  obtain ⟨peb₆, hareas, h⟩ := Checked.bind_eq_ok.1 h
  obtain ⟨blks, -, h⟩ := Checked.bind_eq_ok.1 h
  obtain ⟨peb₇, hfooter, h⟩ := Checked.bind_eq_ok.1 h
  obtain ⟨peb₁, hheader, hareas⟩ := Checked.bind_eq_ok.1 hareas
  obtain ⟨_, -, hareas⟩ := Checked.bind_eq_ok.1 hareas
  obtain ⟨payload, -, hareas⟩ := Checked.bind_eq_ok.1 hareas
  obtain ⟨_, -, hareas⟩ := Checked.bind_eq_ok.1 hareas
  obtain ⟨peb₂, hthreshold, hareas⟩ := Checked.bind_eq_ok.1 hareas
  obtain ⟨metadataBlks, -, hareas⟩ := Checked.bind_eq_ok.1 hareas
  obtain ⟨peb₃, hbitmap, hareas⟩ := Checked.bind_eq_ok.1 hareas
  obtain ⟨peb₄, htable, hareas⟩ := Checked.bind_eq_ok.1 hareas
  obtain ⟨peb₅, hbackup, hareas⟩ := Checked.bind_eq_ok.1 hareas
  have hpayload : Refilled peb₁ (peb₁.setBuf .logPayload payload) := .setBuf .refl
  have hstart : Refilled peb peb₂ := ((preCommitSegmentHeader_refilled hheader).trans hpayload).trans
    (defineMigrationThreshold_refilled hthreshold)
  have htables : Refilled peb₂ peb₆ := (((commitBlockBitmap_refilled hbitmap).trans
    (commitOffsetTable_refilled htable)).trans (commitBlockBitmapBackup_refilled hbackup)).trans
      (commitOffsetTableBackup_refilled hareas)
  exact ((hstart.trans htables).trans (commitLogFooter_refilled hfooter)).trans
    (commitSegmentHeader_refilled h)

end

structure SegsArray.Refills (a a' : SegsArray) : Prop where
  metaArray : a'.metaArray = a.metaArray
  capacity : a'.segsCapacity = a.segsCapacity
  segs : ∀ i, (a'.segs i).segType = (a.segs i).segType ∧ (a'.segs i).segId = (a.segs i).segId ∧
    (a'.segs i).pebsCount = (a.segs i).pebsCount
  pebs : ∀ i j, Refilled ((a.segs i).pebs j) ((a'.segs i).pebs j)

namespace SegsArray.Refills

variable {a a' a'' : SegsArray}

theorem refl : Refills a a := ⟨rfl, rfl, fun _ => ⟨rfl, rfl, rfl⟩, fun _ _ => .refl⟩

theorem trans (h : Refills a a') (h' : Refills a' a'') : Refills a a'' where
  metaArray := h'.metaArray.trans h.metaArray
  capacity := h'.capacity.trans h.capacity
  segs i := by
    obtain ⟨htype, hid, hcount⟩ := h.segs i
    obtain ⟨htype', hid', hcount'⟩ := h'.segs i
    exact ⟨htype'.trans htype, hid'.trans hid, hcount'.trans hcount⟩
  pebs i j := (h.pebs i j).trans (h'.pebs i j)

theorem setPeb {i j : Nat} {peb : PebContent} (h : Refilled ((a.segs i).pebs j) peb) :
    Refills a (a.setPeb i j peb) := by
  refine ⟨rfl, rfl, fun k => ?_, fun k l => ?_⟩
  · unfold SegsArray.setPeb SegsArray.setSeg
    simp only [Function.update_apply]
    split
    case isTrue hk => subst hk; exact ⟨rfl, rfl, rfl⟩
    case isFalse => exact ⟨rfl, rfl, rfl⟩
  · unfold SegsArray.setPeb SegsArray.setSeg
    simp only [Function.update_apply]
    split
    case isTrue hk =>
      subst hk
      simp only [Function.update_apply]
      split
      case isTrue hl => subst hl; exact h
      case isFalse => exact .refl
    case isFalse => exact .refl

theorem setCount {n : Nat} : Refills a { a with segsCount := n } :=
  ⟨rfl, rfl, fun _ => ⟨rfl, rfl, rfl⟩, fun _ _ => .refl⟩

theorem zonesTotal_eq (h : Refills a a') : a'.zonesTotal = a.zonesTotal := by
  unfold zonesTotal
  rw [h.capacity]
  congr 1
  refine List.map_congr_left fun i _ => ?_
  obtain ⟨htype, -, hcount⟩ := h.segs i
  unfold zonesOf
  rw [htype, hcount]

end SegsArray.Refills

section

variable {crc32 : UInt32 → List UInt8 → UInt32} {layout : VolumeLayout} {src : CommitSource}
  {options : LogOptions} {a a' : SegsArray} {logs : MetaLogs} {segIndex pebIndex : Nat}
  {c c' : Creation} {g : SegbmapGeometry}

theorem commitPebs_refills {rest fragmentIndex fragmentIndex' : Nat}
    (h : commitPebs crc32 layout src logs segIndex rest pebIndex (a, fragmentIndex) =
      .ok (a', fragmentIndex')) : a.Refills a' ∧ a'.segsCount = a.segsCount := by
  induction rest generalizing pebIndex a fragmentIndex with
  | zero =>
    cases h
    exact ⟨.refl, rfl⟩
  | succ rest ih =>
    unfold commitPebs at h
    split at h
    · cases h
      exact ⟨.refl, rfl⟩
    · obtain ⟨-, h⟩ := bugOn_bind_eq_ok.1 h
      obtain ⟨payload, -, h⟩ := Checked.bind_eq_ok.1 h
      split at h
      · cases h
        exact ⟨.refl, rfl⟩
      · obtain ⟨peb, hpeb, h⟩ := Checked.bind_eq_ok.1 h
        obtain ⟨hrest, hcount⟩ := ih h
        exact ⟨(SegsArray.Refills.setPeb (commitPeb_refilled hpeb)).trans hrest, hcount⟩

theorem metaMkfsCommit_refills (h : metaMkfsCommit crc32 layout src logs a = .ok a') :
    a.Refills a' ∧ a'.segsCount = a.segsCount + (a.metaArray logs.metaIndex).segsCount := by
  obtain ⟨-, h⟩ := failIf_bind_eq_ok.1 h
  obtain ⟨-, h⟩ := failIf_bind_eq_ok.1 h
  obtain ⟨⟨b, fragmentIndex⟩, hloop, h⟩ := Checked.bind_eq_ok.1 h
  cases h
  obtain ⟨hrefills, hcount⟩ := Checked.forRange_ind (fun _ (st : SegsArray × Nat) =>
    a.Refills st.1 ∧ st.1.segsCount = a.segsCount) hloop ⟨.refl, rfl⟩
    fun i _ t t' ht hstep => by
      obtain ⟨hrefills, hcount⟩ := commitPebs_refills hstep
      exact ⟨ht.1.trans hrefills, hcount.trans ht.2⟩
  exact ⟨hrefills.trans .setCount, congrArg (· + (a.metaArray logs.metaIndex).segsCount) hcount⟩

theorem commitFirstPeb_refills {segType : SegType}
    (h : commitFirstPeb crc32 layout segType segIndex c = .ok c') :
    c.a.Refills c'.a ∧ c'.a.segsCount = c.a.segsCount ∧ c'.src = c.src := by
  obtain ⟨peb, hpeb, h⟩ := Checked.bind_eq_ok.1 h
  cases h
  exact ⟨.setPeb (commitHeaderLog_refilled hpeb), rfl, rfl⟩

theorem snapMkfsCommit_refills (h : c.snapMkfsCommit crc32 layout = .ok c') : c.a.Refills c'.a ∧
    c'.a.segsCount = c.a.segsCount + (c.a.metaArray .initialSnapshot).segsCount ∧ c'.src = c.src := by
  obtain ⟨-, h⟩ := failIf_bind_eq_ok.1 h
  obtain ⟨-, h⟩ := failIf_bind_eq_ok.1 h
  obtain ⟨c₁, hpeb, h⟩ := Checked.bind_eq_ok.1 h
  cases h
  obtain ⟨hrefills, hcount, hsrc⟩ := commitFirstPeb_refills hpeb
  exact ⟨hrefills.trans .setCount,
    congrArg (· + (c.a.metaArray .initialSnapshot).segsCount) hcount, hsrc⟩

theorem sbMkfsCommit_refills (h : c.sbMkfsCommit crc32 layout = .ok c') : c.a.Refills c'.a ∧
    c'.a.segsCount = c.a.segsCount + (c.a.metaArray .superblock).segsCount ∧ c'.src = c.src := by
  obtain ⟨-, h⟩ := failIf_bind_eq_ok.1 h
  obtain ⟨-, h⟩ := failIf_bind_eq_ok.1 h
  obtain ⟨c₁, hloop, h⟩ := Checked.bind_eq_ok.1 h
  cases h
  obtain ⟨hrefills, hcount, hsrc⟩ := Checked.forRange_ind (fun _ (t : Creation) =>
    c.a.Refills t.a ∧ t.a.segsCount = c.a.segsCount ∧ t.src = c.src) hloop ⟨.refl, rfl, rfl⟩
    fun i _ t t' ht hpair => Checked.forRange_ind (fun _ (t : Creation) =>
      c.a.Refills t.a ∧ t.a.segsCount = c.a.segsCount ∧ t.src = c.src) hpair ht
      fun j _ u u' hu hseg => by
        unfold commitSbSeg at hseg
        split at hseg
        · cases hseg
          exact hu
        · obtain ⟨hrefills, hcount, hsrc⟩ := commitFirstPeb_refills hseg
          exact ⟨hu.1.trans hrefills, hcount.trans hu.2.1, hsrc.trans hu.2.2⟩
  exact ⟨hrefills.trans .setCount, congrArg (· + (c.a.metaArray .superblock).segsCount) hcount, hsrc⟩

theorem mkfsCommit_refills (h : c.mkfsCommit crc32 layout options g = .ok c') : c.a.Refills c'.a ∧
    c'.src = c.src ∧ c'.a.segsCount = c.a.segsCount + (c.a.metaArray .initialSnapshot).segsCount +
      (c.a.metaArray .superblock).segsCount + (c.a.metaArray .segbmap).segsCount +
        (c.a.metaArray .pebMappingTable).segsCount := by
  obtain ⟨c₁, hsnap, h⟩ := Checked.bind_eq_ok.1 h
  obtain ⟨c₂, hsb, h⟩ := Checked.bind_eq_ok.1 h
  obtain ⟨a₃, hsegbmap, h⟩ := Checked.bind_eq_ok.1 h
  obtain ⟨a₄, hmaptbl, h⟩ := Checked.bind_eq_ok.1 h
  cases h
  obtain ⟨h₁, hcount₁, hsrc₁⟩ := snapMkfsCommit_refills hsnap
  obtain ⟨h₂, hcount₂, hsrc₂⟩ := sbMkfsCommit_refills hsb
  obtain ⟨h₃, hcount₃⟩ := metaMkfsCommit_refills hsegbmap
  obtain ⟨-, -, hmaptbl⟩ := Checked.bind_eq_ok.1 hmaptbl
  obtain ⟨h₄, hcount₄⟩ := metaMkfsCommit_refills hmaptbl
  have hto₂ := h₁.trans h₂
  have hto₃ := hto₂.trans h₃
  refine ⟨hto₃.trans h₄, hsrc₂.trans hsrc₁, ?_⟩
  rw [h₁.metaArray] at hcount₂
  rw [hto₂.metaArray] at hcount₃
  rw [hto₃.metaArray] at hcount₄
  rw [hcount₄, hcount₃, hcount₂, hcount₁]
  rfl

end

end Ssdfs
