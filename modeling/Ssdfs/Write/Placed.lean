import Mathlib.Data.List.Chain
import Mathlib.Data.List.Pairwise
import Ssdfs.Lib.Shares
import Ssdfs.Log.Pages

namespace Ssdfs

theorem validateKeyCreationOptions_dvd {layout : VolumeLayout} {u : Unit}
    (h : validateKeyCreationOptions layout = .ok u) :
    layout.pageSize.bytes ∣ layout.env.eraseSize.toNat := by
  unfold validateKeyCreationOptions at h
  obtain ⟨-, h⟩ := failIf_bind_eq_ok.1 h
  obtain ⟨hmod, -⟩ := failIf_bind_eq_ok.1 h
  exact Nat.dvd_of_mod_eq_zero (Classical.not_not.1 hmod)

namespace PebContent

variable (peb : PebContent)

def start (k : ExtentIndex) : Nat := (peb.extents k).offset.toNat

def finish (k : ExtentIndex) : Nat :=
  (peb.extents k).offset.toNat + (peb.extents k).bytesCount.toNat

def itemsOf (ks : List ExtentIndex) : List ExtentIndex :=
  ks.filter fun k => (peb.extents k).buf.isSome

def items : List ExtentIndex := peb.itemsOf ExtentIndex.all

def extentRange (layout : VolumeLayout) (k : ExtentIndex) : Set Nat :=
  Set.Ico (peb.pebId * layout.env.eraseSize.toNat + peb.start k)
    (peb.pebId * layout.env.eraseSize.toNat + peb.finish k)

def blks (layout : VolumeLayout) : Set Nat :=
  {b | ∃ k ∈ peb.items, ∃ y, peb.start k ≤ y ∧ y < peb.finish k ∧
    peb.pebId * layout.env.eraseSize.toNat / layout.pageSize.bytes + y / layout.pageSize.bytes = b}

variable {peb} {k : ExtentIndex}

@[simp] theorem mem_itemsOf {ks : List ExtentIndex} :
    k ∈ peb.itemsOf ks ↔ k ∈ ks ∧ (peb.extents k).buf.isSome := by
  unfold itemsOf
  rw [List.mem_filter]

@[simp] theorem mem_items : k ∈ peb.items ↔ (peb.extents k).buf.isSome := by
  unfold items
  rw [mem_itemsOf]
  exact ⟨And.right, fun h => ⟨k.mem_all, h⟩⟩

end PebContent

structure PebContent.Fits (peb : PebContent) (layout : VolumeLayout) (k : ExtentIndex) :
    Prop where
  size_pos : peb.start k < peb.finish k
  erase : peb.finish k ≤ layout.env.eraseSize.toNat
  volume : peb.pebId * layout.env.eraseSize.toNat + peb.finish k ≤ layout.env.fsSize.toNat

structure PebContent.Packed (peb : PebContent) (layout : VolumeLayout)
    (items : List ExtentIndex) : Prop where
  fits : ∀ k ∈ items, peb.Fits layout k
  ordered : items.Pairwise fun k k' => peb.finish k ≤ peb.start k'
  near : items.IsChain fun k k' => peb.start k' < peb.finish k + layout.pageSize.bytes

inductive PebContent.Payload (peb : PebContent) (items : List ExtentIndex) : Nat × Nat → Prop
  | none : items = [] → Payload peb items (Word.u32Max, Word.u32Max)
  | some {k : ExtentIndex} {startOffset payloadSize : Nat} : items.getLast? = some k →
      startOffset + payloadSize = peb.finish k →
      (∀ i ∈ items, startOffset ≤ peb.start i ∧ peb.finish i ≤ startOffset + payloadSize) →
      Payload peb items (startOffset, payloadSize)

section Extent

variable {layout : VolumeLayout} {peb : PebContent} {k : ExtentIndex} {st st' : Nat × Nat}

theorem checkExtentBeforeWrite_ok {u : Unit} (hbuf : (peb.extents k).buf.isSome)
    (h : checkExtentBeforeWrite layout peb.pebId (peb.extents k) = .ok u) : peb.Fits layout k := by
  have hfs := layout.env.fsSize.toNat_lt
  have hoff := (peb.extents k).offset.toNat_lt
  have hsize := (peb.extents k).bytesCount.toNat_lt
  unfold checkExtentBeforeWrite at h
  rw [if_neg (by simpa using Option.isSome_iff_ne_none.1 hbuf)] at h
  obtain ⟨hzero, h⟩ := quot_bind_eq_ok.1 h
  obtain ⟨hpeb, h⟩ := bugOn_bind_eq_ok.1 h
  have hmul : (peb.pebId + 1) * layout.env.eraseSize.toNat ≤ Word.u64Max :=
    (Nat.le_div_iff_mul_le (Nat.pos_of_ne_zero hzero)).1 (by omega)
  rw [Nat.add_mul, Nat.one_mul] at hmul
  have hmax : Word.u64Max = 18446744073709551615 := rfl
  rw [Word.u64_of_lt (n := peb.pebId * layout.env.eraseSize.toNat) (by omega)] at h
  obtain ⟨-, h⟩ := failIf_bind_eq_ok.1 h
  obtain ⟨hbug, h⟩ := bugOn_bind_eq_ok.1 h
  have hstart : peb.pebId * layout.env.eraseSize.toNat + (peb.extents k).offset.toNat <
      18446744073709551616 := by omega
  rw [Word.u64_of_lt hstart] at h
  obtain ⟨-, h⟩ := failIf_bind_eq_ok.1 h
  obtain ⟨hpos, h⟩ := bugOn_bind_eq_ok.1 h
  obtain ⟨hbug', h⟩ := bugOn_bind_eq_ok.1 h
  rw [Word.u64_of_lt (n := _ + (peb.extents k).bytesCount.toNat) (by omega)] at h
  obtain ⟨hvol, h⟩ := failIf_bind_eq_ok.1 h
  rw [Word.u64_of_lt (by omega)] at h
  unfold failIf at h
  split at h
  case isTrue => cases h
  case isFalse herase =>
    have hs : peb.start k = (peb.extents k).offset.toNat := rfl
    have hf : peb.finish k = (peb.extents k).offset.toNat + (peb.extents k).bytesCount.toNat := rfl
    exact ⟨by omega, by omega, by omega⟩

theorem checkNextExtent_ok {done : List ExtentIndex} (hpacked : peb.Packed layout (peb.itemsOf done))
    (hst : peb.Payload (peb.itemsOf done) st) (h : checkNextExtent layout peb k st = .ok st') :
    peb.Packed layout (peb.itemsOf (done ++ [k])) ∧ peb.Payload (peb.itemsOf (done ++ [k])) st' := by
  have herase := layout.env.eraseSize.toNat_lt
  unfold checkNextExtent at h
  simp only at h
  split at h
  case isTrue hbuf =>
    cases h
    have hitems : peb.itemsOf (done ++ [k]) = peb.itemsOf done := by
      unfold PebContent.itemsOf
      rw [List.filter_append]
      simp [hbuf]
    rw [hitems]
    exact ⟨hpacked, hst⟩
  case isFalse hbuf =>
    have hsome : (peb.extents k).buf.isSome :=
      Option.isSome_iff_ne_none.2 (by simpa using hbuf)
    have hitems : peb.itemsOf (done ++ [k]) = peb.itemsOf done ++ [k] := by
      unfold PebContent.itemsOf
      rw [List.filter_append]
      simp [hsome]
    rw [hitems]
    obtain ⟨u, hfit, h⟩ := Checked.bind_eq_ok.1 h
    have hfit := checkExtentBeforeWrite_ok hsome hfit
    have hfits : ∀ i ∈ peb.itemsOf done ++ [k], peb.Fits layout i := by
      intro i hi
      rcases List.mem_append.1 hi with hi | hi
      · exact hpacked.fits i hi
      · rwa [List.mem_singleton.1 hi]
    have hfin : peb.start k + (peb.extents k).bytesCount.toNat = peb.finish k := rfl
    obtain ⟨hsize, hend, -⟩ := hfit
    cases hst with
    | none hnil =>
      rw [if_pos ⟨rfl, rfl⟩] at h
      cases h
      rw [hnil, List.nil_append] at hfits ⊢
      refine ⟨⟨hfits, List.pairwise_singleton _ _, List.isChain_singleton _⟩, .some rfl hfin ?_⟩
      intro i hi
      rw [List.mem_singleton.1 hi]
      exact ⟨Nat.le_refl _, Nat.le_of_eq hfin.symm⟩
    | @some last startOffset payloadSize hlast hsum hall =>
      have hmax : Word.u32Max = 4294967295 := rfl
      obtain ⟨-, hlast', -⟩ := hpacked.fits last (List.mem_of_getLast? hlast)
      rw [if_neg (by simp only; omega)] at h
      simp only at h
      rw [Word.u32_of_lt (n := startOffset + payloadSize) (by omega)] at h
      obtain ⟨hle, h⟩ := failIf_bind_eq_ok.1 h
      obtain ⟨hgap, h⟩ := failIf_bind_eq_ok.1 h
      have hle : startOffset + payloadSize ≤ peb.start k := Nat.not_lt.1 hle
      have hgap : peb.start k - (startOffset + payloadSize) < layout.pageSize.bytes :=
        Nat.not_le.1 hgap
      have hpayload : (if startOffset + payloadSize ≠ (peb.extents k).offset.toNat then
          Word.u32 (payloadSize + ((peb.extents k).offset.toNat - (startOffset + payloadSize)))
          else payloadSize) = peb.start k - startOffset := by
        change (if _ ≠ peb.start k then Word.u32 (_ + (peb.start k - _)) else _) = _
        split
        · rw [Word.u32_of_lt (by omega)]
          omega
        · omega
      rw [hpayload, Word.u32_of_lt (by omega)] at h
      cases h
      refine ⟨⟨hfits, ?_, ?_⟩, .some List.getLast?_concat (by omega) ?_⟩
      · refine List.pairwise_append.2 ⟨hpacked.ordered, List.pairwise_singleton _ _, ?_⟩
        intro i hi i' hi'
        have := (hall i hi).2
        rw [List.mem_singleton.1 hi']
        omega
      · refine List.isChain_append.2 ⟨hpacked.near, List.isChain_singleton _, ?_⟩
        intro i hi i' hi'
        cases hlast.symm.trans hi
        cases hi'
        omega
      · intro i hi
        rcases List.mem_append.1 hi with hi | hi
        · have := hall i hi
          omega
        · rw [List.mem_singleton.1 hi]
          omega

theorem checkNextExtents_ok
    (h : Checked.forEach (checkNextExtent layout peb) ExtentIndex.all
      (Word.u32Max, Word.u32Max) = .ok st) :
    peb.Packed layout peb.items ∧ peb.Payload peb.items st := by
  refine @Checked.forEach_ind _ _ _ _ (fun done st =>
    peb.Packed layout (peb.itemsOf done) ∧ peb.Payload (peb.itemsOf done) st) [] _ _ _ h ?_ ?_
  · exact ⟨⟨fun k hk => absurd hk List.not_mem_nil, List.Pairwise.nil, List.isChain_nil⟩,
      .none rfl⟩
  · rintro done k t t' ⟨hpacked, hst⟩ hstep
    exact checkNextExtent_ok hpacked hst hstep

end Extent

section Bitmap

variable {layout : VolumeLayout} {peb : PebContent} {bmap bmap' : BlkBmap} {blks : Nat}

theorem useBlks_ok {startBlk : Nat} (hlt : startBlk + blks < 18446744073709551616)
    (h : Checked.forRange blks (fun i => useBlk (Word.u64 (startBlk + i))) bmap = .ok bmap') :
    (∀ b, startBlk ≤ b → b < startBlk + blks → bmap b = false) ∧
      ∀ b, bmap' b = true ↔ bmap b = true ∨ startBlk ≤ b ∧ b < startBlk + blks := by
  refine Checked.forRange_ind (fun n t => (∀ b, startBlk ≤ b → b < startBlk + n → bmap b = false) ∧
    ∀ b, t b = true ↔ bmap b = true ∨ startBlk ≤ b ∧ b < startBlk + n) h ?_ ?_
  · exact ⟨fun b h1 h2 => by omega, fun b => by simp⟩
  · rintro i hi t t' ⟨hfree, hused⟩ hstep
    unfold useBlk at hstep
    obtain ⟨hclear, hstep⟩ := failIf_bind_eq_ok.1 hstep
    cases hstep
    rw [Word.u64_of_lt (by omega)] at hclear ⊢
    rw [hused] at hclear
    constructor
    · intro b hlo hhi
      rcases Nat.lt_or_ge b (startBlk + i) with hb | hb
      · exact hfree b hlo hb
      · obtain rfl : b = startBlk + i := by omega
        simpa using fun hb => hclear (.inl hb)
    · intro b
      by_cases hb : b = startBlk + i
      · subst hb
        simp
      · rw [Function.update_of_ne hb, hused]
        refine or_congr_right ?_
        omega

theorem erase_add_page_le (hdvd : layout.pageSize.bytes ∣ layout.env.eraseSize.toNat) :
    layout.env.eraseSize.toNat + layout.pageSize.bytes ≤ 4294967296 := by
  have herase := layout.env.eraseSize.toNat_lt
  generalize layout.pageSize = page at *
  cases page <;> · simp only [PageSize.bytes] at *; omega

theorem page_of_span {page s e y : Nat} (hp : 0 < page) (hs : s ≤ y) (hy : y < e) :
    s / page ≤ y / page ∧ y / page < s / page + (e - s / page * page + page - 1) / page := by
  have hle := Nat.div_le_div_right (c := page) hs
  have hy' := Nat.div_mul_le_self y page
  have hs' := Nat.div_mul_le_self s page
  have hcount : y / page - s / page + 1 ≤ (e - s / page * page + page - 1) / page := by
    rw [Nat.le_div_iff_mul_le hp, Nat.add_mul, Nat.sub_mul, Nat.one_mul]
    omega
  omega

theorem checkPebBeforeWrite_ok
    (hlimit : layout.env.eraseSize.toNat + layout.pageSize.bytes ≤ 4294967296)
    (h : checkPebBeforeWrite layout peb bmap = .ok (bmap', blks)) :
    peb.items ≠ [] ∧ peb.Packed layout peb.items ∧ (∀ b ∈ peb.blks layout, bmap b = false) ∧
      (∀ b, bmap b = true → bmap' b = true) ∧ ∀ b ∈ peb.blks layout, bmap' b = true := by
  have herase := layout.env.eraseSize.toNat_lt
  have hfs := layout.env.fsSize.toNat_lt
  have hpage := layout.pageSize.bytes_ge
  unfold checkPebBeforeWrite at h
  obtain ⟨⟨startOffset, payloadSize⟩, hitems, h⟩ := Checked.bind_eq_ok.1 h
  obtain ⟨hpacked, hpayload⟩ := checkNextExtents_ok hitems
  simp only at h
  obtain ⟨hstart, h⟩ := bugOn_bind_eq_ok.1 h
  obtain ⟨-, h⟩ := bugOn_bind_eq_ok.1 h
  obtain ⟨-, h⟩ := bugOn_bind_eq_ok.1 h
  obtain ⟨-, h⟩ := bugOn_bind_eq_ok.1 h
  obtain ⟨bmap₁, hblks, h⟩ := Checked.bind_eq_ok.1 h
  cases h
  cases hpayload with
  | none => exact absurd rfl hstart
  | @some last _ _ hlast hsum hall =>
    have hmem := List.mem_of_getLast? hlast
    obtain ⟨hpos, hend, hvol⟩ := hpacked.fits last hmem
    have hfirst := (hall last hmem).1
    have haligned := Nat.div_mul_le_self startOffset layout.pageSize.bytes
    have hspan : startOffset / layout.pageSize.bytes * layout.pageSize.bytes ≤
        peb.finish last := by omega
    rw [Word.u32_of_lt (n := payloadSize + _) (by omega), Word.u64_of_lt
      (n := peb.pebId * layout.env.eraseSize.toNat) (by omega), Word.u64_of_lt (n := _ + _ * _)
      (by omega), Word.u32_of_lt (n := _ - 1) (by omega)] at hblks
    have hstartBlk : (peb.pebId * layout.env.eraseSize.toNat +
        startOffset / layout.pageSize.bytes * layout.pageSize.bytes) / layout.pageSize.bytes =
          peb.pebId * layout.env.eraseSize.toNat / layout.pageSize.bytes +
            startOffset / layout.pageSize.bytes := Nat.add_mul_div_right _ _ (by omega)
    have hcount : payloadSize + (startOffset - startOffset / layout.pageSize.bytes *
        layout.pageSize.bytes) = startOffset + payloadSize -
          startOffset / layout.pageSize.bytes * layout.pageSize.bytes := by omega
    rw [hcount] at hblks
    have hsmall := Nat.div_le_div_left (a := peb.pebId * layout.env.eraseSize.toNat +
      startOffset / layout.pageSize.bytes * layout.pageSize.bytes) hpage (by decide)
    have hfew := Nat.div_le_self (startOffset + payloadSize - startOffset /
      layout.pageSize.bytes * layout.pageSize.bytes + layout.pageSize.bytes - 1)
      layout.pageSize.bytes
    obtain ⟨hfree, hused⟩ := useBlks_ok (by omega) hblks
    have hblk : ∀ b ∈ peb.blks layout, peb.pebId * layout.env.eraseSize.toNat /
        layout.pageSize.bytes + startOffset / layout.pageSize.bytes ≤ b ∧
        b < peb.pebId * layout.env.eraseSize.toNat / layout.pageSize.bytes +
          startOffset / layout.pageSize.bytes + (startOffset + payloadSize - startOffset /
            layout.pageSize.bytes * layout.pageSize.bytes + layout.pageSize.bytes - 1) /
              layout.pageSize.bytes := by
      rintro b ⟨k, hk, y, hlo, hhi, rfl⟩
      obtain ⟨h1, h2⟩ := hall k hk
      have := @page_of_span layout.pageSize.bytes _ _ _ (by omega) (show startOffset ≤ y by omega)
        (show y < startOffset + payloadSize by omega)
      omega
    rw [hstartBlk] at hfree hused
    refine ⟨List.ne_nil_of_mem hmem, hpacked, fun b hb => ?_, fun b hb => ?_, fun b hb => ?_⟩
    · exact hfree b (hblk b hb).1 (hblk b hb).2
    · exact (hused b).2 (.inl hb)
    · exact (hused b).2 (.inr (hblk b hb))

end Bitmap

namespace SegsArray

def content (a : SegsArray) (site : Nat × Nat) : PebContent := (a.segs site.1).pebs site.2

def written (a : SegsArray) : Set (Nat × Nat) :=
  {site | site.1 < a.segsCount ∧ site.2 < (a.segs site.1).pebsCount}

/-- The contents of the segments before the `i`-th one, and the first `j` of this one. -/
def writtenBefore (a : SegsArray) (i j : Nat) : Set (Nat × Nat) :=
  {site | site.1 < i ∧ site.2 < (a.segs site.1).pebsCount ∨ site.1 = i ∧ site.2 < j}

theorem insert_writtenBefore (a : SegsArray) (i j : Nat) :
    insert (i, j) (a.writtenBefore i j) = a.writtenBefore i (j + 1) := by
  ext ⟨i', j'⟩
  simp only [writtenBefore, Set.mem_insert_iff, Set.mem_ofPred_eq, Prod.mk.injEq]
  omega

theorem writtenBefore_succ (a : SegsArray) (i : Nat) :
    a.writtenBefore i (a.segs i).pebsCount = a.writtenBefore (i + 1) 0 := by
  ext ⟨i', j'⟩
  simp only [writtenBefore, Set.mem_ofPred_eq]
  constructor
  · rintro (⟨h1, h2⟩ | ⟨rfl, h2⟩)
    · exact .inl ⟨by omega, h2⟩
    · exact .inl ⟨by omega, h2⟩
  · rintro (⟨h1, h2⟩ | ⟨-, h2⟩)
    · rcases Nat.lt_succ_iff_lt_or_eq.1 h1 with h1 | rfl
      · exact .inl ⟨h1, h2⟩
      · exact .inr ⟨rfl, h2⟩
    · omega

theorem written_eq (a : SegsArray) : a.written = a.writtenBefore a.segsCount 0 := by
  ext site
  simp [written, writtenBefore]

end SegsArray

section Volume

variable {layout : VolumeLayout} {a : SegsArray} {bmap bmap' : BlkBmap}

structure PlacedAt (layout : VolumeLayout) (a : SegsArray) (sites : Set (Nat × Nat))
    (bmap : BlkBmap) : Prop where
  packed : ∀ site ∈ sites, (a.content site).Packed layout (a.content site).items
  shares : Shares (fun site => (a.content site).blks layout) sites bmap

theorem PlacedAt.insert (hlimit : layout.env.eraseSize.toNat + layout.pageSize.bytes ≤ 4294967296) {i j blks : Nat}
    {sites : Set (Nat × Nat)} (h : PlacedAt layout a sites bmap)
    (hcheck : checkPebBeforeWrite layout ((a.segs i).pebs j) bmap = .ok (bmap', blks)) :
    PlacedAt layout a (insert (i, j) sites) bmap' := by
  obtain ⟨-, hpacked, hfree, hkeep, hown⟩ := checkPebBeforeWrite_ok hlimit hcheck
  refine ⟨?_, h.shares.insert hfree hkeep hown⟩
  rintro site (rfl | hsite)
  · exact hpacked
  · exact h.packed site hsite

theorem checkSegmentBeforeWrite_ok (hlimit : layout.env.eraseSize.toNat + layout.pageSize.bytes ≤ 4294967296)
    {i : Nat} (h : PlacedAt layout a (a.writtenBefore i 0) bmap)
    (hcheck : checkSegmentBeforeWrite layout (a.segs i) bmap = .ok bmap') :
    PlacedAt layout a (a.writtenBefore (i + 1) 0) bmap' := by
  unfold checkSegmentBeforeWrite at hcheck
  obtain ⟨⟨bmap₁, segBlks⟩, hloop, hcheck⟩ := Checked.bind_eq_ok.1 hcheck
  obtain ⟨-, hcheck⟩ := failIf_bind_eq_ok.1 hcheck
  cases hcheck
  rw [← SegsArray.writtenBefore_succ]
  refine Checked.forRange_ind (fun j st => PlacedAt layout a (a.writtenBefore i j) st.1) hloop h ?_
  rintro j hj st st' hst hstep
  obtain ⟨⟨bmap₂, blks⟩, hpeb, hstep⟩ := Checked.bind_eq_ok.1 hstep
  cases hstep
  rw [← SegsArray.insert_writtenBefore]
  exact hst.insert hlimit hpeb

theorem checkLayoutBeforeWrite_ok (hlimit : layout.env.eraseSize.toNat + layout.pageSize.bytes ≤ 4294967296)
    {u : Unit} (h : checkLayoutBeforeWrite layout a = .ok u) :
    ∃ bmap, PlacedAt layout a a.written bmap := by
  unfold checkLayoutBeforeWrite at h
  obtain ⟨bmap, hloop, -⟩ := Checked.bind_eq_ok.1 h
  refine ⟨bmap, ?_⟩
  rw [SegsArray.written_eq]
  refine Checked.forRange_ind (fun i t => PlacedAt layout a (a.writtenBefore i 0) t) hloop ?_ ?_
  · have hempty : a.writtenBefore 0 0 = ∅ := by
      ext site
      simp [SegsArray.writtenBefore]
    rw [hempty]
    exact ⟨fun site hsite => hsite.elim, Shares.empty⟩
  · exact fun i _ t t' ht hstep => checkSegmentBeforeWrite_ok hlimit ht hstep

theorem PebContent.Packed.disjoint {peb : PebContent} {items : List ExtentIndex}
    (h : peb.Packed layout items) {k k' : ExtentIndex} (hk : k ∈ items) (hk' : k' ∈ items)
    (hne : k ≠ k') : Disjoint (peb.extentRange layout k) (peb.extentRange layout k') := by
  have hpair : items.Pairwise fun k k' =>
      Disjoint (peb.extentRange layout k) (peb.extentRange layout k') := by
    refine h.ordered.imp fun {k k'} hle => ?_
    rw [Set.disjoint_left]
    rintro x ⟨-, h1⟩ ⟨h2, -⟩
    omega
  have hsymm : Std.Symm fun k k' =>
      Disjoint (peb.extentRange layout k) (peb.extentRange layout k') :=
    ⟨fun _ _ hd => hd.symm⟩
  exact hpair.forall hk hk' hne

theorem PebContent.Fits.pebId_eq {peb : PebContent} {k : ExtentIndex} (h : peb.Fits layout k) {x : Nat}
    (hx : x ∈ peb.extentRange layout k) : x / layout.env.eraseSize.toNat = peb.pebId := by
  obtain ⟨hlo, hhi⟩ := hx
  have := h.erase
  refine Nat.div_eq_of_lt_le (Nat.le_of_add_right_le hlo) ?_
  rw [Nat.add_mul]
  omega

theorem PebContent.Fits.subset {peb : PebContent} {k : ExtentIndex} (h : peb.Fits layout k) :
    peb.extentRange layout k ⊆ Set.Ico (peb.pebId * layout.env.eraseSize.toNat)
      ((peb.pebId + 1) * layout.env.eraseSize.toNat) := by
  rintro x ⟨hlo, hhi⟩
  have := h.erase
  rw [Set.mem_Ico, Nat.add_mul]
  omega

end Volume

/-- The numbers of pages that the check rounds up to do not wrap once the phases have laid the logs out. -/
theorem VolumeLayout.LogPagesSet.room {layout : VolumeLayout} (h : layout.LogPagesSet) :
    layout.env.eraseSize.toNat + layout.pageSize.bytes ≤ 4294967296 := erase_add_page_le h.page_dvd

/-- The extents of a checked volume lie in their erase blocks and in the volume, and no byte
belongs to two of them. -/
theorem checkLayoutBeforeWrite_sound {layout : VolumeLayout} {a : SegsArray} {u : Unit}
    (hlimit : layout.env.eraseSize.toNat + layout.pageSize.bytes ≤ 4294967296)
    (hcheck : checkLayoutBeforeWrite layout a = .ok u) :
    (∀ site ∈ a.written, ∀ k ∈ (a.content site).items,
      (a.content site).extentRange layout k ⊆
        Set.Ico ((a.content site).pebId * layout.env.eraseSize.toNat)
          (((a.content site).pebId + 1) * layout.env.eraseSize.toNat) ∧
      (a.content site).extentRange layout k ⊆ Set.Iio layout.env.fsSize.toNat) ∧
    {e : (Nat × Nat) × ExtentIndex | e.1 ∈ a.written ∧ e.2 ∈ (a.content e.1).items}.PairwiseDisjoint
      fun e => (a.content e.1).extentRange layout e.2 := by
  obtain ⟨bmap, hplaced⟩ := checkLayoutBeforeWrite_ok hlimit hcheck
  constructor
  · intro site hsite k hk
    have hfit := (hplaced.packed site hsite).fits k hk
    refine ⟨hfit.subset, ?_⟩
    rintro x ⟨-, hhi⟩
    exact Nat.lt_of_lt_of_le hhi hfit.volume
  · rintro ⟨site, k⟩ ⟨hsite, hk⟩ ⟨site', k'⟩ ⟨hsite', hk'⟩ hne
    by_cases heq : site = site'
    · subst heq
      exact (hplaced.packed site hsite).disjoint hk hk' fun hkk => hne (Prod.ext rfl hkk)
    · change Disjoint ((a.content site).extentRange layout k)
        ((a.content site').extentRange layout k')
      rw [Set.disjoint_left]
      intro x hx hx'
      -- A byte of both would be at one offset of one erase block.
      have hpeb := (hplaced.packed site hsite).fits k hk |>.pebId_eq hx
      have hpeb' := (hplaced.packed site' hsite').fits k' hk' |>.pebId_eq hx'
      obtain ⟨y, rfl⟩ := Nat.exists_eq_add_of_le (Nat.le_of_add_right_le hx.1)
      obtain ⟨hlo, hhi⟩ := hx
      obtain ⟨hlo', hhi'⟩ := hx'
      rw [← hpeb', hpeb] at hlo' hhi'
      refine heq (hplaced.shares.eq_of_mem hsite hsite'
        ⟨k, hk, y, Nat.le_of_add_le_add_left hlo, Nat.lt_of_add_lt_add_left hhi, rfl⟩
        ⟨k', hk', y, Nat.le_of_add_le_add_left hlo', Nat.lt_of_add_lt_add_left hhi', ?_⟩)
      rw [← hpeb', hpeb]

/-- A volume of sixteen erase blocks of 128 KiB. -/
def sixteenPebs : VolumeLayout where
  needEraseDevice := false
  segSize := 131072
  pageSize := .kib4
  nandDiesCount := 1
  lebsPerPebIndex := 1
  segbmap := ⟨false, 1⟩
  maptbl := ⟨false, 1, 1, 10, 0, 0, 0, 0, 0, 0, 0, 0, 0⟩
  env := ⟨2097152, 131072, .blk⟩

theorem sixteenPebs_logPagesSet : sixteenPebs.LogPagesSet := ⟨40, 65535, 8, _, rfl⟩

def gappedPeb (pebId : Nat) : PebContent where
  lebId := pebId
  pebId := pebId
  extents
    | .segHeader => ⟨some fun _ => 1, 0, 2048⟩
    | .logPayload => ⟨some fun _ => 2, 4096, 5000⟩
    | .logFooter => ⟨some fun _ => 3, 12288, 1024⟩
    | _ => ⟨none, 0, 0⟩

def gappedSegs : SegsArray where
  metaArray _ := ⟨0, 0, .dedicated⟩
  segs i := ⟨some .segbmap, .dedicated, i, fun _ => gappedPeb i, 1, 1⟩
  segsCapacity := 2
  segsCount := 2
  lastAllocatedSegIndex := 1

theorem checkLayoutBeforeWrite_gapped :
    checkLayoutBeforeWrite sixteenPebs gappedSegs = .ok () ∧
      Disjoint ((gappedSegs.content (0, 0)).extentRange sixteenPebs .logFooter)
        ((gappedSegs.content (1, 0)).extentRange sixteenPebs .segHeader) := by
  have hcheck : checkLayoutBeforeWrite sixteenPebs gappedSegs = .ok () := rfl
  have hsound := (checkLayoutBeforeWrite_sound (by decide) hcheck).2
  have h₀ : ((0, 0), .logFooter) ∈ {e : (Nat × Nat) × ExtentIndex |
      e.1 ∈ gappedSegs.written ∧ e.2 ∈ (gappedSegs.content e.1).items} :=
    ⟨⟨by decide, by decide⟩, by decide⟩
  have h₁ : ((1, 0), .segHeader) ∈ {e : (Nat × Nat) × ExtentIndex |
      e.1 ∈ gappedSegs.written ∧ e.2 ∈ (gappedSegs.content e.1).items} :=
    ⟨⟨by decide, by decide⟩, by decide⟩
  have hne : (((0, 0), .logFooter) : (Nat × Nat) × ExtentIndex) ≠ ((1, 0), .segHeader) := by decide
  have hd := hsound h₀ h₁ hne
  simp only [Function.onFun] at hd
  exact ⟨hcheck, hd⟩

end Ssdfs
