import Ssdfs.Log.Header

namespace Ssdfs

open Align

section

variable {layout : VolumeLayout} {segType : SegType} {peb : PebContent} {inlineCapacity : Nat}

structure SbPlaced (layout : VolumeLayout) (segType : SegType) (inlineCapacity : Nat)
    (peb : PebContent) : Prop where
  items : ∀ k ∉ sbItems, peb.size k = 0
  header : peb.start .segHeader = 0
  cache : peb.start .maptblCache =
    if peb.size .maptblCache ≤ inlineCapacity then peb.size .segHeader
    else Word.u32 (startOffset (logPageSize layout segType) 0 peb.size .maptblCache)
  footer : peb.start .logFooter =
    Word.u32 (startOffset (logPageSize layout segType) 0 peb.size .logFooter)

namespace SbPlaced

variable (hpage : 0 < logPageSize layout segType)
  (hlimit : layout.env.eraseSize.toNat + logPageSize layout segType ≤ 4294967296)
  (hdvd : logPageSize layout segType ∣ layout.env.eraseSize.toNat)
  (hp : SbPlaced layout segType inlineCapacity peb)

include hpage hlimit hdvd hp

theorem start_cache (h : peb.size .segHeader ≤ layout.env.eraseSize.toNat) :
    peb.start .maptblCache =
      sbPosition (logPageSize layout segType) inlineCapacity peb.size .maptblCache ∧
    sbPosition (logPageSize layout segType) inlineCapacity peb.size .maptblCache ≤
      layout.env.eraseSize.toNat := by
  have hle : padTo (logPageSize layout segType) (peb.size .segHeader) ≤
    layout.env.eraseSize.toNat := padTo_le h hdvd
  rw [hp.cache]
  simp only [sbPosition]
  split
  case isTrue => exact ⟨rfl, h⟩
  case isFalse =>
    refine ⟨?_, hle⟩
    rw [header_maptblCache hpage hlimit hp.items (by omega), Nat.zero_add,
      Word.u32_of_lt (by omega)]

theorem start_footer (h : peb.size .segHeader ≤ layout.env.eraseSize.toNat)
    (hcache : peb.size .maptblCache > logPageSize layout segType - segmentHeaderSize →
      padTo (logPageSize layout segType) (peb.size .segHeader) + peb.size .maptblCache +
        logPageSize layout segType ≤ 4294967296) :
    peb.start .logFooter = footerPosition (logPageSize layout segType) 0 peb.size := by
  have hle : padTo (logPageSize layout segType) (peb.size .segHeader) ≤
    layout.env.eraseSize.toNat := padTo_le h hdvd
  rw [hp.footer, header_logFooter hpage hlimit hdvd hp.items (by omega) (by rwa [Nat.zero_add]),
    Word.u32_of_lt]
  unfold footerPosition
  rw [Nat.zero_add]
  split
  case isTrue hbig =>
    have hlt : padTo (logPageSize layout segType) (padTo (logPageSize layout segType)
      (peb.size .segHeader) + peb.size .maptblCache) < _ := padTo_lt hpage
    have hwrap := hcache hbig
    omega
  case isFalse => omega

theorem bounds (hwide : logPageSize layout segType - segmentHeaderSize < inlineCapacity →
      layout.env.eraseSize.toNat + 2 * logPageSize layout segType ≤ 4294967296)
    (hfooter : 0 < peb.size .logFooter) (h : peb.LaidOut layout segType) :
    peb.size .segHeader ≤ layout.env.eraseSize.toNat ∧
      (peb.size .maptblCache > logPageSize layout segType - segmentHeaderSize →
        padTo (logPageSize layout segType) (peb.size .segHeader) + peb.size .maptblCache +
          logPageSize layout segType ≤ 4294967296) ∧
      footerPosition (logPageSize layout segType) 0 peb.size + peb.size .logFooter ≤
        layout.env.eraseSize.toNat := by
  have hheader : peb.size .segHeader ≤ layout.env.eraseSize.toNat := by
    have hle : 0 + peb.size .segHeader ≤ _ := h.finish_le (fun _ => hp.header) (Nat.zero_le _)
    rwa [Nat.zero_add] at hle
  have herase := layout.env.eraseSize.toNat_lt
  obtain ⟨hcache, hpos⟩ := hp.start_cache hpage hlimit hdvd hheader
  have hcacheEnd := h.finish_le (k := .maptblCache) (fun _ => by
    rw [hcache, Word.u32_of_lt (by omega)]) hpos
  have hbig : peb.size .maptblCache > logPageSize layout segType - segmentHeaderSize →
      padTo (logPageSize layout segType) (peb.size .segHeader) + peb.size .maptblCache +
        logPageSize layout segType ≤ 4294967296 := fun hbig => by
    simp only [sbPosition] at hcacheEnd
    split at hcacheEnd
    case isTrue hsmall =>
      have hlt : padTo (logPageSize layout segType) (peb.size .segHeader) < _ := padTo_lt hpage
      have hroom := hwide (Nat.lt_of_lt_of_le hbig hsmall)
      omega
    case isFalse => omega
  have hle := h.finish_le_erase hfooter
  rw [PebContent.finish_eq, hp.start_footer hpage hlimit hdvd hheader hbig] at hle
  exact ⟨hheader, hbig, hle⟩

theorem fits_of_laidOut
    (hcapacity : logPageSize layout segType - segmentHeaderSize ≤ inlineCapacity)
    (hwide : logPageSize layout segType - segmentHeaderSize < inlineCapacity →
      layout.env.eraseSize.toNat + 2 * logPageSize layout segType ≤ 4294967296)
    (hheader : 0 < peb.size .segHeader) (hfooter : 0 < peb.size .logFooter)
    (h : peb.LaidOut layout segType) :
    SbFits (logPageSize layout segType) inlineCapacity layout.env.eraseSize.toNat peb.size := by
  obtain ⟨hsize, hbig, hend⟩ := hp.bounds hpage hlimit hdvd hwide hfooter h
  have hcache := (hp.start_cache hpage hlimit hdvd hsize).1
  have hfoot := hp.start_footer hpage hlimit hdvd hsize hbig
  have hinline : peb.size .maptblCache ≤ logPageSize layout segType - segmentHeaderSize →
      peb.size .segHeader + peb.size .maptblCache ≤
        padTo (logPageSize layout segType) (peb.size .segHeader) := fun hsmall => by
    rcases Nat.eq_zero_or_pos (peb.size .maptblCache) with h0 | hpos
    · rw [h0]
      exact le_padTo hpage
    have hle : peb.finish .maptblCache ≤ peb.start .logFooter :=
      h.le_start (by decide) hpos hfooter
    rw [PebContent.finish_eq, hcache, hfoot] at hle
    simp only [sbPosition, footerPosition] at hle
    rwa [if_pos (Nat.le_trans hsmall hcapacity), if_neg (Nat.not_lt.2 hsmall), Nat.zero_add] at hle
  refine ⟨?_, hinline, fun hlt hle => ?_⟩
  · have hstart := (footerPosition_le hpage hp.items).2 hinline
    have hpad := padTo_le hend hdvd
    rw [padTo_add hpage dvd_footerPosition] at hpad
    rw [logEnd_of_header hpage hp.items]
    omega
  · have hpresent : peb.present = sbItems := by
      rw [present_eq rfl hp.items]
      have hcachePos : 0 < peb.size .maptblCache := Nat.zero_lt_of_lt hlt
      refine List.filter_eq_self.2 fun k hk => decide_eq_true ?_
      simp only [sbItems, List.mem_cons, List.not_mem_nil, or_false] at hk
      rcases hk with rfl | rfl | rfl
      · exact hheader
      · exact hcachePos
      · exact hfooter
    have hnear := h.near
    rw [hpresent] at hnear
    have hnear := (List.isChain_cons_cons.1 (List.isChain_cons_cons.1 hnear).2).1
    rw [PebContent.finish_eq, hcache, hfoot] at hnear
    simp only [sbPosition, footerPosition] at hnear
    rwa [if_pos hle, if_pos hlt, Nat.zero_add] at hnear

theorem laidOut_of_fits
    (hcapacity : logPageSize layout segType - segmentHeaderSize ≤ inlineCapacity)
    (h : SbFits (logPageSize layout segType) inlineCapacity layout.env.eraseSize.toNat peb.size) :
    peb.LaidOut layout segType := by
  obtain ⟨pages, hpages, hbytes⟩ := calculateLogPages_of_fit hpage hlimit h.erase
  have hself : ∀ x, x ≤ padTo (logPageSize layout segType) x := fun x => le_padTo hpage
  have hend := h.erase
  rw [logEnd_of_header hpage hp.items] at hend hbytes
  have hpayload : cacheStart (logPageSize layout segType) peb.size + peb.size .maptblCache ≤
      payloadStart (logPageSize layout segType) peb.size := cacheEnd_le_payloadStart hpage
  have hcacheStart : itemsEnd peb.size ≤ _ := itemsEnd_le_cacheStart hpage
  rw [itemsEnd_of_header hp.items] at hcacheStart
  have hheader : peb.size .segHeader ≤ layout.env.eraseSize.toNat := by omega
  have hfoot := footerPosition_le hpage hp.items
  have hbig : peb.size .maptblCache > logPageSize layout segType - segmentHeaderSize →
      padTo (logPageSize layout segType) (peb.size .segHeader) + peb.size .maptblCache +
        logPageSize layout segType ≤ 4294967296 := fun hbig => by
    unfold cacheStart at hpayload
    rw [if_pos hbig, itemsEnd_of_header hp.items] at hpayload
    omega
  have hstart : ∀ k ∈ peb.present, peb.start k =
      sbPosition (logPageSize layout segType) inlineCapacity peb.size k := fun k hk => by
    rw [present_eq rfl hp.items] at hk
    have hk := List.mem_of_mem_filter hk
    simp only [sbItems, List.mem_cons, List.not_mem_nil, or_false] at hk
    rcases hk with rfl | rfl | rfl
    · exact hp.header
    · exact (hp.start_cache hpage hlimit hdvd hheader).1
    · exact hp.start_footer hpage hlimit hdvd hheader hbig
  have hserial := sb_serial hpage hcapacity h
  have hord := hserial.ordered fun k _ => Nat.le_add_right _ _
  simp only [sbItems, List.pairwise_cons, List.mem_cons, forall_eq_or_imp] at hord
  have hbefore : ∀ k ∈ sbItems, sbPosition (logPageSize layout segType) inlineCapacity peb.size k +
      peb.size k ≤ footerPosition (logPageSize layout segType) 0 peb.size + peb.size .logFooter := by
    simp only [sbItems, List.mem_cons, List.not_mem_nil, or_false]
    rintro k (rfl | rfl | rfl)
    · exact Nat.le_trans hord.1.2.1 (Nat.le_add_right _ _)
    · exact Nat.le_trans hord.2.1.1 (Nat.le_add_right _ _)
    · exact Nat.le_refl _
  refine PebContent.LaidOut.of_serial hpage rfl hp.items hstart hserial
    ⟨pages, hpages, fun k hk => ?_⟩
  rw [hbytes, PebContent.finish_eq, hstart k hk]
  rw [present_eq rfl hp.items] at hk
  exact Nat.le_trans (hbefore k (List.mem_of_mem_filter hk)) (Nat.add_le_add hfoot.1 (hself _))

end SbPlaced

structure SnapPlaced (layout : VolumeLayout) (segType : SegType) (peb : PebContent) : Prop where
  items : ∀ k ∉ snapItems, peb.size k = 0
  header : peb.start .segHeader = reservedVbrSize
  footer : peb.start .logFooter =
    Word.u32 (startOffset (logPageSize layout segType) reservedVbrSize peb.size .logFooter)

namespace SnapPlaced

variable (hpage : 0 < logPageSize layout segType)
  (hlimit : layout.env.eraseSize.toNat + logPageSize layout segType ≤ 4294967296)
  (hdvd : logPageSize layout segType ∣ layout.env.eraseSize.toNat)
  (hp : SnapPlaced layout segType peb)

include hp

theorem sb_items : ∀ k ∉ sbItems, peb.size k = 0 := fun k hk =>
  hp.items k fun hmem => hk (by cases k <;> revert hmem <;> decide)

theorem payloadStart_eq : payloadStart (logPageSize layout segType) peb.size =
    padTo (logPageSize layout segType) (peb.size .segHeader) := by
  rw [payloadStart_of_no_cache (hp.items .maptblCache (by decide)),
    itemsEnd_of_header hp.sb_items]

include hpage hlimit hdvd

theorem start_footer (h : reservedVbrSize + peb.size .segHeader ≤ layout.env.eraseSize.toNat) :
    peb.start .logFooter =
      padTo (logPageSize layout segType) (reservedVbrSize + peb.size .segHeader) := by
  have hle : padTo (logPageSize layout segType) (reservedVbrSize + peb.size .segHeader) ≤
    layout.env.eraseSize.toNat := padTo_le h hdvd
  have hcache : ¬peb.size .maptblCache > logPageSize layout segType - segmentHeaderSize := by
    rw [hp.items .maptblCache (by decide)]
    exact Nat.not_lt_zero _
  rw [hp.footer, header_logFooter hpage hlimit hdvd hp.sb_items h fun hbig => absurd hbig hcache]
  unfold footerPosition
  rw [if_neg hcache, Word.u32_of_lt (by omega)]

theorem fits_of_laidOut (hheader : 0 < peb.size .segHeader) (hfooter : 0 < peb.size .logFooter)
    (h : peb.LaidOut layout segType) :
    SnapFits (logPageSize layout segType) layout.env.eraseSize.toNat peb.size := by
  have hheaderEnd := h.finish_le_erase hheader
  rw [PebContent.finish_eq, hp.header] at hheaderEnd
  have hfooterEnd := h.finish_le_erase hfooter
  rw [PebContent.finish_eq, hp.start_footer hpage hlimit hdvd hheaderEnd] at hfooterEnd
  have hmono : padTo (logPageSize layout segType) (peb.size .segHeader) ≤
      padTo (logPageSize layout segType) (reservedVbrSize + peb.size .segHeader) :=
    padTo_mono hpage (Nat.le_add_left _ _)
  have hlog := logEnd_of_header hpage hp.sb_items
  rw [hp.payloadStart_eq] at hlog
  have hend : logEnd (logPageSize layout segType) peb.size ≤ layout.env.eraseSize.toNat := by
    have hpad := padTo_le hfooterEnd hdvd
    rw [padTo_add hpage dvd_padTo] at hpad
    omega
  have hcounted := h.counted hpage hlimit hend hfooter
  rw [PebContent.finish_eq, hp.start_footer hpage hlimit hdvd hheaderEnd, hlog] at hcounted
  have hpad : padTo (logPageSize layout segType) (peb.size .logFooter) < _ := padTo_lt hpage
  refine ⟨hend, Nat.le_antisymm ?_ hmono⟩
  have hle := le_padTo_of_lt hpage
    (dvd_padTo (a := logPageSize layout segType) (x := reservedVbrSize + peb.size .segHeader))
    (y := padTo (logPageSize layout segType) (peb.size .segHeader)) (by omega)
  rwa [padTo_padTo hpage] at hle

theorem laidOut_of_fits
    (h : SnapFits (logPageSize layout segType) layout.env.eraseSize.toNat peb.size) :
    peb.LaidOut layout segType := by
  obtain ⟨pages, hpages, hbytes⟩ := calculateLogPages_of_fit hpage hlimit h.erase
  have hend := h.erase
  have hlog := logEnd_of_header hpage hp.sb_items
  rw [hp.payloadStart_eq] at hlog
  rw [hlog] at hbytes hend
  have hheader : reservedVbrSize + peb.size .segHeader ≤
      padTo (logPageSize layout segType) (peb.size .segHeader) := by
    rw [← h.header]
    exact le_padTo hpage
  have hfooter := hp.start_footer hpage hlimit hdvd (by omega)
  rw [h.header] at hfooter
  have hpad : peb.size .logFooter ≤ padTo (logPageSize layout segType) (peb.size .logFooter) :=
    le_padTo hpage
  have hstart : ∀ k ∈ peb.present, k = .segHeader ∨ k = .logFooter := fun k hk => by
    rw [present_eq rfl hp.items] at hk
    simpa [snapItems] using List.mem_of_mem_filter hk
  refine @PebContent.LaidOut.of_serial _ _ _ _ peb.start hpage rfl hp.items (fun _ _ => rfl) ?_
    ⟨pages, hpages, fun k hk => ?_⟩
  · simp only [Serial, snapItems, List.isChain_cons_cons, List.isChain_singleton, and_true,
      hp.header, hfooter]
    refine ⟨hheader, ?_⟩
    rw [h.header]
  · rw [hbytes, PebContent.finish_eq]
    rcases hstart k hk with rfl | rfl
    · rw [hp.header]
      omega
    · rw [hfooter]
      omega

end SnapPlaced

end

/-- When the log of a metadata structure is laid out as it should be. -/
def LogFits (layout : VolumeLayout) (blkbmapBackup blk2offBackup : Bool) (metaIndex : MetaIndex)
    (sizes : ExtentIndex → UInt32) : Prop :=
  let erase := layout.env.eraseSize.toNat
  match metaIndex with
  | .initialSnapshot => SnapFits pageCacheSize erase (sizesOf snapItems sizes)
  | .superblock =>
    SbFits pageCacheSize (layout.pageSize.bytes - segmentHeaderSize) erase (sizesOf sbItems sizes)
  | .segbmap | .pebMappingTable =>
    TableFits layout.pageSize.bytes erase (sizesOf (tableItems blkbmapBackup blk2offBackup) sizes)
  | .userData => True

section

variable {layout : VolumeLayout} {sizes : ExtentIndex → UInt32} {lebId pebId : Nat}

theorem PageSize.bytes_pos (page : PageSize) : 0 < page.bytes :=
  Nat.lt_of_lt_of_le (by decide) page.bytes_ge

theorem pageCacheSize_dvd_page (page : PageSize) : pageCacheSize ∣ page.bytes := by
  cases page <;> decide

theorem sizesOf_pos {ks : List ExtentIndex} {k : ExtentIndex} (hk : k ∈ ks) (h : sizes k ≠ 0) :
    0 < sizesOf ks sizes k := by
  unfold sizesOf
  rw [if_pos hk]
  exact Nat.pos_of_ne_zero fun h0 => h (UInt32.toNat_inj.1 h0)

theorem sbMkfsDefineLayout_placed : SbPlaced layout .sb (layout.pageSize.bytes - segmentHeaderSize)
    (sbMkfsDefineLayout layout sizes (.blank lebId pebId)) where
  items k hk := by
    rw [size_sbMkfsDefineLayout]
    exact if_neg hk
  header := start_sbMkfsDefineLayout.1
  cache := by
    rw [size_sbMkfsDefineLayout]
    exact start_sbMkfsDefineLayout.2.1
  footer := by
    rw [size_sbMkfsDefineLayout]
    exact start_sbMkfsDefineLayout.2.2

theorem snapMkfsDefineLayout_placed : SnapPlaced layout .initialSnapshot
    (snapMkfsDefineLayout layout sizes (.blank lebId pebId)) where
  items k hk := by
    rw [size_snapMkfsDefineLayout]
    exact if_neg hk
  header := start_snapMkfsDefineLayout.1
  footer := by
    rw [size_snapMkfsDefineLayout]
    exact start_snapMkfsDefineLayout.2

theorem tableItems_ranked (b b' : Bool) :
    (tableItems b b').Pairwise fun k k' => k.rank < k'.rank := by
  cases b <;> cases b' <;> decide

theorem table_laidOut_iff {segType : SegType} {b b' : Bool}
    (htype : logPageSize layout segType = layout.pageSize.bytes)
    (hdvd : layout.pageSize.bytes ∣ layout.env.eraseSize.toNat) :
    ((tableItems b b').foldl (placeExtent layout segType sizes) (.blank lebId pebId)).LaidOut
        layout segType ↔
      TableFits layout.pageSize.bytes layout.env.eraseSize.toNat
        (sizesOf (tableItems b b') sizes) := by
  obtain ⟨hsize, -, hstart⟩ := @foldl_placeExtent layout segType sizes lebId pebId _
    (tableItems_ranked b b')
  have hlimit := erase_add_page_le hdvd
  have hpage := layout.pageSize.bytes_pos
  rw [← htype] at hpage hlimit hdvd ⊢
  rw [← hsize] at hstart ⊢
  generalize (tableItems b b').foldl (placeExtent layout segType sizes) (.blank lebId pebId) = peb
    at *
  have hcache : peb.size .maptblCache = 0 := by
    rw [hsize]
    exact if_neg (by cases b <;> cases b' <;> decide)
  have hplaced : ∀ k, 0 < peb.size k → peb.start k =
      Word.u32 (startOffset (logPageSize layout segType) 0 peb.size k) := fun k hk =>
    hstart k (by
      by_contra hmem
      rw [hsize, show sizesOf (tableItems b b') sizes k = 0 from if_neg hmem] at hk
      exact Nat.lt_irrefl _ hk)
  exact ⟨tableFits_of_laidOut hpage hlimit hdvd hcache hplaced,
    laidOut_of_tableFits hpage hlimit hdvd hcache hplaced⟩

theorem sb_laidOut_iff (hdvd : layout.pageSize.bytes ∣ layout.env.eraseSize.toNat)
    (hheader : sizes .segHeader ≠ 0) (hfooter : sizes .logFooter ≠ 0) :
    (sbMkfsDefineLayout layout sizes (.blank lebId pebId)).LaidOut layout .sb ↔
      SbFits pageCacheSize (layout.pageSize.bytes - segmentHeaderSize)
        layout.env.eraseSize.toNat (sizesOf sbItems sizes) := by
  have hpage : 0 < logPageSize layout .sb := Nat.zero_lt_succ _
  have hdvd' : logPageSize layout .sb ∣ layout.env.eraseSize.toNat :=
    Nat.dvd_trans (pageCacheSize_dvd_page _) hdvd
  have hle := Nat.le_of_dvd layout.pageSize.bytes_pos (pageCacheSize_dvd_page layout.pageSize)
  have hroom := erase_add_page_le hdvd
  have hlimit : layout.env.eraseSize.toNat + logPageSize layout .sb ≤ 4294967296 :=
    Nat.le_trans (Nat.add_le_add_left hle _) hroom
  have hcapacity : logPageSize layout .sb - segmentHeaderSize ≤
    layout.pageSize.bytes - segmentHeaderSize := Nat.sub_le_sub_right hle _
  have hwide : logPageSize layout .sb - segmentHeaderSize <
      layout.pageSize.bytes - segmentHeaderSize →
        layout.env.eraseSize.toNat + 2 * logPageSize layout .sb ≤ 4294967296 := fun hlt => by
    have htwo : 2 * pageCacheSize ≤ layout.pageSize.bytes := by
      rw [show logPageSize layout .sb = pageCacheSize from rfl] at hlt
      generalize layout.pageSize = page at hlt
      revert hlt
      cases page <;> decide
    exact Nat.le_trans (Nat.add_le_add_left htwo _) hroom
  have hplaced := @sbMkfsDefineLayout_placed layout sizes lebId pebId
  rw [← @size_sbMkfsDefineLayout layout sizes lebId pebId]
  refine ⟨hplaced.fits_of_laidOut hpage hlimit hdvd' hcapacity hwide ?_ ?_,
    hplaced.laidOut_of_fits hpage hlimit hdvd' hcapacity⟩
  · rw [size_sbMkfsDefineLayout]
    exact sizesOf_pos (by decide) hheader
  · rw [size_sbMkfsDefineLayout]
    exact sizesOf_pos (by decide) hfooter

theorem snap_laidOut_iff (hdvd : layout.pageSize.bytes ∣ layout.env.eraseSize.toNat)
    (hheader : sizes .segHeader ≠ 0) (hfooter : sizes .logFooter ≠ 0) :
    (snapMkfsDefineLayout layout sizes (.blank lebId pebId)).LaidOut layout .initialSnapshot ↔
      SnapFits pageCacheSize layout.env.eraseSize.toNat (sizesOf snapItems sizes) := by
  have hpage : 0 < logPageSize layout .initialSnapshot := Nat.zero_lt_succ _
  have hdvd' : logPageSize layout .initialSnapshot ∣ layout.env.eraseSize.toNat :=
    Nat.dvd_trans (pageCacheSize_dvd_page _) hdvd
  have hle := Nat.le_of_dvd layout.pageSize.bytes_pos (pageCacheSize_dvd_page layout.pageSize)
  have hlimit : layout.env.eraseSize.toNat + logPageSize layout .initialSnapshot ≤ 4294967296 :=
    Nat.le_trans (Nat.add_le_add_left hle _) (erase_add_page_le hdvd)
  have hplaced := @snapMkfsDefineLayout_placed layout sizes lebId pebId
  rw [← @size_snapMkfsDefineLayout layout sizes lebId pebId]
  refine ⟨hplaced.fits_of_laidOut hpage hlimit hdvd' ?_ ?_,
    hplaced.laidOut_of_fits hpage hlimit hdvd'⟩
  · rw [size_snapMkfsDefineLayout]
    exact sizesOf_pos (by decide) hheader
  · rw [size_snapMkfsDefineLayout]
    exact sizesOf_pos (by decide) hfooter

theorem blank_laidOut (hdvd : layout.pageSize.bytes ∣ layout.env.eraseSize.toNat) :
    (PebContent.blank lebId pebId).LaidOut layout .unknown where
  ordered := List.Pairwise.nil
  near := List.isChain_nil
  inside := by
    have hpage : 0 < logPageSize layout .unknown := layout.pageSize.bytes_pos
    have hzero : padTo (logPageSize layout .unknown) 0 = 0 :=
      padTo_of_dvd hpage (Nat.dvd_zero _)
    have hend : logEnd (logPageSize layout .unknown) (PebContent.blank lebId pebId).size = 0 := by
      simp [logEnd, payloadEnd, payloadStart, cacheStart, itemsEnd, hzero]
    obtain ⟨pages, hpages, -⟩ := calculateLogPages_of_fit hpage (erase_add_page_le hdvd)
      (Nat.le_trans (Nat.le_of_eq hend) (Nat.zero_le _))
    exact ⟨pages, hpages, fun k hk => absurd hk List.not_mem_nil⟩

theorem defineLayout_laidOut_iff {blkbmapBackup blk2offBackup : Bool} {metaIndex : MetaIndex}
    (hdvd : layout.pageSize.bytes ∣ layout.env.eraseSize.toNat)
    (hheader : sizes .segHeader ≠ 0) (hfooter : sizes .logFooter ≠ 0) :
    (defineLayout layout blkbmapBackup blk2offBackup metaIndex sizes (.blank lebId pebId)).LaidOut
        layout (meta2segType metaIndex) ↔
      LogFits layout blkbmapBackup blk2offBackup metaIndex sizes := by
  cases metaIndex <;> simp only [defineLayout, LogFits, meta2segType]
  case initialSnapshot => exact snap_laidOut_iff hdvd hheader hfooter
  case superblock => exact sb_laidOut_iff hdvd hheader hfooter
  case segbmap => exact table_laidOut_iff rfl hdvd
  case pebMappingTable => exact table_laidOut_iff rfl hdvd
  case userData => exact iff_of_true (blank_laidOut hdvd) trivial

end

def bitmapLogSizes : ExtentIndex → UInt32
  | .segHeader => 2048
  | .blockBitmap => 200
  | .offsetTable => 320
  | .blockDescriptors => 320
  | .maptblCache => 0
  | .logPayload => 4096
  | .logFooter => 2048
  | .blockBitmapBackup => 200
  | .offsetTableBackup => 320

theorem defineLayout_laidOut_bitmapLog :
    (defineLayout sixteenPebs false false .segbmap bitmapLogSizes (.blank 3 3)).LaidOut sixteenPebs
      .segbmap :=
  (@defineLayout_laidOut_iff sixteenPebs bitmapLogSizes 3 3 false false .segbmap (by decide)
    (by decide) (by decide)).2 ⟨by decide, by decide, by decide⟩

/-- Both backup copies go to the page behind the footer. -/
theorem defineLayout_overlaps_backups :
    ¬(defineLayout sixteenPebs true true .segbmap bitmapLogSizes (.blank 3 3)).LaidOut sixteenPebs
      .segbmap := by
  intro h
  have hle := @PebContent.LaidOut.le_start _ _ _ h .blockBitmapBackup .offsetTableBackup
    (by decide) (by decide) (by decide)
  revert hle
  decide

end Ssdfs
