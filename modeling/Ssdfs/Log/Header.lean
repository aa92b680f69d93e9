import Ssdfs.Log.Table

namespace Ssdfs

open Align

def sbItems : List ExtentIndex := [.segHeader, .maptblCache, .logFooter]

def snapItems : List ExtentIndex := [.segHeader, .logFooter]

def footerPosition (page header : Nat) (size : ExtentIndex → Nat) : Nat :=
  if size .maptblCache > page - segmentHeaderSize then
    padTo page (padTo page (header + size .segHeader) + size .maptblCache)
  else padTo page (header + size .segHeader)

section

variable {page erase header : Nat} {size : ExtentIndex → Nat}

theorem itemsEnd_of_header (hitems : ∀ k ∉ sbItems, size k = 0) :
    itemsEnd size = size .segHeader := by
  unfold itemsEnd
  rw [hitems .blockBitmap (by decide), hitems .offsetTable (by decide),
    hitems .blockDescriptors (by decide)]
  rfl

theorem payloadEnd_of_header (hpage : 0 < page) (hitems : ∀ k ∉ sbItems, size k = 0) :
    payloadEnd page size = payloadStart page size := by
  unfold payloadEnd
  rw [hitems .logPayload (by decide), Nat.add_zero]
  exact padTo_of_dvd hpage dvd_payloadStart

theorem logEnd_of_header (hpage : 0 < page) (hitems : ∀ k ∉ sbItems, size k = 0) :
    logEnd page size = payloadStart page size + padTo page (size .logFooter) := by
  rw [logEnd_eq hpage, payloadEnd_of_header hpage hitems, hitems .blockBitmapBackup (by decide),
    hitems .offsetTableBackup (by decide)]
  rfl

theorem header_maptblCache (hpage : 0 < page) (hlimit : erase + page ≤ 4294967296)
    (hitems : ∀ k ∉ sbItems, size k = 0) (h : header + size .segHeader ≤ erase) :
    startOffset page header size .maptblCache = padTo page (header + size .segHeader) := by
  rw [startOffset_maptblCache, itemsOffset_eq (by rw [itemsEnd_of_header hitems]; omega),
    itemsEnd_of_header hitems, roundUp32_of_le hpage hlimit h]

theorem header_logFooter (hpage : 0 < page) (hlimit : erase + page ≤ 4294967296)
    (hdvd : page ∣ erase) (hitems : ∀ k ∉ sbItems, size k = 0)
    (h : header + size .segHeader ≤ erase)
    (hcache : size .maptblCache > page - segmentHeaderSize →
      padTo page (header + size .segHeader) + size .maptblCache + page ≤ 4294967296) :
    startOffset page header size .logFooter = footerPosition page header size := by
  have hle : padTo page (header + size .segHeader) ≤ erase := padTo_le h hdvd
  have hstart := header_maptblCache hpage hlimit hitems h
  rw [startOffset_maptblCache] at hstart
  rw [startOffset_logFooter, hstart, hitems .logPayload (by decide), Nat.add_zero,
    Word.u32_of_lt (by omega), roundUp32_of_le hpage hlimit hle, padTo_padTo hpage]
  unfold cacheOffset footerPosition
  split
  case isTrue hbig =>
    have hcache := hcache hbig
    rw [Word.u32_of_lt (by omega), roundUp32_eq hpage hcache]
  case isFalse => rw [roundUp32_of_le hpage hlimit hle, padTo_padTo hpage]

end

/-- A cache in the page of the header ends there, and a cache that the volume's page holds but
the log's page does not leaves less than a page before the footer. -/
structure SbFits (page inlineCapacity erase : Nat) (size : ExtentIndex → Nat) : Prop where
  erase : logEnd page size ≤ erase
  inline : size .maptblCache ≤ page - segmentHeaderSize →
    size .segHeader + size .maptblCache ≤ padTo page (size .segHeader)
  wide : page - segmentHeaderSize < size .maptblCache → size .maptblCache ≤ inlineCapacity →
    padTo page (padTo page (size .segHeader) + size .maptblCache) <
      size .segHeader + size .maptblCache + page

/-- The boot record does not push the footer to another page. -/
structure SnapFits (page erase : Nat) (size : ExtentIndex → Nat) : Prop where
  erase : logEnd page size ≤ erase
  header : padTo page (reservedVbrSize + size .segHeader) = padTo page (size .segHeader)

section

variable {layout : VolumeLayout} {sizes : ExtentIndex → UInt32} {lebId pebId : Nat}

theorem size_sbMkfsDefineLayout :
    (sbMkfsDefineLayout layout sizes (.blank lebId pebId)).size = sizesOf sbItems sizes := by
  funext k
  simp only [sbMkfsDefineLayout]
  split <;> cases k <;> simp [size_placeExtent, sizesOf, sbItems]

theorem start_sbMkfsDefineLayout :
    (sbMkfsDefineLayout layout sizes (.blank lebId pebId)).start .segHeader = 0 ∧
    (sbMkfsDefineLayout layout sizes (.blank lebId pebId)).start .maptblCache =
      (if (sizes .maptblCache).toNat ≤ layout.pageSize.bytes - segmentHeaderSize then
        (sizes .segHeader).toNat
      else Word.u32 (startOffset (logPageSize layout .sb) 0 (sizesOf sbItems sizes) .maptblCache)) ∧
    (sbMkfsDefineLayout layout sizes (.blank lebId pebId)).start .logFooter =
      Word.u32 (startOffset (logPageSize layout .sb) 0 (sizesOf sbItems sizes) .logFooter) := by
  obtain ⟨hsize, hhdr, hstart⟩ := @foldl_placeExtent layout .sb sizes lebId pebId
    [.segHeader, .maptblCache] (by decide)
  have hcache := hstart .maptblCache (by decide)
  simp only [List.foldl_cons, List.foldl_nil] at hsize hhdr hcache
  simp only [sbMkfsDefineLayout]
  generalize placeExtent layout .sb sizes (placeExtent layout .sb sizes (.blank lebId pebId)
    .segHeader) .maptblCache = peb at *
  have hsizes : ∀ i : ExtentIndex, i.rank ≤ ExtentIndex.rank .logFooter →
      startOffset (logPageSize layout .sb) 0 peb.size i =
        startOffset (logPageSize layout .sb) 0 (sizesOf sbItems sizes) i := by
    refine fun i hi => startOffset_congr fun j hj => ?_
    rw [hsize]
    cases j <;> first | rfl | exact absurd (Nat.lt_of_lt_of_le hj hi) (by decide)
  have hheader : peb.size .segHeader = (sizes .segHeader).toNat := by
    rw [hsize]
    rfl
  have hmaptbl : peb.size .maptblCache = (sizes .maptblCache).toNat := by
    rw [hsize]
    rfl
  have hwrap : Word.u32 (peb.size .segHeader) = peb.size .segHeader :=
    Word.u32_of_lt (UInt32.toNat_lt _)
  rw [← hsize, hsizes .maptblCache (by decide)] at hcache
  rw [← hsizes .logFooter (by decide), ← hmaptbl, ← hheader]
  split
  case isTrue hinline =>
    refine ⟨?_, ?_, ?_⟩
    · rw [start_placeExtent, if_neg (by decide), PebContent.start_setOffset, if_neg (by decide),
        hhdr]
    · rw [start_placeExtent, if_neg (by decide), PebContent.start_setOffset, if_pos rfl,
        PebContent.finish_eq, hhdr, Nat.zero_add, hwrap, hwrap]
    · rw [start_placeExtent, if_pos rfl, PebContent.start_setOffset, if_neg (by decide), hhdr]
      congr 2
      funext j
      exact PebContent.size_setOffset _ _ _ _
  case isFalse hbig =>
    refine ⟨?_, ?_, ?_⟩
    · rw [start_placeExtent, if_neg (by decide), hhdr]
    · rw [start_placeExtent, if_neg (by decide), hcache]
    · rw [start_placeExtent, if_pos rfl, hhdr]

theorem size_snapMkfsDefineLayout :
    (snapMkfsDefineLayout layout sizes (.blank lebId pebId)).size = sizesOf snapItems sizes := by
  funext k
  simp only [snapMkfsDefineLayout]
  cases k <;> simp [size_placeExtent, PebContent.size_setSize, setExtentStartOffset, sizesOf,
    snapItems]

theorem start_snapMkfsDefineLayout :
    (snapMkfsDefineLayout layout sizes (.blank lebId pebId)).start .segHeader = reservedVbrSize ∧
    (snapMkfsDefineLayout layout sizes (.blank lebId pebId)).start .logFooter =
      Word.u32 (startOffset (logPageSize layout .initialSnapshot) reservedVbrSize
        (sizesOf snapItems sizes) .logFooter) := by
  simp only [snapMkfsDefineLayout, setExtentStartOffset, startOffset_header, PebContent.start_blank,
    PebContent.start_setOffset, if_true]
  generalize hpeb : PebContent.setSize _ .segHeader (sizes .segHeader) = peb
  have hstart : peb.start .segHeader = reservedVbrSize := by
    rw [← hpeb, PebContent.start_setSize, PebContent.start_setOffset, if_pos rfl]
    decide
  have hsize : ∀ j, j.rank < ExtentIndex.rank .logFooter → peb.size j =
      sizesOf snapItems sizes j := fun j hj => by
    rw [← hpeb]
    cases j <;> first
      | exact absurd hj (by decide)
      | simp [PebContent.size_setSize, sizesOf, snapItems]
  refine ⟨?_, ?_⟩
  · rw [start_placeExtent, if_neg (by decide), hstart]
  · rw [start_placeExtent, if_pos rfl, hstart, startOffset_congr hsize]

end

/-- Where the extents of a superblock log go if nothing wraps. -/
def sbPosition (page inlineCapacity : Nat) (size : ExtentIndex → Nat) : ExtentIndex → Nat
  | .maptblCache =>
    if size .maptblCache ≤ inlineCapacity then size .segHeader else padTo page (size .segHeader)
  | .logFooter => footerPosition page 0 size
  | _ => 0

section

variable {page inlineCapacity erase : Nat} {size : ExtentIndex → Nat}

theorem sb_serial (hpage : 0 < page) (hcapacity : page - segmentHeaderSize ≤ inlineCapacity)
    (h : SbFits page inlineCapacity erase size) :
    Serial page (sbPosition page inlineCapacity size)
      (fun k => sbPosition page inlineCapacity size k + size k) sbItems := by
  have hself : ∀ x, x ≤ padTo page x := fun x => le_padTo hpage
  have hheader := hself (size .segHeader)
  have hinline := h.inline
  have hwide := h.wide
  simp only [Serial, sbItems, List.isChain_cons_cons, List.isChain_singleton, and_true, sbPosition,
    footerPosition, Nat.zero_add]
  refine ⟨?_, ?_⟩
  · split
    case isTrue => exact ⟨Nat.le_refl _, hheader⟩
    case isFalse => exact ⟨hheader, Nat.le_refl _⟩
  by_cases hbig : size .maptblCache > page - segmentHeaderSize
  · rw [if_pos hbig]
    split
    case isTrue hsmall =>
      exact ⟨Nat.le_trans (Nat.add_le_add_right hheader _) (hself _),
        le_padTo_of_lt hpage dvd_padTo (hwide hbig hsmall)⟩
    case isFalse => exact ⟨hself _, Nat.le_refl _⟩
  · have hsmall : size .maptblCache ≤ page - segmentHeaderSize := Nat.not_lt.1 hbig
    rw [if_neg hbig, if_pos (Nat.le_trans hsmall hcapacity)]
    exact ⟨hinline hsmall, padTo_mono hpage (Nat.le_add_right _ _)⟩

/-- The footer begins with the payload's pages, unless a cache in the page of the header runs
over its end. -/
theorem footerPosition_le (hpage : 0 < page) (hitems : ∀ k ∉ sbItems, size k = 0) :
    footerPosition page 0 size ≤ payloadStart page size ∧
      ((size .maptblCache ≤ page - segmentHeaderSize →
        size .segHeader + size .maptblCache ≤ padTo page (size .segHeader)) →
          payloadStart page size ≤ footerPosition page 0 size) := by
  unfold footerPosition payloadStart cacheStart
  rw [itemsEnd_of_header hitems, Nat.zero_add]
  split
  case isTrue => exact ⟨Nat.le_refl _, fun _ => Nat.le_refl _⟩
  case isFalse hsmall =>
    exact ⟨padTo_mono hpage (Nat.le_add_right _ _),
      fun h => padTo_le (h (Nat.not_lt.1 hsmall)) dvd_padTo⟩

theorem dvd_footerPosition {header : Nat} : page ∣ footerPosition page header size := by
  unfold footerPosition
  split <;> exact dvd_padTo

end

end Ssdfs
