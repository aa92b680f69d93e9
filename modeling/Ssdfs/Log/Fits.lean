import Ssdfs.Log.Place

namespace Ssdfs

open Align

/-- The extents follow each other with gaps shorter than a page, inside the pages counted. -/
structure PebContent.LaidOut (peb : PebContent) (layout : VolumeLayout) (segType : SegType) :
    Prop where
  ordered : peb.present.Pairwise fun k k' => peb.finish k ≤ peb.start k'
  near : peb.present.IsChain fun k k' => peb.start k' < peb.finish k + logPageSize layout segType
  inside : ∃ pages, calculateLogPages layout segType peb = .ok pages ∧
    ∀ k ∈ peb.present, peb.finish k ≤ pages * logPageSize layout segType

def itemsEnd (size : ExtentIndex → Nat) : Nat :=
  size .segHeader + size .blockBitmap + size .offsetTable + size .blockDescriptors

def cacheStart (page : Nat) (size : ExtentIndex → Nat) : Nat :=
  if size .maptblCache > page - segmentHeaderSize then padTo page (itemsEnd size) else itemsEnd size

def payloadStart (page : Nat) (size : ExtentIndex → Nat) : Nat :=
  padTo page (cacheStart page size + size .maptblCache)

def payloadEnd (page : Nat) (size : ExtentIndex → Nat) : Nat :=
  padTo page (payloadStart page size + size .logPayload)

def logEnd (page : Nat) (size : ExtentIndex → Nat) : Nat :=
  padTo page (payloadEnd page size + size .logFooter + size .blockBitmapBackup +
    size .offsetTableBackup)

section

variable {page erase x : Nat} {size : ExtentIndex → Nat}

theorem roundUp32_eq (hpage : 0 < page) (h : x + page ≤ 4294967296) :
    roundUp32 page x = padTo page x := by
  unfold roundUp32 padTo
  rw [Word.u32_of_lt (by omega)]

theorem roundUp32_of_le (hpage : 0 < page) (hlimit : erase + page ≤ 4294967296) (h : x ≤ erase) :
    roundUp32 page x = padTo page x := roundUp32_eq hpage (by omega)

theorem itemsEnd_le_cacheStart (hpage : 0 < page) : itemsEnd size ≤ cacheStart page size := by
  unfold cacheStart
  split
  · exact le_padTo hpage
  · exact Nat.le_refl _

theorem cacheEnd_le_payloadStart (hpage : 0 < page) :
    cacheStart page size + size .maptblCache ≤ payloadStart page size := le_padTo hpage

theorem payload_le_payloadEnd (hpage : 0 < page) :
    payloadStart page size + size .logPayload ≤ payloadEnd page size := le_padTo hpage

theorem tail_le_logEnd (hpage : 0 < page) : payloadEnd page size + size .logFooter +
    size .blockBitmapBackup + size .offsetTableBackup ≤ logEnd page size := le_padTo hpage

/-- Nothing wraps in the count of a log that fits into an erase block. -/
theorem logBytesCount_eq (hpage : 0 < page) (hlimit : erase + page ≤ 4294967296)
    (h : logEnd page size ≤ erase) : logBytesCount page size = logEnd page size := by
  have h₁ : itemsEnd size ≤ cacheStart page size := itemsEnd_le_cacheStart hpage
  have h₂ : cacheStart page size + size .maptblCache ≤ payloadStart page size :=
    cacheEnd_le_payloadStart hpage
  have h₃ : payloadStart page size + size .logPayload ≤ payloadEnd page size :=
    payload_le_payloadEnd hpage
  have h₄ : payloadEnd page size + size .logFooter + size .blockBitmapBackup +
    size .offsetTableBackup ≤ logEnd page size := tail_le_logEnd hpage
  have hitems : size .segHeader + size .blockBitmap + size .offsetTable + size .blockDescriptors =
    itemsEnd size := rfl
  have hround : ∀ x, x ≤ erase → roundUp32 page x = padTo page x :=
    fun x hx => roundUp32_of_le hpage hlimit hx
  unfold logBytesCount
  simp only
  rw [Word.u32_of_lt (n := size .segHeader + size .blockBitmap) (by omega),
    Word.u32_of_lt (n := _ + size .offsetTable) (by omega),
    Word.u32_of_lt (n := _ + size .blockDescriptors) (by omega), hitems,
    hround (itemsEnd size) (by omega)]
  change roundUp32 page (Word.u32 (Word.u32 (Word.u32 (roundUp32 page (Word.u32 (roundUp32 page
    (Word.u32 (cacheStart page size + _)) + _)) + _) + _) + _)) = _
  rw [Word.u32_of_lt (n := cacheStart page size + _) (by omega),
    hround (cacheStart page size + _) (by omega)]
  change roundUp32 page (Word.u32 (Word.u32 (Word.u32 (roundUp32 page (Word.u32
    (payloadStart page size + _)) + _) + _) + _)) = _
  rw [Word.u32_of_lt (n := payloadStart page size + _) (by omega),
    hround (payloadStart page size + _) (by omega)]
  change roundUp32 page (Word.u32 (Word.u32 (Word.u32 (payloadEnd page size + _) + _) + _)) = _
  rw [Word.u32_of_lt (n := payloadEnd page size + _) (by omega),
    Word.u32_of_lt (n := _ + size .blockBitmapBackup) (by omega),
    Word.u32_of_lt (n := _ + size .offsetTableBackup) (by omega), hround _ (by omega)]
  rfl

def itemsOffset (header : Nat) (size : ExtentIndex → Nat) : Nat :=
  Word.u32 (Word.u32 (Word.u32 (Word.u32 (header + size .blockDescriptors) + size .offsetTable) +
    size .blockBitmap) + size .segHeader)

def cacheOffset (page offset : Nat) (size : ExtentIndex → Nat) : Nat :=
  roundUp32 page (if size .maptblCache > page - segmentHeaderSize then
    Word.u32 (offset + size .maptblCache) else offset)

variable {header : Nat}

theorem itemsOffset_eq (h : header + itemsEnd size < 4294967296) :
    itemsOffset header size = header + itemsEnd size := by
  unfold itemsEnd at *
  unfold itemsOffset
  rw [Word.u32_of_lt (n := header + _) (by omega), Word.u32_of_lt (n := _ + size .offsetTable)
    (by omega), Word.u32_of_lt (n := _ + size .blockBitmap) (by omega), Word.u32_of_lt (by omega)]
  omega

theorem startOffset_blockBitmap :
    startOffset page header size .blockBitmap = Word.u32 (header + size .segHeader) := rfl

@[simp] theorem startOffset_offsetTable : startOffset page header size .offsetTable =
    Word.u32 (Word.u32 (header + size .blockBitmap) + size .segHeader) := rfl

@[simp] theorem startOffset_blockDescriptors : startOffset page header size .blockDescriptors =
    Word.u32 (Word.u32 (Word.u32 (header + size .offsetTable) + size .blockBitmap) +
      size .segHeader) := rfl

theorem startOffset_maptblCache : startOffset page header size .maptblCache =
    roundUp32 page (itemsOffset header size) := rfl

theorem startOffset_logPayload : startOffset page header size .logPayload =
    cacheOffset page (roundUp32 page (itemsOffset header size)) size := rfl

theorem startOffset_logFooter : startOffset page header size .logFooter =
    cacheOffset page (roundUp32 page (Word.u32 (roundUp32 page (itemsOffset header size) +
      size .logPayload))) size := rfl

theorem startOffset_blockBitmapBackup : startOffset page header size .blockBitmapBackup =
    roundUp32 page (Word.u32 (startOffset page header size .logFooter + size .logFooter)) := rfl

theorem startOffset_offsetTableBackup : startOffset page header size .offsetTableBackup =
    roundUp32 page (Word.u32 (Word.u32 (startOffset page header size .logFooter +
      size .blockBitmapBackup) + size .logFooter)) := rfl

theorem calculateLogPages_ok {layout : VolumeLayout} {segType : SegType} {peb : PebContent}
    {pages : Nat} (h : calculateLogPages layout segType peb = .ok pages) :
    logBytesCount (logPageSize layout segType) peb.size ≤ layout.env.eraseSize.toNat ∧
      pages * logPageSize layout segType = logBytesCount (logPageSize layout segType) peb.size := by
  obtain ⟨hle, h⟩ := bugOn_bind_eq_ok.1 h
  cases h
  refine ⟨Nat.not_lt.1 hle, ?_⟩
  exact Nat.div_mul_cancel (Nat.dvd_mul_left _ _)

theorem calculateLogPages_of_fit {layout : VolumeLayout} {segType : SegType} {peb : PebContent}
    (hpage : 0 < logPageSize layout segType)
    (hlimit : layout.env.eraseSize.toNat + logPageSize layout segType ≤ 4294967296)
    (h : logEnd (logPageSize layout segType) peb.size ≤ layout.env.eraseSize.toNat) :
    ∃ pages, calculateLogPages layout segType peb = .ok pages ∧
      pages * logPageSize layout segType = logEnd (logPageSize layout segType) peb.size := by
  refine ⟨logEnd (logPageSize layout segType) peb.size / logPageSize layout segType, ?_,
    Nat.div_mul_cancel dvd_padTo⟩
  unfold calculateLogPages
  simp only [logBytesCount_eq hpage hlimit h]
  rw [bugOn_of_not (by omega), Checked.ok_bind]

theorem present_eq {peb : PebContent} {ks : List ExtentIndex}
    (hks : ExtentIndex.all.filter (fun k => decide (k ∈ ks)) = ks)
    (hsize : ∀ k, k ∉ ks → peb.size k = 0) :
    peb.present = ks.filter fun k => decide (0 < peb.size k) := by
  unfold PebContent.present
  conv_rhs => rw [← hks, List.filter_filter]
  refine List.filter_congr fun k _ => ?_
  by_cases hk : k ∈ ks
  · simp [hk]
  · simp [hk, hsize k hk]

theorem ExtentIndex.pair_sublist {k k' : ExtentIndex} (h : k.rank < k'.rank) :
    List.Sublist [k, k'] ExtentIndex.all := by
  revert h
  cases k <;> cases k' <;> decide

@[simp] theorem PebContent.mem_present {peb : PebContent} {k : ExtentIndex} :
    k ∈ peb.present ↔ 0 < peb.size k := by
  unfold PebContent.present
  rw [List.mem_filter]
  exact ⟨fun h => of_decide_eq_true h.2, fun h => ⟨k.mem_all, decide_eq_true h⟩⟩

theorem PebContent.LaidOut.le_start {layout : VolumeLayout} {segType : SegType} {peb : PebContent}
    (h : peb.LaidOut layout segType) {k k' : ExtentIndex} (hrank : k.rank < k'.rank)
    (hk : 0 < peb.size k) (hk' : 0 < peb.size k') : peb.finish k ≤ peb.start k' := by
  have hsub := (ExtentIndex.pair_sublist hrank).filter fun k => decide (0 < peb.size k)
  rw [List.filter_cons_of_pos (by simpa using hk), List.filter_cons_of_pos (by simpa using hk')]
    at hsub
  exact (List.pairwise_cons.1 (h.ordered.sublist hsub)).1 k' (List.mem_singleton.2 rfl)

theorem PebContent.LaidOut.of_serial {layout : VolumeLayout} {segType : SegType} {peb : PebContent}
    {ks : List ExtentIndex} {pos : ExtentIndex → Nat} (hpage : 0 < logPageSize layout segType)
    (hks : ExtentIndex.all.filter (fun k => decide (k ∈ ks)) = ks)
    (hsize : ∀ k, k ∉ ks → peb.size k = 0) (hstart : ∀ k ∈ peb.present, peb.start k = pos k)
    (hserial : Serial (logPageSize layout segType) pos (fun k => pos k + peb.size k) ks)
    (hinside : ∃ pages, calculateLogPages layout segType peb = .ok pages ∧
      ∀ k ∈ peb.present, peb.finish k ≤ pages * logPageSize layout segType) :
    peb.LaidOut layout segType := by
  have hfinish : ∀ k ∈ peb.present, peb.finish k = pos k + peb.size k := fun k hk => by
    rw [PebContent.finish_eq, hstart k hk]
  have hord := (hserial.ordered fun k _ => Nat.le_add_right _ _).filter
    fun k => decide (0 < peb.size k)
  have hnear := hserial.near (p := fun k => decide (0 < peb.size k)) hpage fun k _ hk => by
    have : peb.size k = 0 := by simpa using hk
    rw [this, Nat.add_zero]
  rw [← present_eq hks hsize] at hord hnear
  refine ⟨hord.imp_of_mem fun hk hk' hle => ?_, hnear.imp_of_mem_imp fun k k' hk hk' hlt => ?_,
    hinside⟩
  · rwa [hfinish _ hk, hstart _ hk']
  · rwa [hfinish _ hk, hstart _ hk']

end

end Ssdfs
