import Ssdfs.Log.Fits

namespace Ssdfs

open Align

structure TableFits (page erase : Nat) (size : ExtentIndex → Nat) : Prop where
  erase : logEnd page size ≤ erase
  bitmap : padTo page (size .logFooter) + size .blockBitmapBackup ≤
    padTo page (size .logFooter + size .blockBitmapBackup)
  table : padTo page (size .logFooter + size .blockBitmapBackup) + size .offsetTableBackup ≤
    padTo page (size .logFooter + size .blockBitmapBackup + size .offsetTableBackup)

section

variable {page erase : Nat} {size : ExtentIndex → Nat}

theorem dvd_payloadStart : page ∣ payloadStart page size := dvd_padTo
theorem dvd_payloadEnd : page ∣ payloadEnd page size := dvd_padTo

theorem cacheOffset_of_no_cache (hpage : 0 < page) (hlimit : erase + page ≤ 4294967296)
    (hcache : size .maptblCache = 0) {offset : Nat} (hdvd : page ∣ offset) (h : offset ≤ erase) :
    cacheOffset page offset size = offset := by
  unfold cacheOffset
  rw [hcache, if_neg (Nat.not_lt_zero _), roundUp32_of_le hpage hlimit h, padTo_of_dvd hpage hdvd]

theorem payloadStart_of_no_cache (hcache : size .maptblCache = 0) :
    payloadStart page size = padTo page (itemsEnd size) := by
  unfold payloadStart cacheStart
  rw [hcache, if_neg (Nat.not_lt_zero _), Nat.add_zero]

theorem itemsEnd_le_payloadStart (hpage : 0 < page) : itemsEnd size ≤ payloadStart page size :=
  Nat.le_trans (itemsEnd_le_cacheStart hpage)
    (Nat.le_trans (Nat.le_add_right _ _) (cacheEnd_le_payloadStart hpage))

theorem logEnd_eq (hpage : 0 < page) : logEnd page size = payloadEnd page size +
    padTo page (size .logFooter + size .blockBitmapBackup + size .offsetTableBackup) := by
  rw [← padTo_add hpage dvd_payloadEnd, ← Nat.add_assoc, ← Nat.add_assoc]
  rfl

/-- Where the extents go if nothing wraps. -/
def tablePosition (page : Nat) (size : ExtentIndex → Nat) : ExtentIndex → Nat
  | .segHeader => 0
  | .blockBitmap => size .segHeader
  | .offsetTable => size .segHeader + size .blockBitmap
  | .blockDescriptors => size .segHeader + size .blockBitmap + size .offsetTable
  | .maptblCache => itemsEnd size
  | .logPayload => payloadStart page size
  | .logFooter => payloadEnd page size
  | .blockBitmapBackup => payloadEnd page size + padTo page (size .logFooter)
  | .offsetTableBackup =>
    payloadEnd page size + padTo page (size .logFooter + size .blockBitmapBackup)

theorem table_serial (hpage : 0 < page) (hcache : size .maptblCache = 0)
    (h : TableFits page erase size) :
    Serial page (tablePosition page size) (fun k => tablePosition page size k + size k)
      (tableItems true true) := by
  have hself : ∀ x, x ≤ padTo page x := fun x => le_padTo hpage
  have hstart : payloadStart page size = padTo page (itemsEnd size) :=
    payloadStart_of_no_cache hcache
  have hitems : size .segHeader + size .blockBitmap + size .offsetTable + size .blockDescriptors =
    itemsEnd size := rfl
  have hbitmap := h.bitmap
  have hmono : padTo page (size .logFooter + size .blockBitmapBackup) ≤
      padTo page (padTo page (size .logFooter) + size .blockBitmapBackup) :=
    padTo_mono hpage (Nat.add_le_add_right (hself _) _)
  have hend : payloadStart page size + size .logPayload ≤ payloadEnd page size :=
    payload_le_payloadEnd hpage
  simp only [Serial, tableItems, List.cons_append, List.nil_append, if_true,
    List.isChain_cons_cons, List.isChain_singleton, and_true, tablePosition]
  refine ⟨⟨by omega, by simpa using hself _⟩, ⟨by omega, hself _⟩, ⟨by omega, hself _⟩,
    ⟨?_, ?_⟩, ⟨hend, Nat.le_refl _⟩, ⟨?_, ?_⟩, ?_, ?_⟩
  · rw [hstart, ← hitems]
    exact hself _
  · rw [hstart, ← hitems]
  · exact Nat.add_le_add_left (hself _) _
  · rw [padTo_add hpage dvd_payloadEnd]
  · omega
  · rw [Nat.add_assoc, padTo_add hpage dvd_payloadEnd]
    exact Nat.add_le_add_left hmono _

theorem table_finish_le (hpage : 0 < page) (h : TableFits page erase size) {k : ExtentIndex}
    (hk : k ≠ .maptblCache) :
    tablePosition page size k + size k ≤ logEnd page size := by
  have hself : ∀ x, x ≤ padTo page x := fun x => le_padTo hpage
  have hstart : itemsEnd size ≤ payloadStart page size := itemsEnd_le_payloadStart hpage
  have hitems : size .segHeader + size .blockBitmap + size .offsetTable + size .blockDescriptors =
    itemsEnd size := rfl
  have hpayload : payloadStart page size + size .logPayload ≤ payloadEnd page size :=
    payload_le_payloadEnd hpage
  have htail := hself (size .logFooter + size .blockBitmapBackup + size .offsetTableBackup)
  have hmono : padTo page (size .logFooter + size .blockBitmapBackup) ≤
      padTo page (size .logFooter + size .blockBitmapBackup + size .offsetTableBackup) :=
    padTo_mono hpage (Nat.le_add_right _ _)
  have hbitmap := h.bitmap
  have htable := h.table
  rw [logEnd_eq hpage]
  cases k <;> simp only [tablePosition] <;> first | exact absurd rfl hk | omega

end

section

variable {page erase : Nat} {size : ExtentIndex → Nat} (hpage : 0 < page)
  (hlimit : erase + page ≤ 4294967296) (hdvd : page ∣ erase) (hcache : size .maptblCache = 0)

include hpage hlimit

theorem table_blockBitmap (h : size .segHeader ≤ erase) :
    startOffset page 0 size .blockBitmap = size .segHeader := by
  rw [startOffset_blockBitmap, Nat.zero_add, Word.u32_of_lt (by omega)]

theorem table_offsetTable (h : size .segHeader + size .blockBitmap ≤ erase) :
    startOffset page 0 size .offsetTable = size .segHeader + size .blockBitmap := by
  rw [startOffset_offsetTable, Nat.zero_add, Word.u32_of_lt (n := size .blockBitmap) (by omega),
    Word.u32_of_lt (by omega), Nat.add_comm]

theorem table_blockDescriptors
    (h : size .segHeader + size .blockBitmap + size .offsetTable ≤ erase) :
    startOffset page 0 size .blockDescriptors =
      size .segHeader + size .blockBitmap + size .offsetTable := by
  rw [startOffset_blockDescriptors, Nat.zero_add, Word.u32_of_lt (n := size .offsetTable) (by omega),
    Word.u32_of_lt (n := _ + size .blockBitmap) (by omega), Word.u32_of_lt (by omega)]
  omega

include hdvd hcache

theorem table_logPayload (h : itemsEnd size ≤ erase) :
    startOffset page 0 size .logPayload = payloadStart page size ∧
      payloadStart page size ≤ erase := by
  have hle : payloadStart page size ≤ erase := by
    rw [payloadStart_of_no_cache hcache]
    exact padTo_le h hdvd
  rw [startOffset_logPayload, itemsOffset_eq (by omega), Nat.zero_add,
    roundUp32_of_le hpage hlimit h, ← payloadStart_of_no_cache hcache,
    cacheOffset_of_no_cache hpage hlimit hcache dvd_payloadStart hle]
  exact ⟨rfl, hle⟩

theorem table_logFooter (h : payloadStart page size + size .logPayload ≤ erase) :
    startOffset page 0 size .logFooter = payloadEnd page size ∧ payloadEnd page size ≤ erase := by
  have hitems : itemsEnd size ≤ payloadStart page size := by
    rw [payloadStart_of_no_cache hcache]
    exact le_padTo hpage
  have hle : payloadEnd page size ≤ erase := padTo_le h hdvd
  rw [startOffset_logFooter, itemsOffset_eq (by omega), Nat.zero_add,
    roundUp32_of_le (x := itemsEnd size) hpage hlimit (by omega), ← payloadStart_of_no_cache hcache,
    Word.u32_of_lt (by omega), roundUp32_of_le hpage hlimit h]
  exact ⟨cacheOffset_of_no_cache hpage hlimit hcache dvd_payloadEnd hle, hle⟩

theorem table_blockBitmapBackup (hfooter : payloadEnd page size + size .logFooter ≤ erase)
    (h : payloadStart page size + size .logPayload ≤ erase) :
    startOffset page 0 size .blockBitmapBackup =
      payloadEnd page size + padTo page (size .logFooter) := by
  rw [startOffset_blockBitmapBackup, (table_logFooter hpage hlimit hdvd hcache h).1,
    Word.u32_of_lt (by omega), roundUp32_of_le hpage hlimit hfooter,
    padTo_add hpage dvd_payloadEnd]

theorem table_offsetTableBackup
    (hbackup : payloadEnd page size + (size .logFooter + size .blockBitmapBackup) ≤ erase)
    (h : payloadStart page size + size .logPayload ≤ erase) :
    startOffset page 0 size .offsetTableBackup =
      payloadEnd page size + padTo page (size .logFooter + size .blockBitmapBackup) := by
  rw [startOffset_offsetTableBackup, (table_logFooter hpage hlimit hdvd hcache h).1,
    Word.u32_of_lt (n := payloadEnd page size + _) (by omega), Word.u32_of_lt (by omega),
    Nat.add_assoc, Nat.add_comm (size .blockBitmapBackup), roundUp32_of_le hpage hlimit hbackup,
    padTo_add hpage dvd_payloadEnd]

theorem startOffset_table (h : logEnd page size ≤ erase) {k : ExtentIndex}
    (hk : k ≠ .maptblCache) : startOffset page 0 size k = tablePosition page size k ∧
      tablePosition page size k ≤ erase := by
  have h₁ : itemsEnd size ≤ payloadStart page size := itemsEnd_le_payloadStart hpage
  have h₂ : payloadStart page size + size .logPayload ≤ payloadEnd page size :=
    payload_le_payloadEnd hpage
  have h₃ := Nat.le_trans (tail_le_logEnd hpage) h
  have hitems : size .segHeader + size .blockBitmap + size .offsetTable + size .blockDescriptors =
    itemsEnd size := rfl
  cases k with
  | segHeader => exact ⟨rfl, Nat.zero_le _⟩
  | blockBitmap => exact ⟨table_blockBitmap hpage hlimit (by omega), by
      simp only [tablePosition]; omega⟩
  | offsetTable => exact ⟨table_offsetTable hpage hlimit (by omega), by
      simp only [tablePosition]; omega⟩
  | blockDescriptors => exact ⟨table_blockDescriptors hpage hlimit (by omega), by
      simp only [tablePosition]; omega⟩
  | maptblCache => exact absurd rfl hk
  | logPayload => exact table_logPayload hpage hlimit hdvd hcache (by omega)
  | logFooter => exact table_logFooter hpage hlimit hdvd hcache (by omega)
  | blockBitmapBackup =>
    refine ⟨table_blockBitmapBackup hpage hlimit hdvd hcache (by omega) (by omega), ?_⟩
    simp only [tablePosition]
    rw [← padTo_add hpage dvd_payloadEnd]
    exact padTo_le (by omega) hdvd
  | offsetTableBackup =>
    refine ⟨table_offsetTableBackup hpage hlimit hdvd hcache (by omega) (by omega), ?_⟩
    simp only [tablePosition]
    rw [← padTo_add hpage dvd_payloadEnd]
    exact padTo_le (by omega) hdvd

end

section

variable {layout : VolumeLayout} {segType : SegType} {peb : PebContent}

theorem PebContent.LaidOut.counted (h : peb.LaidOut layout segType)
    (hpage : 0 < logPageSize layout segType)
    (hlimit : layout.env.eraseSize.toNat + logPageSize layout segType ≤ 4294967296)
    (hend : logEnd (logPageSize layout segType) peb.size ≤ layout.env.eraseSize.toNat)
    {k : ExtentIndex} (hk : 0 < peb.size k) :
    peb.finish k ≤ logEnd (logPageSize layout segType) peb.size := by
  obtain ⟨pages, hpages, hfinish⟩ := h.inside
  have hbytes := (calculateLogPages_ok hpages).2
  rw [logBytesCount_eq hpage hlimit hend] at hbytes
  exact hbytes ▸ hfinish k (PebContent.mem_present.2 hk)

theorem PebContent.LaidOut.finish_le_erase (h : peb.LaidOut layout segType) {k : ExtentIndex}
    (hk : 0 < peb.size k) : peb.finish k ≤ layout.env.eraseSize.toNat := by
  obtain ⟨pages, hpages, hfinish⟩ := h.inside
  obtain ⟨hle, hbytes⟩ := calculateLogPages_ok hpages
  exact Nat.le_trans (hfinish k (PebContent.mem_present.2 hk)) (hbytes ▸ hle)

theorem PebContent.LaidOut.finish_le (h : peb.LaidOut layout segType) {k : ExtentIndex}
    {pos : Nat} (hstart : 0 < peb.size k → peb.start k = Word.u32 pos)
    (hpos : pos ≤ layout.env.eraseSize.toNat) : pos + peb.size k ≤ layout.env.eraseSize.toNat := by
  rcases Nat.eq_zero_or_pos (peb.size k) with hk | hk
  · omega
  · have hin := h.finish_le_erase hk
    have herase := layout.env.eraseSize.toNat_lt
    rwa [PebContent.finish_eq, hstart hk, Word.u32_of_lt (by omega)] at hin

variable (hpage : 0 < logPageSize layout segType)
  (hlimit : layout.env.eraseSize.toNat + logPageSize layout segType ≤ 4294967296)
  (hdvd : logPageSize layout segType ∣ layout.env.eraseSize.toNat)
  (hcache : peb.size .maptblCache = 0)
  (hstart : ∀ k, 0 < peb.size k → peb.start k =
    Word.u32 (startOffset (logPageSize layout segType) 0 peb.size k))

include hpage hlimit hdvd hcache hstart

theorem logEnd_le_of_laidOut (h : peb.LaidOut layout segType) :
    logEnd (logPageSize layout segType) peb.size ≤ layout.env.eraseSize.toNat := by
  have hstep : ∀ {k pos}, startOffset (logPageSize layout segType) 0 peb.size k = pos →
      pos ≤ layout.env.eraseSize.toNat → pos + peb.size k ≤ layout.env.eraseSize.toNat :=
    fun hk hpos => h.finish_le (fun hpresent => by rw [hstart _ hpresent, hk]) hpos
  have hheader := hstep startOffset_header (Nat.zero_le _)
  have hbitmap := hstep (table_blockBitmap hpage hlimit (by omega)) (by omega)
  have htable := hstep (table_offsetTable hpage hlimit hbitmap) hbitmap
  have hitems : itemsEnd peb.size ≤ layout.env.eraseSize.toNat :=
    hstep (table_blockDescriptors hpage hlimit htable) htable
  have hpayload := table_logPayload hpage hlimit hdvd hcache hitems
  have hpayloadEnd := hstep hpayload.1 hpayload.2
  have hfooter := table_logFooter hpage hlimit hdvd hcache hpayloadEnd
  have hfooterEnd := hstep hfooter.1 hfooter.2
  have hpos : payloadEnd (logPageSize layout segType) peb.size +
      padTo (logPageSize layout segType) (peb.size .logFooter) ≤ layout.env.eraseSize.toNat := by
    rw [← padTo_add hpage dvd_payloadEnd]
    exact padTo_le hfooterEnd hdvd
  have hself : peb.size .logFooter ≤ padTo (logPageSize layout segType) (peb.size .logFooter) :=
    le_padTo hpage
  have hbackup := hstep (table_blockBitmapBackup hpage hlimit hdvd hcache hfooterEnd hpayloadEnd)
    hpos
  have hbackup' : payloadEnd (logPageSize layout segType) peb.size +
      (peb.size .logFooter + peb.size .blockBitmapBackup) ≤ layout.env.eraseSize.toNat := by omega
  have hpos' : payloadEnd (logPageSize layout segType) peb.size +
      padTo (logPageSize layout segType) (peb.size .logFooter + peb.size .blockBitmapBackup) ≤
        layout.env.eraseSize.toNat := by
    rw [← padTo_add hpage dvd_payloadEnd]
    exact padTo_le hbackup' hdvd
  have hself' : peb.size .logFooter + peb.size .blockBitmapBackup ≤
    padTo (logPageSize layout segType) (peb.size .logFooter + peb.size .blockBitmapBackup) :=
      le_padTo hpage
  have htableBackup := hstep
    (table_offsetTableBackup hpage hlimit hdvd hcache hbackup' hpayloadEnd) hpos'
  exact padTo_le (by omega) hdvd

theorem tableFits_of_laidOut (h : peb.LaidOut layout segType) :
    TableFits (logPageSize layout segType) layout.env.eraseSize.toNat peb.size := by
  have hend := logEnd_le_of_laidOut hpage hlimit hdvd hcache hstart h
  have herase := layout.env.eraseSize.toNat_lt
  have hplaced : ∀ k, k ≠ .maptblCache → 0 < peb.size k →
      peb.start k = tablePosition (logPageSize layout segType) peb.size k := fun k hk hpresent => by
    obtain ⟨heq, hle⟩ := startOffset_table hpage hlimit hdvd hcache hend hk
    rw [hstart k hpresent, heq, Word.u32_of_lt (by omega)]
  have hlog : logEnd _ peb.size = _ := logEnd_eq hpage
  refine ⟨hend, ?_, ?_⟩
  · rcases Nat.eq_zero_or_pos (peb.size .blockBitmapBackup) with hb | hb
    · rw [hb]
      exact Nat.le_refl _
    have hbitmap := hplaced .blockBitmapBackup (by decide) hb
    rcases Nat.eq_zero_or_pos (peb.size .offsetTableBackup) with ht | ht
    · have hin := h.counted hpage hlimit hend hb
      rw [PebContent.finish_eq, hbitmap, hlog, ht, Nat.add_zero] at hin
      simp only [tablePosition] at hin
      omega
    · have hle : peb.finish .blockBitmapBackup ≤ peb.start .offsetTableBackup :=
        h.le_start (by decide) hb ht
      rw [PebContent.finish_eq, hbitmap, hplaced .offsetTableBackup (by decide) ht] at hle
      simp only [tablePosition] at hle
      omega
  · rcases Nat.eq_zero_or_pos (peb.size .offsetTableBackup) with ht | ht
    · rw [ht]
      exact Nat.le_refl _
    · have hin := h.counted hpage hlimit hend ht
      rw [PebContent.finish_eq, hplaced .offsetTableBackup (by decide) ht, hlog] at hin
      simp only [tablePosition] at hin
      omega

theorem laidOut_of_tableFits
    (h : TableFits (logPageSize layout segType) layout.env.eraseSize.toNat peb.size) :
    peb.LaidOut layout segType := by
  have herase := layout.env.eraseSize.toNat_lt
  obtain ⟨pages, hpages, hbytes⟩ := calculateLogPages_of_fit hpage hlimit h.erase
  have hne : ∀ k ∈ peb.present, k ≠ .maptblCache := fun k hk heq => by
    have := PebContent.mem_present.1 hk
    rw [heq, hcache] at this
    exact Nat.lt_irrefl _ this
  have hplaced : ∀ k ∈ peb.present, peb.start k =
      tablePosition (logPageSize layout segType) peb.size k := fun k hk => by
    obtain ⟨heq, hle⟩ := startOffset_table hpage hlimit hdvd hcache h.erase (hne k hk)
    rw [hstart k (PebContent.mem_present.1 hk), heq, Word.u32_of_lt (by omega)]
  have hserial := table_serial hpage hcache h
  refine PebContent.LaidOut.of_serial hpage rfl (fun k hk => ?_) hplaced hserial
    ⟨pages, hpages, fun k hk => ?_⟩
  · cases k with
    | maptblCache => exact hcache
    | _ => exact absurd (by decide) hk
  · rw [hbytes, PebContent.finish_eq, hplaced k hk]
    exact table_finish_le hpage h (hne k hk)

end

end Ssdfs
