import Mathlib.Data.List.Nodup
import Ssdfs.Write.Zones

namespace Ssdfs

def zonesOpen (requests : List ZoneRequest) : List ZoneRange :=
  requests.foldl (fun zones request =>
    match request with
    | .openZone range => zones ++ [range]
    | .finishZone range => zones.erase range) []

namespace SegsArray

def writtenSites (a : SegsArray) : List (Nat × Nat) :=
  (List.range a.segsCount).flatMap fun i => (List.range (a.segs i).pebsCount).map (i, ·)

def closes (a : SegsArray) (site : Nat × Nat) : Bool :=
  decide ((a.segs site.1).segType = some .initialSnapshot)

@[simp] theorem mem_writtenSites {a : SegsArray} {site : Nat × Nat} : site ∈ a.writtenSites ↔ site ∈ a.written := by
  unfold writtenSites written
  simp only [List.mem_flatMap, List.mem_range, List.mem_map, Set.mem_ofPred_eq]
  constructor
  · rintro ⟨i, hi, j, hj, rfl⟩
    exact ⟨hi, hj⟩
  · exact fun ⟨hi, hj⟩ => ⟨site.1, hi, site.2, hj, rfl⟩

theorem writtenSites_nodup (a : SegsArray) : a.writtenSites.Nodup := by
  unfold writtenSites
  apply List.nodup_flatMap.2
  constructor
  · intro i _
    exact List.Nodup.map (fun _ _ h => (Prod.mk.inj h).2) List.nodup_range
  · apply List.nodup_range.imp
    intro i i' hne site h h'
    obtain ⟨_, -, rfl⟩ := List.mem_map.1 h
    obtain ⟨_, -, heq⟩ := List.mem_map.1 h'
    exact hne (Prod.mk.inj heq).1.symm

end SegsArray

section

variable {layout : VolumeLayout} {a : SegsArray} {fuel : Nat}

theorem writeSegmentsOnZones_eq (st : WriteState × List ZoneRequest) :
    writeSegmentsOnZones layout fuel a st =
      Checked.forEach (fun site => writePebOnZones layout fuel a site.1 site.2) a.writtenSites st := by
  unfold writeSegmentsOnZones SegsArray.writtenSites
  rw [Checked.forEach_flatMap, Checked.forEach_range]
  congr 1
  funext i st
  rw [Checked.forEach_map, Checked.forEach_range]

def pebWrites (layout : VolumeLayout) (pebId n : Nat) : List (Nat × Nat) :=
  (List.range n).map fun i =>
    (pebId * layout.env.eraseSize.toNat + layout.pageSize.bytes * i, layout.pageSize.bytes)

theorem pebWrites_succ (layout : VolumeLayout) (pebId n : Nat) :
    pebWrites layout pebId (n + 1) = pebWrites layout pebId n ++
      [(pebId * layout.env.eraseSize.toNat + layout.pageSize.bytes * n, layout.pageSize.bytes)] := by
  unfold pebWrites
  rw [List.range_succ, List.map_append, List.map_singleton]

variable {pebId n : Nat}

theorem zoneStart_eq {x : Nat} (hx : x < layout.env.eraseSize.toNat) :
    (pebId * layout.env.eraseSize.toNat + x) / layout.env.eraseSize.toNat * layout.env.eraseSize.toNat =
      pebId * layout.env.eraseSize.toNat := by
  rw [Nat.add_comm, Nat.add_mul_div_right _ _ (Nat.zero_lt_of_lt hx), Nat.div_eq_of_lt hx, Nat.zero_add]

theorem opensZone_iff {base x : Nat} (hpage : x = 0 ∨ reservedVbrSize < x) :
    (base = base + x ∨ base + x = reservedVbrSize) ↔ x = 0 := by
  unfold reservedVbrSize at *
  omega

theorem znsWrite_page {x : Nat} (hx : x + layout.pageSize.bytes ≤ layout.env.eraseSize.toNat)
    (hpage : x = 0 ∨ reservedVbrSize < x) (requests : List ZoneRequest) :
    znsWrite layout (pebId * layout.env.eraseSize.toNat + x, layout.pageSize.bytes) requests =
      .ok (if x = 0 then requests ++ [.openZone (zoneRange layout pebId)] else requests) := by
  have hbytes := layout.pageSize.bytes_ge
  have hlt : x < layout.env.eraseSize.toNat := by omega
  unfold znsWrite zoneRange
  simp only [zoneStart_eq hlt, opensZone_iff hpage]
  rw [if_neg (by omega)]

theorem writeOpenZones_page {x : Nat} (hzns : layout.env.deviceType = .zns)
    (hx : x < layout.env.eraseSize.toNat) (hpage : x = 0 ∨ reservedVbrSize < x) (openZones : Nat) :
    writeOpenZones layout (pebId * layout.env.eraseSize.toNat + x) openZones =
      if x = 0 then Word.u32 (openZones + 1) else openZones := by
  unfold reservedVbrSize at hpage
  unfold writeOpenZones
  simp only [zoneStart_eq hx, hzns, true_and]
  congr 1
  apply propext
  exact opensZone_iff hpage

theorem page_eq_zero_or (i : Nat) :
    layout.pageSize.bytes * i = 0 ∨ reservedVbrSize < layout.pageSize.bytes * i := by
  have hpage := layout.pageSize.bytes_ge
  cases i with
  | zero => exact .inl (Nat.mul_zero _)
  | succ i =>
    have hle := Nat.le_mul_of_pos_right layout.pageSize.bytes (Nat.succ_pos i)
    exact .inr (Nat.lt_of_lt_of_le (Nat.lt_of_lt_of_le (by decide) hpage) hle)

theorem forEach_znsWrite (hpos : 0 < n) (hle : layout.pageSize.bytes * n ≤ layout.env.eraseSize.toNat)
    (requests : List ZoneRequest) :
    Checked.forEach (znsWrite layout) (pebWrites layout pebId n) requests =
      .ok (requests ++ [.openZone (zoneRange layout pebId)]) := by
  induction n with
  | zero => exact absurd hpos (Nat.lt_irrefl 0)
  | succ n ih =>
    rw [Nat.mul_succ] at hle
    have hbytes := layout.pageSize.bytes_ge
    rw [pebWrites_succ, Checked.forEach_append]
    cases n with
    | zero =>
      change Checked.forEach (znsWrite layout) [_] requests = _
      rw [Checked.forEach_singleton, znsWrite_page hle (page_eq_zero_or 0), Nat.mul_zero, if_pos rfl]
    | succ n =>
      have hne : layout.pageSize.bytes * (n + 1) ≠ 0 := Nat.mul_ne_zero (by omega) (Nat.succ_ne_zero n)
      rw [ih (Nat.succ_pos n) (by omega), Checked.ok_bind, Checked.forEach_singleton,
        znsWrite_page hle (page_eq_zero_or _), if_neg hne]

theorem foldl_writeOpenZones (hzns : layout.env.deviceType = .zns) (hpos : 0 < n)
    (hle : layout.pageSize.bytes * n ≤ layout.env.eraseSize.toNat) (openZones : Nat) :
    (pebWrites layout pebId n).foldl (fun k r => writeOpenZones layout r.1 k) openZones =
      Word.u32 (openZones + 1) := by
  induction n with
  | zero => exact absurd hpos (Nat.lt_irrefl 0)
  | succ n ih =>
    rw [Nat.mul_succ] at hle
    have hbytes := layout.pageSize.bytes_ge
    rw [pebWrites_succ, List.foldl_append]
    cases n with
    | zero =>
      change writeOpenZones layout _ openZones = _
      rw [writeOpenZones_page hzns (by omega) (page_eq_zero_or 0), Nat.mul_zero, if_pos rfl]
    | succ n =>
      have hne : layout.pageSize.bytes * (n + 1) ≠ 0 := Nat.mul_ne_zero (by omega) (Nat.succ_ne_zero n)
      rw [ih (Nat.succ_pos n) (by omega)]
      change writeOpenZones layout _ _ = _
      rw [writeOpenZones_page hzns (by omega) (page_eq_zero_or _), if_neg hne]

end

/-- A volume that passes its check before the write, and whose logs begin in their first pages. -/
structure ReadyToWrite (layout : VolumeLayout) (fuel : Nat) (a : SegsArray) : Prop where
  pages : layout.LogPagesSet
  fuel : layout.env.eraseSize.toNat < fuel
  capacity : a.segsCount ≤ a.segsCapacity
  check : checkLayoutBeforeWrite layout a = .ok ()
  first : ∀ site ∈ a.written, ∀ k, (a.content site).items.head? = some k →
    (a.content site).start k < layout.pageSize.bytes

namespace SegsArray

def zoneOf (a : SegsArray) (layout : VolumeLayout) (site : Nat × Nat) : ZoneRange :=
  zoneRange layout (a.content site).pebId

def requestsOf (a : SegsArray) (layout : VolumeLayout) (site : Nat × Nat) : List ZoneRequest :=
  .openZone (a.zoneOf layout site) ::
    if a.closes site then [.finishZone (a.zoneOf layout site)] else []

end SegsArray

section

variable {layout : VolumeLayout} {fuel : Nat} {a : SegsArray} {site site' : Nat × Nat}

namespace ReadyToWrite

theorem sector_dvd (h : ReadyToWrite layout fuel a) : 512 ∣ layout.env.eraseSize.toNat :=
  Nat.dvd_trans (Nat.dvd_trans (by decide) layout.pageSize.page_dvd_bytes) h.pages.page_dvd

theorem exists_fits (h : ReadyToWrite layout fuel a) (hsite : site ∈ a.written) :
    ∃ k ∈ (a.content site).items, (a.content site).Fits layout k := by
  obtain ⟨bmap, bmap', blks, hcheck⟩ := checkLayoutBeforeWrite_site h.check hsite
  obtain ⟨hitems, hpacked, -⟩ := checkPebBeforeWrite_ok h.pages.room hcheck
  obtain ⟨k, hk⟩ := List.exists_mem_of_ne_nil _ hitems
  exact ⟨k, hk, hpacked.fits k hk⟩

theorem offset_lt (h : ReadyToWrite layout fuel a) (hsite : site ∈ a.written) :
    (a.content site).pebId * layout.env.eraseSize.toNat < 18446744073709551616 := by
  obtain ⟨k, -, hfits⟩ := h.exists_fits hsite
  have hvolume := hfits.volume
  have hfs := layout.env.fsSize.toNat_lt
  omega

/-- No two contents are written to one PEB: they would share its first block. -/
theorem pebId_injOn (h : ReadyToWrite layout fuel a) :
    a.written.InjOn fun site => (a.content site).pebId := by
  obtain ⟨bmap, hplaced⟩ := checkLayoutBeforeWrite_ok h.pages.room h.check
  have hfirst : ∀ site ∈ a.written, (a.content site).pebId * layout.env.eraseSize.toNat /
      layout.pageSize.bytes ∈ (a.content site).blks layout := by
    intro site hsite
    obtain ⟨bmap, bmap', blks, hcheck⟩ := checkLayoutBeforeWrite_site h.check hsite
    obtain ⟨hitems, -⟩ := checkPebBeforeWrite_ok h.pages.room hcheck
    obtain ⟨k, hk⟩ : ∃ k, (a.content site).items.head? = some k :=
      ⟨_, List.head?_eq_some_head hitems⟩
    have hmem := List.mem_of_head? hk
    have hstart := h.first site hsite k hk
    have hpos := ((hplaced.packed site hsite).fits k hmem).size_pos
    refine ⟨k, hmem, (a.content site).start k, Nat.le_refl _, hpos, ?_⟩
    rw [Nat.div_eq_of_lt hstart, Nat.add_zero]
  intro site hsite site' hsite' heq
  have hblk := hfirst site' hsite'
  rw [← show (a.content site).pebId = (a.content site').pebId from heq] at hblk
  exact hplaced.shares.eq_of_mem hsite hsite' (hfirst site hsite) hblk

theorem zoneOf_injOn (h : ReadyToWrite layout fuel a) : a.written.InjOn (a.zoneOf layout) := by
  intro site hsite site' hsite' heq
  apply h.pebId_injOn hsite hsite'
  obtain ⟨m, hm⟩ := h.sector_dvd
  obtain ⟨k, -, hfits⟩ := h.exists_fits hsite
  have hpos : 0 < m := by
    have := hfits.size_pos
    have := hfits.erase
    omega
  have hsector := congrArg ZoneRange.sector heq
  unfold SegsArray.zoneOf zoneRange at hsector
  simp only [hm] at hsector
  rw [Nat.mul_left_comm, Nat.mul_div_cancel_left _ (by decide), Nat.mul_left_comm,
    Nat.mul_div_cancel_left _ (by decide)] at hsector
  exact Nat.eq_of_mul_eq_mul_right hpos hsector

theorem znsCheckPeb_eq (h : ReadyToWrite layout fuel a) (hsite : site ∈ a.written) (close : Bool)
    (requests : List ZoneRequest) :
    znsCheckPeb layout (Word.u64 ((a.content site).pebId * layout.env.eraseSize.toNat)) close
      requests = requests ++ if close then [.finishZone (a.zoneOf layout site)] else [] := by
  obtain ⟨m, hm⟩ := h.sector_dvd
  have hsectors : (layout.env.eraseSize.toNat + 512 - 1) / 512 = layout.env.eraseSize.toNat / 512 := by
    omega
  unfold znsCheckPeb SegsArray.zoneOf zoneRange
  rw [Word.u64_of_lt (h.offset_lt hsite), hsectors]
  cases close with
  | false => exact (List.append_nil _).symm
  | true => rfl

end ReadyToWrite

theorem closePeb_zns (hzns : layout.env.deviceType = .zns) (segType : Option MetaIndex) (n : Nat) :
    closePeb layout (fun _ => .ok ()) segType (Word.u32 (n + 1)) =
      .ok (if segType = some .initialSnapshot then Word.u32 n else Word.u32 (n + 1)) := by
  unfold closePeb
  rw [hzns]
  simp only [Checked.ok_bind, decide_eq_true_eq]
  split
  · have hsub : Word.sub32 (Word.u32 (n + 1)) 1 = Word.u32 n := by
      unfold Word.sub32 Word.u32
      omega
    rw [hsub]
  · rfl

def SegsArray.leftOpen (a : SegsArray) (sites : List (Nat × Nat)) : List (Nat × Nat) :=
  sites.filter fun site => !a.closes site

theorem writePebOnZones_settles (h : ReadyToWrite layout fuel a)
    (hzns : layout.env.deviceType = .zns) (hsite : site ∈ a.written) {w : WriteState} {n : Nat}
    (hempty : w.bufferOffset = 0) (hzones : w.openZones = Word.u32 n) (requests : List ZoneRequest) :
    ∃ w', writePebOnZones layout fuel a site.1 site.2 (w, requests) =
        .ok (w', requests ++ a.requestsOf layout site) ∧
      w'.bufferOffset = 0 ∧ w'.openZones = Word.u32 (n + (a.leftOpen [site]).length) := by
  obtain ⟨bmap, bmap', blks, hcheck⟩ := checkLayoutBeforeWrite_site h.check hsite
  obtain ⟨v, k, hv, hwritten, hpos, hwrites, hle⟩ :=
    writeContent_pages h.pages.page_dvd h.fuel hcheck (h.first site hsite) hempty
  have hflushed : v.openZones = Word.u32 (n + 1) := by
    obtain ⟨writes, hwrites', hzones'⟩ := writeContent_flushed hv
    have heq := List.append_cancel_left (hwrites'.symm.trans hwrites)
    rw [hzones', heq, hzones]
    refine (foldl_writeOpenZones hzns hpos hle _).trans ?_
    unfold Word.u32
    exact Nat.mod_add_mod n _ 1
  have hclose := closePeb_zns hzns (a.segs site.1).segType n
  have hrun : ∃ w', writePeb layout fuel (fun _ => .ok ()) a site.1 site.2 w = .ok w' ∧
      w'.writes = v.writes ∧ w'.bufferOffset = 0 ∧
        w'.openZones = Word.u32 (n + (a.leftOpen [site]).length) := by
    unfold writePeb
    have hlt := Nat.lt_of_lt_of_le hsite.1 h.capacity
    have hcontent : writeContent layout fuel (a.content (site.1, site.2)) w = .ok v := hv
    rw [failIf_of_not (by omega), Checked.ok_bind, failIf_of_not (Nat.not_le.2 hsite.2),
      Checked.ok_bind, hcontent, Checked.ok_bind, hflushed, hclose, Checked.ok_bind]
    refine ⟨_, rfl, rfl, hwritten.empty, ?_⟩
    unfold SegsArray.leftOpen SegsArray.closes
    by_cases hsnap : (a.segs site.1).segType = some .initialSnapshot <;> simp [hsnap]
  obtain ⟨w', hw', hwrites', hbuf, hopen⟩ := hrun
  refine ⟨w', ?_, hbuf, hopen⟩
  unfold writePebOnZones
  simp only
  rw [hw', Checked.ok_bind, hwrites', hwrites, List.drop_left]
  change Checked.forEach (znsWrite layout) (pebWrites layout (a.content site).pebId k) requests >>= _ = _
  rw [forEach_znsWrite hpos hle, Checked.ok_bind]
  have hcheckPeb := h.znsCheckPeb_eq hsite (a.closes site)
    (requests ++ [.openZone (zoneRange layout (a.content site).pebId)])
  refine congrArg (fun r => Except.ok (w', r)) (hcheckPeb.trans ?_)
  rw [List.append_assoc]
  rfl

@[simp] theorem SegsArray.leftOpen_append (a : SegsArray) (sites sites' : List (Nat × Nat)) :
    a.leftOpen (sites ++ sites') = a.leftOpen sites ++ a.leftOpen sites' := List.filter_append ..

theorem writeSites_settles (h : ReadyToWrite layout fuel a) (hzns : layout.env.deviceType = .zns)
    {sites : List (Nat × Nat)} (hsites : ∀ site ∈ sites, site ∈ a.written) {w : WriteState} {n : Nat}
    (hempty : w.bufferOffset = 0) (hzones : w.openZones = Word.u32 n) (requests : List ZoneRequest) :
    ∃ w', Checked.forEach (fun site => writePebOnZones layout fuel a site.1 site.2) sites
        (w, requests) = .ok (w', requests ++ sites.flatMap (a.requestsOf layout)) ∧
      w'.openZones = Word.u32 (n + (a.leftOpen sites).length) := by
  induction sites generalizing w n requests with
  | nil => exact ⟨w, by rw [List.flatMap_nil, List.append_nil]; rfl, hzones⟩
  | cons site sites ih =>
    obtain ⟨hsite, hsites⟩ := List.forall_mem_cons.1 hsites
    obtain ⟨v, hv, hempty, hzones⟩ := writePebOnZones_settles h hzns hsite hempty hzones requests
    obtain ⟨w', hw', hopen⟩ := ih hsites hempty hzones (requests ++ a.requestsOf layout site)
    refine ⟨w', ?_, ?_⟩
    · change writePebOnZones layout fuel a site.1 site.2 (w, requests) >>= _ = _
      rw [hv, Checked.ok_bind, hw', List.flatMap_cons, List.append_assoc]
    · have happ := a.leftOpen_append [site] sites
      rw [List.singleton_append] at happ
      rw [hopen, happ, List.length_append, Nat.add_assoc]

theorem zonesOpen_append (requests requests' : List ZoneRequest) :
    zonesOpen (requests ++ requests') = requests'.foldl (fun zones request =>
      match request with
      | .openZone range => zones ++ [range]
      | .finishZone range => zones.erase range) (zonesOpen requests) := List.foldl_append

theorem zonesOpen_flatMap {sites : List (Nat × Nat)} (hnodup : (sites.map (a.zoneOf layout)).Nodup) :
    zonesOpen (sites.flatMap (a.requestsOf layout)) = (a.leftOpen sites).map (a.zoneOf layout) := by
  induction sites using List.reverseRecOn with
  | nil => rfl
  | append_singleton sites site ih =>
    rw [List.map_append, List.map_singleton] at hnodup
    obtain ⟨hnodup, -, hnew⟩ := List.nodup_append.1 hnodup
    rw [List.flatMap_append, List.flatMap_singleton, zonesOpen_append, ih hnodup, a.leftOpen_append,
      List.map_append]
    have hnot : a.zoneOf layout site ∉ (a.leftOpen sites).map (a.zoneOf layout) := by
      intro hmem
      obtain ⟨site', hsite', heq⟩ := List.mem_map.1 hmem
      exact hnew _ (List.mem_map.2 ⟨site', (List.mem_filter.1 hsite').1, rfl⟩) _
        (List.mem_singleton.2 rfl) heq
    unfold SegsArray.requestsOf
    cases hclose : a.closes site with
    | false => simp [SegsArray.leftOpen, hclose]
    | true =>
      have hleft : a.leftOpen [site] = [] := by simp [SegsArray.leftOpen, hclose]
      rw [hleft, List.map_nil, List.append_nil]
      change ((a.leftOpen sites).map (a.zoneOf layout) ++ [a.zoneOf layout site]).erase _ = _
      rw [List.erase_append_right _ hnot, List.erase_cons_head, List.append_nil]

def ZoneRequest.opened : ZoneRequest → Option ZoneRange
  | .openZone range => some range
  | .finishZone _ => none

def ZoneRequest.finished : ZoneRequest → Option ZoneRange
  | .openZone _ => none
  | .finishZone range => some range

/-- The requests and the counter of open zones after everything has been written. -/
structure ZonesSettled (layout : VolumeLayout) (a : SegsArray) (openZones : Nat)
    (requests : List ZoneRequest) : Prop where
  opened : requests.filterMap ZoneRequest.opened = a.writtenSites.map (a.zoneOf layout)
  once : (requests.filterMap ZoneRequest.opened).Nodup
  finished : requests.filterMap ZoneRequest.finished =
    (a.writtenSites.filter a.closes).map (a.zoneOf layout)
  leftOpen : zonesOpen requests = (a.leftOpen a.writtenSites).map (a.zoneOf layout)
  counted : openZones = Word.u32 (zonesOpen requests).length

theorem opened_flatMap (sites : List (Nat × Nat)) :
    (sites.flatMap (a.requestsOf layout)).filterMap ZoneRequest.opened =
      sites.map (a.zoneOf layout) := by
  induction sites with
  | nil => rfl
  | cons site sites ih =>
    rw [List.flatMap_cons, List.filterMap_append, ih]
    unfold SegsArray.requestsOf
    cases a.closes site <;> rfl

theorem finished_flatMap (sites : List (Nat × Nat)) :
    (sites.flatMap (a.requestsOf layout)).filterMap ZoneRequest.finished =
      (sites.filter a.closes).map (a.zoneOf layout) := by
  induction sites with
  | nil => rfl
  | cons site sites ih =>
    rw [List.flatMap_cons, List.filterMap_append, ih, List.filter_cons]
    unfold SegsArray.requestsOf
    cases a.closes site <;> rfl

/-- Each zone that is written is opened once, the zones of the snapshot are closed again, and the
counter is the number of the zones that stay open. -/
theorem writeSegmentsOnZones_settles (h : ReadyToWrite layout fuel a)
    (hzns : layout.env.deviceType = .zns) {w : WriteState} (hempty : w.bufferOffset = 0)
    (hzones : w.openZones = 0) :
    ∃ w' requests, writeSegmentsOnZones layout fuel a (w, []) = .ok (w', requests) ∧
      ZonesSettled layout a w'.openZones requests := by
  have hsites : ∀ site ∈ a.writtenSites, site ∈ a.written := fun _ => SegsArray.mem_writtenSites.1
  have hnodup : (a.writtenSites.map (a.zoneOf layout)).Nodup :=
    a.writtenSites_nodup.map_on fun site hsite site' hsite' heq =>
      h.zoneOf_injOn (hsites site hsite) (hsites site' hsite') heq
  obtain ⟨w', hrun, hopen⟩ := @writeSites_settles _ _ _ h hzns a.writtenSites hsites w 0 hempty hzones []
  rw [List.nil_append] at hrun
  refine ⟨w', _, (writeSegmentsOnZones_eq _).trans hrun, opened_flatMap _, ?_, finished_flatMap _,
    zonesOpen_flatMap hnodup, ?_⟩
  · rw [opened_flatMap]
    exact hnodup
  · rw [hopen, zonesOpen_flatMap hnodup, List.length_map, Nat.zero_add]

end

def gappedZones : SegsArray :=
  { gappedSegs with
    segs := fun i => { gappedSegs.segs i with
      segType := some (if i = 0 then .initialSnapshot else .segbmap) } }

theorem writeSegmentsOnZones_settles_gapped : ∃ w' requests,
    writeSegmentsOnZones { sixteenPebs with env := ⟨2097152, 131072, .zns⟩ } 131073 gappedZones
      (⟨fun _ => 0, 0, fun _ => 0, [], 0⟩, []) = .ok (w', requests) ∧
      ZonesSettled { sixteenPebs with env := ⟨2097152, 131072, .zns⟩ } gappedZones w'.openZones
        requests := by
  refine writeSegmentsOnZones_settles ⟨⟨40, 65535, 8, _, rfl⟩, by decide, by decide, rfl, ?_⟩ rfl rfl rfl
  intro site _ k hk
  have hheader : (gappedZones.content site).items.head? = some .segHeader := rfl
  rw [hheader] at hk
  cases hk
  exact Nat.zero_lt_of_lt (PageSize.bytes_ge .kib4)

end Ssdfs
