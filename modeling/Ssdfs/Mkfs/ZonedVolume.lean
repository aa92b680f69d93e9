import Ssdfs.Blkbmap.Run
import Ssdfs.Commit.Tables
import Ssdfs.Mkfs.CommitRun
import Ssdfs.Mkfs.EraseDevice
import Ssdfs.Mkfs.Erased
import Ssdfs.Write.ZoneRun

namespace Ssdfs

structure SegmentDesc.KeepsLogs (desc desc' : SegmentDesc) : Prop where
  segType : desc'.segType = desc.segType
  pebsCount : desc'.pebsCount = desc.pebsCount
  pebsCapacity : desc'.pebsCapacity = desc.pebsCapacity
  extents : ∀ j, (desc'.pebs j).extents = (desc.pebs j).extents

structure SegsArray.KeepsLogs (a a' : SegsArray) : Prop where
  metaArray : a'.metaArray = a.metaArray
  capacity : a'.segsCapacity = a.segsCapacity
  segsCount : a'.segsCount = a.segsCount
  segs : ∀ i, (a.segs i).KeepsLogs (a'.segs i)

section

variable {desc desc' desc'' : SegmentDesc} {a a' a'' : SegsArray} {layout : VolumeLayout}
  {st st' : MapState} {g : SegbmapGeometry} {k : Nat}

theorem SegmentDesc.KeepsLogs.refl : desc.KeepsLogs desc := ⟨rfl, rfl, rfl, fun _ => rfl⟩

theorem SegmentDesc.KeepsLogs.trans (h : desc.KeepsLogs desc') (h' : desc'.KeepsLogs desc'') :
    desc.KeepsLogs desc'' :=
  ⟨h'.segType.trans h.segType, h'.pebsCount.trans h.pebsCount,
    h'.pebsCapacity.trans h.pebsCapacity, fun j => (h'.extents j).trans (h.extents j)⟩

theorem SegsArray.KeepsLogs.trans (h : a.KeepsLogs a') (h' : a'.KeepsLogs a'') : a.KeepsLogs a'' where
  metaArray := h'.metaArray.trans h.metaArray
  capacity := h'.capacity.trans h.capacity
  segsCount := h'.segsCount.trans h.segsCount
  segs i := (h.segs i).trans (h'.segs i)

theorem defineLebId_keepsLogs (h : defineLebId layout desc = .ok desc') : desc.KeepsLogs desc' := by
  unfold defineLebId at h
  extract_lets startLebId pebsCapacity at h
  split at h
  · cases h
  · cases h
    exact ⟨rfl, rfl, rfl, fun _ => rfl⟩

theorem Numbered.keepsLogs (h : Numbered layout a k a') : a.KeepsLogs a' where
  metaArray := h.metaArray
  capacity := h.capacity
  segsCount := h.segsCount
  segs i := by
    rcases Nat.lt_or_ge i k with hlt | hge
    · have hkept := defineLebId_keepsLogs (h.numbered i hlt).2
      exact ⟨hkept.segType, hkept.pebsCount, hkept.pebsCapacity, hkept.extents⟩
    · rw [h.rest i hge]
      exact .refl

theorem SegsArray.setPebId_keepsLogs (a : SegsArray) (site : Nat × Nat) (pebId : Nat) :
    a.KeepsLogs (a.setPebId site pebId) := by
  refine ⟨rfl, rfl, rfl, fun i => ?_⟩
  have hextents : ∀ j, (((a.setPebId site pebId).segs i).pebs j).extents =
      ((a.segs i).pebs j).extents := by
    intro j
    rw [a.setPebId_content site (i, j)]
    split <;> rfl
  unfold setPebId setSeg at hextents ⊢
  simp only [Function.update_apply] at hextents ⊢
  split
  case isTrue hi =>
    subst hi
    simp only [if_true] at hextents
    exact ⟨rfl, rfl, rfl, hextents⟩
  case isFalse => exact .refl

theorem mapAllocatedLebs2pebs_keepsLogs (h : mapAllocatedLebs2pebs layout st = .ok st') :
    st.segs.KeepsLogs st'.segs := by
  rw [mapAllocatedLebs2pebs_eq] at h
  apply Checked.forEach_inv (fun u => st.segs.KeepsLogs u.segs) h ⟨rfl, rfl, rfl, fun _ => .refl⟩
  intro site u u' hu hstep
  rcases mapSite_ok hstep with ⟨-, rfl⟩ | ⟨-, tables, peb, cache, -, -, rfl⟩
  · exact hu
  · exact hu.trans (u.segs.setPebId_keepsLogs site peb)

end

namespace SegsReserved

variable {options layout : VolumeLayout} {g : SegbmapGeometry} {b m : Nat} {buffers : Nat → Buf}
  {a a' : SegsArray}

theorem readyToLayOut (h : SegsReserved options layout g b m buffers a) (hkept : a.KeepsLogs a') :
    ReadyToLayOut layout g b m a' where
  capacity := hkept.capacity.trans h.capacity
  segsCount := hkept.segsCount.trans h.segsCount
  types i hi := by
    rw [(hkept.segs i).segType]
    exact h.types i (hkept.capacity ▸ hi)
  places metaIndex := by
    rw [hkept.metaArray]
    exact h.places metaIndex
  pebsCount i := (hkept.segs i).pebsCount.trans (h.blank i).pebsCount
  blank i j k := by
    rw [(hkept.segs i).extents, (h.blank i).pebs]
  pebsCapacity i := (hkept.segs i).pebsCapacity.trans (h.pebs i)
  segbmapPebs := h.segbmap.pebsPerSeg_lt
  pebsPerSeg := h.segbmap.layoutPebs_lt h.corrected.sizes

end SegsReserved

namespace SegsArray

theorem leftOpen_length (a : SegsArray) :
    (a.leftOpen a.writtenSites).length = ((List.range a.segsCount).map a.zonesOf).sum := by
  unfold leftOpen writtenSites
  rw [← List.countP_eq_length_filter, List.countP_flatMap]
  congr 1
  apply List.map_congr_left
  intro i _
  unfold zonesOf
  rw [Function.comp_apply, List.countP_map]
  split
  case isTrue hsnap =>
    apply List.countP_eq_zero.2
    intro j _
    simp [closes, hsnap]
  case isFalse hzone =>
    refine (List.countP_eq_length.2 fun j _ => ?_).trans List.length_range
    simp [closes, hzone]

end SegsArray

theorem PebContent.Headed.head? {peb : PebContent} {offset : Nat} (h : peb.Headed offset) :
    peb.items.head? = some .segHeader := by
  unfold PebContent.items PebContent.itemsOf ExtentIndex.all
  rw [List.filter_cons_of_pos (p := fun k => (peb.extents k).buf.isSome) h.header, List.head?_cons]

/-- The volume when all of its logs are committed: `n` zones are to stay open. -/
structure LogsCommitted (b : Nat) (a : SegsArray) (openZones : UInt32) : Prop where
  counted : a.segsCount = a.segsCapacity
  types : ∀ i < a.segsCapacity, (a.segs i).segType = some (metaIndexOf b i)
  headed : ∀ site ∈ a.written, (a.content site).Headed (a.segs site.1).headerOffset
  current : ∀ k < 3, k < a.segsCapacity ∧ (a.segs k).pebsCount = 1
  zones : openZones.toNat = Word.u32 (a.leftOpen a.writtenSites).length

section

variable {crc32 : UInt32 → List UInt8 → UInt32} {libs : CompressionLibs}
  {layout : VolumeLayout} {logOptions : LogOptions} {g : SegbmapGeometry} {b m fuel : Nat}
  {segbmapBuffers maptblBuffers : Nat → Buf} {c c' : Creation}

theorem mkfsCreate_logPagesSet
    (hrun : c.mkfsCreate crc32 libs layout logOptions fuel g segbmapBuffers maptblBuffers = .ok c') :
    layout.LogPagesSet := by
  obtain ⟨_, hlayout, -⟩ := Checked.bind_eq_ok.1 hrun
  obtain ⟨_, -, hlayout⟩ := Checked.bind_eq_ok.1 hlayout
  obtain ⟨_, -, hlayout⟩ := Checked.bind_eq_ok.1 hlayout
  obtain ⟨_, hsegbmap, -⟩ := Checked.bind_eq_ok.1 hlayout
  obtain ⟨_, -, hsegbmap⟩ := Checked.bind_eq_ok.1 hsegbmap
  obtain ⟨_, hset, -⟩ := Checked.bind_eq_ok.1 hsegbmap
  exact ⟨_, _, _, _, hset⟩

theorem mkfsCreate_committed (h : ReadyToLayOut layout g b m c.a)
    (hzones : c.src.calculatedOpenZones = 0)
    (hrun : c.mkfsCreate crc32 libs layout logOptions fuel g segbmapBuffers maptblBuffers = .ok c') :
    LogsCommitted b c'.a c'.src.calculatedOpenZones := by
  obtain ⟨d, hlayout, hcommit⟩ := Checked.bind_eq_ok.1 hrun
  have hlaid := mkfsDefineLayout_laying h hzones hlayout
  have hlaying := hlaid.laying
  obtain ⟨hrefills, hsrc, hcount⟩ := mkfsCommit_refills hcommit
  have harray : d.a.metaArray = c.a.metaArray ∧ d.a.segsCapacity = c.a.segsCapacity ∧
      d.a.segsCount = 0 := by
    rw [hlaying.array]
    exact ⟨rfl, rfl, h.segsCount⟩
  obtain ⟨hmeta, hcapacity, hnone⟩ := harray
  have hall : c'.a.segsCount = c'.a.segsCapacity := by
    rw [hcount, hmeta, (h.places _).2, (h.places _).2, (h.places _).2, (h.places _).2, hnone,
      hrefills.capacity, hcapacity, h.capacity]
    simp only [metaRange]
  refine ⟨hall, fun i hi => ?_, fun site hsite => ?_, fun k hk => ⟨?_, ?_⟩, ?_⟩
  · rw [(hrefills.segs i).1, (hlaying.segs i).1]
    exact h.types i (by rwa [hrefills.capacity, hcapacity] at hi)
  · have hlt : site.2 < (d.a.segs site.1).pebsCount := (hrefills.segs site.1).2.2 ▸ hsite.2
    have hoffset : (c'.a.segs site.1).headerOffset = (d.a.segs site.1).headerOffset := by
      unfold SegmentDesc.headerOffset
      rw [(hrefills.segs site.1).1]
    rw [hoffset]
    exact (hrefills.pebs site.1 site.2).headed (PebContent.headed_of_blankHeader
      (hlaying.headed site.1 site.2 hlt) (Nat.lt_trans (d.a.segs site.1).headerOffset_lt (by decide)))
  · rw [hrefills.capacity, hcapacity, h.capacity]
    omega
  · rw [(hrefills.segs k).2.2, hlaid.current k hk]
  · rw [hsrc, hlaying.counted, ← hrefills.zonesTotal_eq, SegsArray.leftOpen_length, hall]
    rfl

end

namespace LogsCommitted

variable {b : Nat} {a : SegsArray} {openZones : UInt32} {layout : VolumeLayout} {fuel : Nat}

theorem readyToWrite (h : LogsCommitted b a openZones) (hpages : layout.LogPagesSet)
    (hfuel : layout.env.eraseSize.toNat < fuel) (hcheck : checkLayoutBeforeWrite layout a = .ok ()) :
    ReadyToWrite layout fuel a where
  pages := hpages
  fuel := hfuel
  capacity := Nat.le_of_eq h.counted
  check := hcheck
  first site hsite k hk := by
    have hheaded := h.headed site hsite
    rw [hheaded.head?] at hk
    cases hk
    rw [hheaded.start]
    exact Nat.lt_of_lt_of_le (a.segs site.1).headerOffset_lt layout.pageSize.bytes_ge

theorem closed_eq (h : LogsCommitted b a openZones) : a.writtenSites.filter a.closes = [(0, 0)] := by
  have hfirst := h.current 0 (by decide)
  have hothers : ∀ i, i + 1 < a.segsCount → ∀ j, a.closes (i + 1, j) = false := by
    intro i hi j
    unfold SegsArray.closes
    rw [h.types _ (h.counted ▸ hi)]
    unfold metaIndexOf
    rw [if_neg (by omega)]
    split_ifs <;> rfl
  obtain ⟨n, hn⟩ : ∃ n, a.segsCount = n + 1 :=
    ⟨a.segsCount - 1, (Nat.sub_add_cancel (h.counted ▸ hfirst.1)).symm⟩
  have hsnap : a.closes (0, 0) = true := by
    unfold SegsArray.closes
    rw [h.types 0 hfirst.1]
    rfl
  have hrest : (((List.range n).map Nat.succ).flatMap fun i =>
      (List.range (a.segs i).pebsCount).map (i, ·)).filter a.closes = [] := by
    apply List.filter_eq_nil_iff.2
    intro site hsite
    obtain ⟨k, hk, hmem⟩ := List.mem_flatMap.1 hsite
    obtain ⟨i, hi, rfl⟩ := List.mem_map.1 hk
    obtain ⟨j, -, rfl⟩ := List.mem_map.1 hmem
    have hlt : i + 1 < a.segsCount := by
      rw [hn]
      exact Nat.succ_lt_succ (List.mem_range.1 hi)
    rw [hothers i hlt j]
    exact Bool.false_ne_true
  unfold SegsArray.writtenSites
  rw [hn, List.range_succ_eq_map, List.flatMap_cons, List.filter_append, hrest, hfirst.2,
    List.append_nil]
  change [(0, 0)].filter a.closes = _
  rw [List.filter_cons_of_pos hsnap, List.filter_nil]

end LogsCommitted

/-- The zones after `write_device` has succeeded: those of all PEBs have been opened, the snapshot's one
is closed, and `mkfs_create` has counted those that stay open. -/
structure ZonesRecorded (layout : VolumeLayout) (a : SegsArray) (recorded : UInt32)
    (s : WriteState × List ZoneRequest) : Prop where
  settled : ZonesSettled layout a s.1.openZones s.2
  finished : s.2.filterMap ZoneRequest.finished = [a.zoneOf layout (0, 0)]
  recorded : recorded.toNat = Word.u32 (zonesOpen s.2).length

/-- A write to a zoned device, once the erasure has ended in some way, either fails before it has begun
or succeeds. -/
structure AllOrNothing (layout : VolumeLayout) (a : SegsArray) (recorded : UInt32)
    (s : WriteState × List ZoneRequest)
    (write : Mkfs Erasure → Mkfs (Report Errno (WriteState × List ZoneRequest))) : Prop where
  written : checkLayoutBeforeWrite layout a = .ok () → ∀ erased, ∃ s',
    write (.ok erased) = .ok (none, s') ∧ ZonesRecorded layout a recorded s'
  untouched : ∀ erasure e s', write erasure = .ok (some e, s') → s' = s

theorem LogsCommitted.allOrNothing {b : Nat} {a : SegsArray} {openZones : UInt32}
    {layout : VolumeLayout} {fuel : Nat} {w : WriteState} (h : LogsCommitted b a openZones)
    (hpages : layout.LogPagesSet) (hfuel : layout.env.eraseSize.toNat < fuel) (hzns : layout.env.deviceType = .zns)
    (hempty : w.bufferOffset = 0) (hzones : w.openZones = 0) :
    AllOrNothing layout a openZones (w, []) fun erasure =>
      writeDevice layout a erasure (writeSegmentsOnZones layout fuel a) (fun s => s.1.openZones)
        openZones.toNat (w, []) := by
  have hwritten : checkLayoutBeforeWrite layout a = .ok () → ∃ s,
      writeSegmentsOnZones layout fuel a (w, []) = .ok s ∧ ZonesRecorded layout a openZones s ∧
        s.1.openZones = openZones.toNat := by
    intro hcheck
    obtain ⟨w', requests, hwrite, hsettled⟩ :=
      writeSegmentsOnZones_settles (h.readyToWrite hpages hfuel hcheck) hzns hempty hzones
    have hcount : openZones.toNat = Word.u32 (zonesOpen requests).length := by
      rw [h.zones, hsettled.leftOpen, List.length_map]
    refine ⟨_, hwrite, ⟨hsettled, ?_, hcount⟩, hsettled.counted.trans hcount.symm⟩
    rw [hsettled.finished, h.closed_eq]
    rfl
  have hplaces : ¬(a.segsCapacity = 0 ∨ a.segsCount = 0) := by
    have hpos := (h.current 0 (by decide)).1
    rw [h.counted]
    omega
  constructor
  · intro hcheck erased
    obtain ⟨s, hwrite, hrecorded, hsame⟩ := hwritten hcheck
    refine ⟨s, ?_, hrecorded⟩
    unfold writeDevice
    rw [bugOn_of_not hplaces, Checked.ok_bind, failIf_of_not (by rw [h.counted]; exact fun hne => hne rfl),
      Report.attempt_ok, hcheck, Report.attempt_ok, Report.attempt_ok, hwrite, Checked.ok_bind,
      failIf_of_not (fun hne => hne.2 hsame), Report.attempt_ok]
  · intro erasure e s' hrun
    unfold writeDevice at hrun
    rw [bugOn_of_not hplaces, Checked.ok_bind, failIf_of_not (by rw [h.counted]; exact fun hne => hne rfl),
      Report.attempt_ok] at hrun
    cases hcheck : checkLayoutBeforeWrite layout a with
    | error f =>
      rw [hcheck] at hrun
      cases f <;> cases hrun
      rfl
    | ok u =>
      rw [hcheck, Report.attempt_ok] at hrun
      cases erasure with
      | error f =>
        cases f <;> cases hrun
        rfl
      | ok erased =>
        obtain ⟨s, hwrite, -, hsame⟩ := hwritten hcheck
        rw [Report.attempt_ok, hwrite, Checked.ok_bind, failIf_of_not (fun hne => hne.2 hsame)] at hrun
        cases hrun

section

variable {crc32 : UInt32 → List UInt8 → UInt32} {libs : CompressionLibs}
  {options layout : VolumeLayout} {logOptions : LogOptions} {g : SegbmapGeometry}
  {sectorsPerZone : Option UInt32} {fuel layoutFuel writeFuel : Nat} {requested : UInt16}
  {buffers segbmapBuffers maptblBuffers : Nat → Buf}
  {a a' : SegsArray} {buf : Buf} {t : Tables} {cache : MaptblCache} {st : MapState}
  {c c' : Creation} {w : WriteState}

/-- What `mkfs_create` makes of a volume is written to a zoned device as a whole or not at all: no
request on the way fails, and the zones have been counted right before they are opened. -/
theorem writeDevice_zoned (hsizes : options.SizesAccepted) (hindex : options.lebsPerPebIndex = 1)
    (hreserve : mkfsReserveSegs sectorsPerZone fuel requested options = .ok (layout, g, buffers, a))
    (hvalidate : segbmapMkfsValidate layout g (buffers 0) a = .ok (buf, a'))
    (hmap : mapAllocatedLebs2pebs layout ⟨t, cache, a'⟩ = .ok st) (hsegs : c.a = st.segs)
    (hcounter : c.src.calculatedOpenZones = 0)
    (hcreate : c.mkfsCreate crc32 libs layout logOptions layoutFuel g segbmapBuffers maptblBuffers =
      .ok c')
    (hzns : layout.env.deviceType = .zns) (hfuel : layout.env.eraseSize.toNat < writeFuel)
    (hempty : w.bufferOffset = 0) (hzones : w.openZones = 0) :
    AllOrNothing layout c'.a c'.src.calculatedOpenZones (w, []) fun erasure =>
      writeDevice layout c'.a erasure (writeSegmentsOnZones layout writeFuel c'.a)
        (fun s => s.1.openZones) c'.src.calculatedOpenZones.toNat (w, []) := by
  obtain ⟨b, m, hreserved⟩ := mkfsReserveSegs_run hsizes hindex hreserve
  have hnumbered := (hreserved.numbered hvalidate).2
  have hready := hreserved.readyToLayOut (hnumbered.keepsLogs.trans (mapAllocatedLebs2pebs_keepsLogs hmap))
  rw [← hsegs] at hready
  have hcommitted := mkfsCreate_committed hready hcounter hcreate
  exact hcommitted.allOrNothing (mkfsCreate_logPagesSet hcreate) hfuel hzns hempty hzones

end

/-- Erase blocks of 256 KiB for 25 MiB of zones. -/
def volumeOfZones : VolumeLayout :=
  { volumeOnDies 1 with segSize := 262144, env := ⟨26214400, 262144, .zns⟩ }

theorem volumeOfZones_sizesAccepted : volumeOfZones.SizesAccepted where
  eraseSize_ge := show 512 ≤ 262144 by decide
  segSize_le := show 262144 ≤ 68719476736 by decide
  pebs := ⟨0, rfl⟩

def tablePages (layout : VolumeLayout) : Buf where
  data i :=
    let magic :=
      if i % layout.maptbl.portionSize < layout.maptbl.lebtblPortionBytes then lebTableMagic
      else pebTableMagic
    match i % layout.pageSize.bytes with
    | 0 => UInt8.ofNat magic
    | 1 => UInt8.ofNat (magic / 256)
    | 28 => UInt8.ofNat pebTableFragmentHeaderSize
    | 29 => UInt8.ofNat (pebTableFragmentHeaderSize / 256)
    | _ => 0
  size := layout.maptbl.portionSize * layout.maptbl.portionsPerFragment

/-- The phases up to the write, without compression and without copies, on zones of 128 KiB. -/
def createZones (options : VolumeLayout) : Mkfs (VolumeLayout × Creation) := do
  let (layout, g, buffers, a) ← mkfsReserveSegs (some 256) 5 1 options
  let (buf, a) ← segbmapMkfsValidate layout g (buffers 0) a
  let (_, tables) ← maptblMkfsPrepare layout (emptySegs layout 0)
  let cache ← maptblCacheMkfsPrepare layout.pageSize a
  let st ← mapAllocatedLebs2pebs layout ⟨tables, cache, a⟩
  let src := { commit32 with cache := st.cache, vh := Memory.poke commit32.vh 4 0 superMagic.toNat }
  let c := ⟨st.segs, src, ⟨⟨0xFFFF, 1, .uncompressed⟩, 0, ⟨0, 0, 0⟩⟩⟩
  let c ← Creation.mkfsCreate crc32 noLibs layout ⟨.uncompressed, 0xFFFF, 0xFFFF, 1, 1⟩ 20 g
    (Function.update buffers 0 buf) (fun _ => tablePages layout) c
  .ok (layout, c)

structure ZonesCreated (options layout : VolumeLayout) (g : SegbmapGeometry) (buffers : Nat → Buf)
    (a : SegsArray) (buf : Buf) (a' : SegsArray) (t : Tables) (cache : MaptblCache) (st : MapState)
    (c c' : Creation) : Prop where
  reserve : mkfsReserveSegs (some 256) 5 1 options = .ok (layout, g, buffers, a)
  validate : segbmapMkfsValidate layout g (buffers 0) a = .ok (buf, a')
  prepare : ∃ a a', maptblMkfsPrepare layout a = .ok (a', t)
  map : mapAllocatedLebs2pebs layout ⟨t, cache, a'⟩ = .ok st
  segs : c.a = st.segs
  counter : c.src.calculatedOpenZones = 0
  magic : Memory.peek c.src.vh 4 0 = superMagic.toNat
  create : c.mkfsCreate crc32 noLibs layout ⟨.uncompressed, 0xFFFF, 0xFFFF, 1, 1⟩ 20 g
    (Function.update buffers 0 buf) (fun _ => tablePages layout) = .ok c'

theorem createZones_ok {options layout : VolumeLayout} {c' : Creation}
    (h : createZones options = .ok (layout, c')) :
    ∃ g buffers a buf a' t cache st c, ZonesCreated options layout g buffers a buf a' t cache st c c' := by
  obtain ⟨⟨layout₁, g, buffers, a⟩, hreserve, h⟩ := Checked.bind_eq_ok.1 h
  obtain ⟨⟨buf, a'⟩, hvalidate, h⟩ := Checked.bind_eq_ok.1 h
  obtain ⟨⟨a₃, t⟩, hprepare, h⟩ := Checked.bind_eq_ok.1 h
  obtain ⟨cache, -, h⟩ := Checked.bind_eq_ok.1 h
  obtain ⟨st, hmap, h⟩ := Checked.bind_eq_ok.1 h
  obtain ⟨c₁, hcreate, h⟩ := Checked.bind_eq_ok.1 h
  cases h
  exact ⟨g, buffers, a, buf, a', t, cache, st, _, hreserve, hvalidate, ⟨_, a₃, hprepare⟩, hmap, rfl, rfl,
    Memory.peek_poke_of_lt (by decide), hcreate⟩

def zonesSummary (r : VolumeLayout × Creation) : Bool × DeviceType × UInt32 × UInt16 × UInt32 :=
  (match checkLayoutBeforeWrite r.1 r.2.a with
    | .ok () => true
    | .error _ => false, r.1.env.deviceType, r.1.env.eraseSize,
    Wire.u16.read (tablePages r.1).data 0, r.2.src.calculatedOpenZones)

theorem createZones_run : ∃ layout c, createZones volumeOfZones = .ok (layout, c) ∧
    checkLayoutBeforeWrite layout c.a = .ok () ∧ layout.env.deviceType = .zns ∧
      layout.env.eraseSize = 131072 ∧
        Wire.u16.read (tablePages layout).data 0 = UInt16.ofNat lebTableMagic ∧
          c.src.calculatedOpenZones = 4 := by
  have hrun : (createZones volumeOfZones).map zonesSummary =
      .ok (true, .zns, 131072, UInt16.ofNat lebTableMagic, 4) := by
    decide +kernel
  cases hcreate : createZones volumeOfZones with
  | error e =>
    rw [hcreate] at hrun
    cases hrun
  | ok r =>
    obtain ⟨layout, c⟩ := r
    rw [hcreate] at hrun
    simp only [Except.map, zonesSummary, Except.ok.injEq, Prod.mk.injEq] at hrun
    obtain ⟨hpasses, hzns, hsize, hmagic, hfour⟩ := hrun
    refine ⟨layout, c, rfl, ?_, hzns, hsize, hmagic, hfour⟩
    cases hlayout : checkLayoutBeforeWrite layout c.a with
    | error e =>
      rw [hlayout] at hpasses
      cases hpasses
    | ok u => rfl

/-- Of the five zones that are written the snapshot's one is closed. -/
theorem writeDevice_zoned_4 : ∃ layout c w requests,
    createZones volumeOfZones = .ok (layout, c) ∧
    writeDevice layout c.a (.ok ⟨[], []⟩) (writeSegmentsOnZones layout 131073 c.a)
      (fun s => s.1.openZones) c.src.calculatedOpenZones.toNat
      (⟨fun _ => 0, 0, fun _ => 0, [], 0⟩, []) = .ok (none, (w, requests)) ∧
    ZonesRecorded layout c.a 4 (w, requests) := by
  obtain ⟨layout, c', hcreate, hcheck, hzns, hsize, -, hfour⟩ := createZones_run
  obtain ⟨g, buffers, a, buf, a', t, cache, st, c, hcreated⟩ := createZones_ok hcreate
  have hfuel : layout.env.eraseSize.toNat < 131073 := by
    rw [hsize]
    decide
  obtain ⟨s, hwrite, hrecorded⟩ := (writeDevice_zoned (w := ⟨fun _ => 0, 0, fun _ => 0, [], 0⟩)
    volumeOfZones_sizesAccepted rfl hcreated.reserve hcreated.validate hcreated.map hcreated.segs
    hcreated.counter hcreated.create hzns hfuel rfl rfl).written hcheck ⟨[], []⟩
  exact ⟨layout, c', s.1, s.2, hcreate, hwrite, hfour ▸ hrecorded⟩

end Ssdfs
