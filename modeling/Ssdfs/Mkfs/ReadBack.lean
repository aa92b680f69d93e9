import Ssdfs.Dump.SegbmapShown
import Ssdfs.Mkfs.Sealed
import Ssdfs.Mkfs.ZonedVolume
import Ssdfs.Write.DeviceImage

namespace Ssdfs

open Memory

section

variable {crc32 : UInt32 → List UInt8 → UInt32} {libs : CompressionLibs} {layout : VolumeLayout}
  {options : LogOptions} {g : SegbmapGeometry} {b m fuel : Nat}
  {segbmapBuffers maptblBuffers : Nat → Buf} {c c' : Creation}

theorem metaMkfsDefineLayout_vh {metaIndex : MetaIndex} {segType : SegType} {segsMax blks : Nat}
    {payload : PayloadSource} {buffers : Nat → Buf}
    (h : metaMkfsDefineLayout crc32 libs layout options metaIndex segType segsMax payload buffers c =
      .ok (c', blks)) : c'.src.vh = c.src.vh := by
  obtain ⟨-, h⟩ := failIf_bind_eq_ok.1 h
  obtain ⟨-, h⟩ := failIf_bind_eq_ok.1 h
  obtain ⟨-, h⟩ := failIf_bind_eq_ok.1 h
  obtain ⟨st, -, h⟩ := Checked.bind_eq_ok.1 h
  cases h
  rfl

theorem sbMkfsDefineLayout_vh (h : c.sbMkfsDefineLayout layout = .ok c') :
    ∃ logPages, c'.src.vh = Wire.u16.write c.src.vh sbSegLogPagesOffset logPages := by
  obtain ⟨-, h⟩ := failIf_bind_eq_ok.1 h
  obtain ⟨-, h⟩ := failIf_bind_eq_ok.1 h
  obtain ⟨-, h⟩ := failIf_bind_eq_ok.1 h
  obtain ⟨⟨c₁, blks⟩, hloop, h⟩ := Checked.bind_eq_ok.1 h
  obtain ⟨logPages, -, h⟩ := Checked.bind_eq_ok.1 h
  cases h
  have hsame := Checked.forRange_ind (fun _ (t : Creation × Nat) => t.1.src.vh = c.src.vh) hloop rfl
    fun i _ t t' ht hpair => Checked.forRange_ind (fun _ (t : Creation × Nat) =>
      t.1.src.vh = c.src.vh) hpair ht fun j _ u u' hu hseg => by
        unfold layoutSbSeg at hseg
        split at hseg
        · cases hseg
          exact hu
        · obtain ⟨⟨a, peb⟩, -, hseg⟩ := Checked.bind_eq_ok.1 hseg
          obtain ⟨blks, -, hseg⟩ := Checked.bind_eq_ok.1 hseg
          cases hseg
          exact hu
  exact ⟨logPages, congrArg (Wire.u16.write · sbSegLogPagesOffset logPages) hsame⟩

theorem mkfsDefineLayout_vh
    (h : c.mkfsDefineLayout crc32 libs layout options fuel g segbmapBuffers maptblBuffers = .ok c') :
    ∀ i < 16, c'.src.vh i = c.src.vh i := by
  obtain ⟨c₁, hsnap, h⟩ := Checked.bind_eq_ok.1 h
  obtain ⟨c₂, hsb, h⟩ := Checked.bind_eq_ok.1 h
  obtain ⟨c₃, hsegbmap, h⟩ := Checked.bind_eq_ok.1 h
  obtain ⟨c₄, hmaptbl, h⟩ := Checked.bind_eq_ok.1 h
  have h₁ : c₁.src.vh = c.src.vh := by
    obtain ⟨-, hsnap⟩ := failIf_bind_eq_ok.1 hsnap
    obtain ⟨-, hsnap⟩ := failIf_bind_eq_ok.1 hsnap
    obtain ⟨-, hsnap⟩ := failIf_bind_eq_ok.1 hsnap
    obtain ⟨⟨a, peb⟩, -, hsnap⟩ := Checked.bind_eq_ok.1 hsnap
    cases hsnap
    rfl
  obtain ⟨sbPages, h₂⟩ := sbMkfsDefineLayout_vh hsb
  obtain ⟨⟨c₅, blks₅⟩, hwalk, hsegbmap⟩ := Checked.bind_eq_ok.1 hsegbmap
  obtain ⟨⟨pages₅, recorded₅⟩, -, hsegbmap⟩ := Checked.bind_eq_ok.1 hsegbmap
  cases hsegbmap
  obtain ⟨segs, -, hmaptbl⟩ := Checked.bind_eq_ok.1 hmaptbl
  obtain ⟨⟨c₆, blks₆⟩, hwalk', hmaptbl⟩ := Checked.bind_eq_ok.1 hmaptbl
  obtain ⟨⟨pages₆, recorded₆⟩, -, hmaptbl⟩ := Checked.bind_eq_ok.1 hmaptbl
  cases hmaptbl
  obtain ⟨⟨err, st⟩, -, h⟩ := Checked.bind_eq_ok.1 h
  have h₅ := metaMkfsDefineLayout_vh hwalk
  have h₆ : c₆.src.vh = Wire.u16.write c₅.src.vh segbmapLogPagesOffset recorded₅ :=
    metaMkfsDefineLayout_vh hwalk'
  cases err with
  | some e => cases h
  | none =>
    cases h
    intro i hi
    have hbefore : ∀ {off}, 16 ≤ off → i < off := fun hle => Nat.lt_of_lt_of_le hi hle
    simp only
    rw [Wire.u16.write_frame (.inl (hbefore (by decide))),
      Wire.u16.write_frame (.inl (hbefore (by decide))), h₆,
      Wire.u16.write_frame (.inl (hbefore (by decide))), h₅, h₂,
      Wire.u16.write_frame (.inl (hbefore (by decide))), h₁]

theorem eq_zero_of_snapshot {i : Nat} (h : metaIndexOf b i = .initialSnapshot) : i = 0 := by
  unfold metaIndexOf at h
  split_ifs at h
  omega

theorem PayloadsLaid.marked {magic : UInt16} {buffers : Nat → Buf} {pebsPerSeg start n fragments k : Nat}
    {a a₀ : SegsArray} {openZones : UInt32}
    (h : PayloadsLaid buffers pebsPerSeg start n (min (n * pebsPerSeg) fragments) a)
    (hlaying : Laying a₀ a openZones)
    (hmagic : ∀ p < fragments, Wire.u16.read (buffers p).data 0 = magic ↔ p < k) :
    PayloadsMarked magic pebsPerSeg start n k a := by
  intro i hi j hj payload hpayload
  have hin : i * pebsPerSeg + j < n * pebsPerSeg := by
    have hle := Nat.mul_le_mul_right pebsPerSeg (Nat.succ_le_of_lt hi)
    rw [Nat.succ_mul] at hle
    omega
  by_cases hlt : i * pebsPerSeg + j < fragments
  · obtain ⟨-, hbuf⟩ := h.laid i hi j hj (Nat.lt_min.2 ⟨hin, hlt⟩)
    obtain rfl := Option.some.inj (hbuf.symm.trans hpayload)
    exact hmagic _ hlt
  · have hcount : (a.segs (start + i)).pebsCount ≤ j :=
      Nat.not_lt.1 fun hj => hlt (Nat.lt_min.1 (h.counted i hi j hj).2).2
    rw [hlaying.blank _ j hcount .logPayload] at hpayload
    cases hpayload

theorem LaidVolume.mem_iff {a₀ a : SegsArray} {openZones : UInt32}
    (h : LaidVolume layout g b m segbmapBuffers maptblBuffers a₀ a openZones) (site : Nat × Nat) :
    site.1 < 7 + b + m ∧ site.2 < (a.segs site.1).pebsCount ↔
      site ∈ logSites layout g b m g.fragmentsCount layout.maptbl.portionsCount := by
  obtain ⟨i, j⟩ := site
  simp only
  constructor
  · rintro ⟨hi, hj⟩
    by_cases hcurrent : i < 3
    · rw [h.current i hcurrent] at hj
      obtain rfl : j = 0 := Nat.lt_one_iff.1 hj
      rcases Nat.eq_zero_or_pos i with rfl | hpos
      · exact .inl (.inl (.inl rfl))
      · exact .inl (.inl (.inr ⟨rfl, hpos, hcurrent⟩))
    by_cases hidle : i < 7
    · rw [h.idle i (Nat.not_lt.1 hcurrent) hidle] at hj
      exact absurd hj (Nat.not_lt_zero j)
    by_cases hsegbmap : i < 7 + b
    · obtain ⟨k, rfl⟩ := Nat.exists_eq_add_of_le (Nat.not_lt.1 hidle)
      exact .inl (.inr (mem_tableSites.2 (h.segbmap.counted k (Nat.lt_of_add_lt_add_left hsegbmap) j hj)))
    · obtain ⟨k, rfl⟩ := Nat.exists_eq_add_of_le (Nat.not_lt.1 hsegbmap)
      exact .inr (mem_tableSites.2 (h.maptbl.counted k (Nat.lt_of_add_lt_add_left hi) j hj))
  · have htable : ∀ {buffers : Nat → Buf} {pebsPerSeg start n k : Nat},
        PayloadsLaid buffers pebsPerSeg start n (min (n * pebsPerSeg) k) a →
        (i, j) ∈ tableSites pebsPerSeg start (min (n * pebsPerSeg) k) →
          i < start + n ∧ j < (a.segs i).pebsCount := by
      intro buffers pebsPerSeg start n k hlaid hin
      have hlt := lt_of_mem_tableSites hin
      obtain ⟨k, rfl⟩ := Nat.exists_eq_add_of_le hin.1
      obtain ⟨hj, hindex⟩ := mem_tableSites.1 hin
      exact ⟨hlt, (hlaid.laid k (Nat.lt_of_add_lt_add_left hlt) j hj hindex).1⟩
    rintro (((hsnap | ⟨hj, -, hi⟩) | hsegbmap) | hmaptbl)
    · obtain ⟨rfl, rfl⟩ := Prod.mk.inj hsnap
      exact ⟨by omega, h.current 0 (by decide) ▸ Nat.one_pos⟩
    · obtain rfl : j = 0 := hj
      have hlt : i < 3 := hi
      exact ⟨by omega, h.current i hlt ▸ Nat.one_pos⟩
    · obtain ⟨hi, hj⟩ := htable h.segbmap hsegbmap
      exact ⟨Nat.lt_add_right m hi, hj⟩
    · exact htable h.maptbl hmaptbl

theorem metaIndexOf_eq_segbmap {i : Nat} : metaIndexOf b i = .segbmap ↔ 7 ≤ i ∧ i < 7 + b := by
  unfold metaIndexOf
  split_ifs <;> simp <;> omega

/-- What `mkfs_create` leaves of the headers and of the places of the logs. -/
structure HeadersCommitted (crc32 : UInt32 → List UInt8 → UInt32) (sites sealed : Set (Nat × Nat))
    (c c' : Creation) : Prop where
  written : c'.a.written = sites
  header : ∀ site ∈ sealed, c'.a.SealedAt crc32 c'.src site
  blank : ∀ site ∈ sites, site ∉ sealed →
    ((c'.a.content site).extents .segHeader).buf = some fun _ => 0
  metaArray : c'.a.metaArray = c.a.metaArray
  segId : ∀ i, (c'.a.segs i).segId = (c.a.segs i).segId
  ids : ∀ site, c'.a.lebAt site = c.a.lebAt site ∧ c'.a.pebAt site = c.a.pebAt site
  vh : ∀ i < 16, c'.src.vh i = c.src.vh i

theorem mkfsCreate_headers {segbmapPebs : Nat} (h : ReadyToLayOut layout g b m c.a)
    (hzones : c.src.calculatedOpenZones = 0)
    (hsegbmap : ∀ p, Wire.u16.read (segbmapBuffers p).data 0 = segbmapHdrMagic ↔ p < segbmapPebs)
    (hfew : segbmapPebs ≤ g.fragmentsCount)
    (hmaptbl : ∀ p < layout.maptbl.portionsCount,
      Wire.u16.read (maptblBuffers p).data 0 = UInt16.ofNat lebTableMagic)
    (hrun : c.mkfsCreate crc32 libs layout options fuel g segbmapBuffers maptblBuffers = .ok c') :
    HeadersCommitted crc32 (logSites layout g b m g.fragmentsCount layout.maptbl.portionsCount)
      (logSites layout g b m segbmapPebs layout.maptbl.portionsCount) c c' := by
  have hcommitted := mkfsCreate_committed h hzones hrun
  obtain ⟨d, hlayout, hcommit⟩ := Checked.bind_eq_ok.1 hrun
  have hlaid := mkfsDefineLayout_laying h hzones hlayout
  have hlaying := hlaid.laying
  obtain ⟨-, hsrc, -⟩ := mkfsCommit_refills hcommit
  have hranges : Ranges b m d.a := by
    refine ⟨fun metaIndex => ?_, fun metaIndex i hi => ?_⟩
    · rw [hlaying.array]
      exact h.places metaIndex
    · rw [(hlaying.segs _).1]
      exact (h.fresh metaIndex).segType _ (Nat.le_add_right ..) (Nat.add_lt_add_left hi _)
  have hseals := mkfsCommit_seals hranges (hlaid.segbmap.marked hlaying fun p _ => hsegbmap p) hfew
    (hlaid.maptbl.marked hlaying fun p hp => iff_of_true (hmaptbl p hp) hp) (Nat.le_refl _) hcommit
  have hcapacity : c'.a.segsCapacity = 7 + b + m := by
    rw [hseals.capacity, hlaying.array]
    exact h.capacity
  have hwritten : ∀ site, site ∈ c'.a.written ↔
      site ∈ logSites layout g b m g.fragmentsCount layout.maptbl.portionsCount := by
    intro site
    rw [← hlaid.mem_iff site, ← (hseals.segs site.1).2.2, ← hcapacity, ← hcommitted.counted]
    exact Iff.rfl
  refine ⟨Set.ext hwritten, fun site hsite => ?_, fun site hsite hout => ?_, ?_, fun i => ?_,
    fun site => ⟨?_, ?_⟩, fun i hi => ?_⟩
  · rw [hsrc]
    exact hseals.headers site hsite
  · rw [hseals.others site hout]
    unfold SegsArray.content
    rw [hlaying.headed site.1 site.2 ((hlaid.mem_iff site).2 hsite).2]
    rfl
  · rw [hseals.metaArray, hlaying.array]
  · exact (hseals.segs i).2.1.trans (hlaying.segs i).2.1
  · exact (hseals.pebs site.1 site.2).ids.1.trans (hlaying.pebs site.1 site.2).1
  · exact (hseals.pebs site.1 site.2).ids.2.trans (hlaying.pebs site.1 site.2).2
  · rw [hsrc]
    exact mkfsDefineLayout_vh hlayout i hi

def usedSegbmapPebs (g : SegbmapGeometry) : Nat := (g.fragmentsCount + g.fragmentsPerPeb - 1) / g.fragmentsPerPeb

theorem lt_usedSegbmapPebs {p : Nat} (hpos : 0 < g.fragmentsPerPeb) :
    p < usedSegbmapPebs g ↔ p * g.fragmentsPerPeb < g.fragmentsCount := by
  unfold usedSegbmapPebs
  rw [Nat.lt_iff_add_one_le, Nat.le_div_iff_mul_le hpos, Nat.succ_mul]
  omega

theorem usedSegbmapPebs_le (hpos : 0 < g.fragmentsPerPeb) : usedSegbmapPebs g ≤ g.fragmentsCount := by
  apply Nat.not_lt.1
  intro hlt
  exact absurd ((lt_usedSegbmapPebs hpos).1 hlt) (Nat.not_lt.2 (Nat.le_mul_of_pos_right _ hpos))

/-- The buffers that `segbmap_mkfs_prepare` and `segbmap_mkfs_validate` leave begin with the magic if a
fragment is in them. -/
theorem SegsReserved.segbmap_magic {options : VolumeLayout} {buffers : Nat → Buf} {a a' : SegsArray}
    {buf : Buf} (h : SegsReserved options layout g b m buffers a)
    (hvalidate : segbmapMkfsValidate layout g (buffers 0) a = .ok (buf, a')) (p : Nat) :
    Wire.u16.read (Function.update buffers 0 buf p).data 0 = segbmapHdrMagic ↔ p < usedSegbmapPebs g := by
  have hpos := h.segbmap.fragmentsPerPeb_pos
  have hfirst : ∀ {data : Bytes} {i : Nat} {fragment : SegbmapFragment},
      segbmapPrepareFragment layout g i = .ok fragment →
      SegbmapFragmentHeader.wire.read data 0 = fragment.hdr → Wire.u16.read data 0 = segbmapHdrMagic :=
    fun hfragment hread => (congrArg SegbmapFragmentHeader.magic hread).trans
      (segbmapPrepareFragment_magic hfragment)
  rw [lt_usedSegbmapPebs hpos]
  rcases Nat.eq_zero_or_pos p with rfl | hp
  · rw [Function.update_self]
    obtain ⟨fragment, hfragment, hread⟩ := (h.numbered hvalidate).1.header 0 hpos
    rw [Nat.zero_mul] at hread ⊢
    exact iff_of_true (hfirst hfragment hread) (Nat.lt_of_lt_of_le hpos h.segbmap.fragmentsPerPeb_le)
  · rw [Function.update_of_ne (Nat.ne_of_gt hp)]
    by_cases hin : p * g.fragmentsPerPeb < g.fragmentsCount
    · obtain ⟨fragment, hfragment, hread⟩ := h.prepared.header _ hin
      rw [Nat.mul_div_cancel p hpos, Nat.mul_mod_left, Nat.zero_mul] at hread
      exact iff_of_true (hfirst hfragment hread) hin
    · have hzero : ∀ x, (buffers p).data x = 0 := fun x => h.prepared.zero p x fun f hf hdiv => by
        have hle := Nat.div_mul_le_self f g.fragmentsPerPeb
        rw [hdiv] at hle
        omega
      have hread : Wire.u16.read (buffers p).data 0 = 0 := by
        have hzeros : (buffers p).data = fun _ => 0 := funext hzero
        rw [hzeros]
        rfl
      rw [hread]
      exact iff_of_false (by decide) hin

/-- The first segment gets the first LEB and the first PEB, unless this is bad. -/
theorem SegsReserved.firstSite {options : VolumeLayout} {buffers : Nat → Buf} {a a' : SegsArray}
    {buf : Buf} {t : Tables} {cache : MaptblCache} {st : MapState} {n : Nat} (hn : n < 65535)
    (h : SegsReserved options layout g b m buffers a)
    (hvalidate : segbmapMkfsValidate layout g (buffers 0) a = .ok (buf, a'))
    (hmarked : (Tables.fresh layout n).Marked t) (hgood : (t.stripe layout 0 0).usedBmap 0 = false)
    (hmap : mapAllocatedLebs2pebs layout ⟨t, cache, a'⟩ = .ok st) :
    (st.segs.segs 0).segId = 0 ∧ st.segs.lebAt (0, 0) = 0 ∧ st.segs.pebAt (0, 0) = 0 := by
  have hdefined := h.defined hvalidate
  have hcapacity : a'.segsCapacity = 7 + b + m := hdefined.numbered.capacity.trans hdefined.capacity
  have hzero : 0 < a'.segsCapacity := by omega
  rw [mapAllocatedLebs2pebs_eq] at hmap
  have hleb : a'.lebAt (0, 0) = 0 := by
    have hlebs := hdefined.lebsDefined.lebId 0 hzero 0 (hdefined.lebsDefined.assigned_pos 0 hzero)
    rw [lebOffset_zero, Nat.zero_mul] at hlebs
    refine hlebs.trans ?_
    split <;> rfl
  have hsites : ∃ rest, a'.sites = [] ++ (0, 0) :: rest := by
    obtain ⟨k, hk⟩ := Nat.exists_eq_add_one_of_ne_zero (Nat.ne_of_gt hzero)
    obtain ⟨j, hj⟩ := Nat.exists_eq_add_one_of_ne_zero (n := (a'.segs 0).pebsCapacity) (by
      rw [(hdefined.segs_eq hzero).2.1]
      obtain ⟨e, he, -⟩ := hdefined.corrected.sizes.pebsPerSeg_eq
      rw [he]
      exact Nat.ne_of_gt (Nat.two_pow_pos e))
    rw [hdefined.sites_eq, SegsArray.allSites, hk, List.range_succ_eq_map, List.flatMap_cons, hj, List.range_succ_eq_map,
      List.map_cons]
    exact ⟨_, rfl⟩
  obtain ⟨rest, hrest⟩ := hsites
  obtain ⟨-, hids⟩ := forEach_mapSite_segId hmap
  obtain ⟨-, hranked⟩ := forEach_mapSite_pebAt h.accepted hn hmarked hdefined.sites_nodup hmap
  obtain ⟨hshape, -, -⟩ := forEach_mapSite_inOrder h.accepted hn hmarked hmap
  obtain ⟨item, hitem, hpeb⟩ := hranked [] (0, 0) rest hrest (by rw [hleb]; decide)
  have hstripe : stripeOf layout 0 = 0 := by
    unfold stripeOf
    split_ifs <;> simp
  refine ⟨(hids 0).trans (hdefined.segs_eq hzero).1, ?_, ?_⟩
  · rw [← hshape.lebAt, hleb]
  · have hkey : stripeKey layout (a'.lebAt (0, 0)) = (0, 0) := by
      unfold stripeKey
      rw [hleb, hstripe, Nat.zero_div]
    rw [hkey] at hitem
    rw [hpeb, hitem.first hgood, hleb, hstripe, Nat.zero_div]
    unfold VolumeLayout.stripeStart Geometry.stripeStart
    rw [Nat.mul_zero, Nat.mul_zero]

end

/-- A run of `mkfs.ssdfs` from the options to the last page. The check of a raw flash marks bad PEBs at
most, and not the first one. The two parts of the superblock come with the source of the commits, and the
buffers of the mapping table with their magic. -/
structure MkfsRun (crc32 : UInt32 → List UInt8 → UInt32) (libs : CompressionLibs)
    (options : VolumeLayout) where
  layout : VolumeLayout
  logOptions : LogOptions
  geometry : SegbmapGeometry
  sectorsPerZone : Option UInt32
  requested : UInt16
  fuel : Nat
  layoutFuel : Nat
  writeFuel : Nat
  buffers : Nat → Buf
  maptblBuffers : Nat → Buf
  buffer : Buf
  reserved : SegsArray
  numbered : SegsArray
  prepared : Tables
  checkPebs : Tables → Mkfs Tables
  tables : Tables
  isVolumeErased : Bool
  cache : MaptblCache
  mapped : MapState
  start : Creation
  created : Creation
  checkPeb : Bool → Mkfs Unit
  before : WriteState
  written : WriteState
  sizes : options.SizesAccepted
  index : options.lebsPerPebIndex = 1
  reserve : mkfsReserveSegs sectorsPerZone fuel requested options = .ok (layout, geometry, buffers, reserved)
  validate : segbmapMkfsValidate layout geometry (buffers 0) reserved = .ok (buffer, numbered)
  prepare : ∃ a a', maptblMkfsPrepare layout a = .ok (a', prepared)
  validity : checkPebsValidity checkPebs layout prepared = .ok (tables, isVolumeErased)
  flash : layout.env.deviceType = .mtd →
    prepared.Marked tables ∧ (tables.stripe layout 0 0).usedBmap 0 = false
  map : mapAllocatedLebs2pebs layout ⟨tables, cache, numbered⟩ = .ok mapped
  segs : start.a = mapped.segs
  counter : start.src.calculatedOpenZones = 0
  magic : peek start.src.vh 4 0 = superMagic.toNat
  tableMagic : ∀ p < layout.maptbl.portionsCount,
    Wire.u16.read (maptblBuffers p).data 0 = UInt16.ofNat lebTableMagic
  create : start.mkfsCreate crc32 libs layout logOptions layoutFuel geometry
    (Function.update buffers 0 buffer) maptblBuffers = .ok created
  check : checkLayoutBeforeWrite layout created.a = .ok ()
  fuel_gt : layout.env.eraseSize.toNat < writeFuel
  empty : before.bufferOffset = 0
  write : writeSegments layout writeFuel checkPeb created.a before = .ok written

namespace MkfsRun

variable {crc32 : UInt32 → List UInt8 → UInt32} {libs : CompressionLibs} {options : VolumeLayout}
  {site : Nat × Nat}

def device (run : MkfsRun crc32 libs options) : Buf := ⟨run.layout.env.fsSize.toNat, run.written.device⟩

def place (run : MkfsRun crc32 libs options) (metaIndex : MetaIndex) (site : Nat × Nat) : LogPlace :=
  logPlace metaIndex.logType (run.created.a.segs site.1) (run.created.a.content site)

def header (run : MkfsRun crc32 libs options) (site : Nat × Nat) : Mkfs Bytes :=
  readSegmentHeader (deviceRead run.device) (run.created.a.content site).pebId
    run.layout.env.eraseSize.toNat 0

def firstFragment (run : MkfsRun crc32 libs options) (site : Nat × Nat) : Nat :=
  ((site.1 - (run.created.a.metaArray .segbmap).startSegIndex) * run.geometry.pebsPerSeg + site.2) *
    run.geometry.fragmentsPerPeb

/-- What `mkfs_create` has made of the volume, which has `b` segments for the segment bitmap and `m` ones
for the mapping table. -/
structure Made (run : MkfsRun crc32 libs options) (b m : Nat) : Prop where
  reserved : SegsReserved options run.layout run.geometry b m run.buffers run.reserved
  committed : LogsCommitted b run.created.a run.created.src.calculatedOpenZones
  headers : HeadersCommitted crc32
    (logSites run.layout run.geometry b m run.geometry.fragmentsCount run.layout.maptbl.portionsCount)
    (logSites run.layout run.geometry b m (usedSegbmapPebs run.geometry) run.layout.maptbl.portionsCount)
    run.start run.created
  places : ∀ metaIndex, (run.created.a.metaArray metaIndex).startSegIndex = (metaRange b m metaIndex).1

theorem made (run : MkfsRun crc32 libs options) : ∃ b m, run.Made b m := by
  obtain ⟨b, m, hreserved⟩ := mkfsReserveSegs_run run.sizes run.index run.reserve
  have hready : ReadyToLayOut run.layout run.geometry b m run.start.a := by
    rw [run.segs]
    exact hreserved.readyToLayOut
      ((hreserved.numbered run.validate).2.keepsLogs.trans (mapAllocatedLebs2pebs_keepsLogs run.map))
  have hheaders := mkfsCreate_headers hready run.counter (hreserved.segbmap_magic run.validate)
    (usedSegbmapPebs_le hreserved.segbmap.fragmentsPerPeb_pos) run.tableMagic run.create
  refine ⟨b, m, hreserved, mkfsCreate_committed hready run.counter run.create, hheaders, fun metaIndex => ?_⟩
  rw [hheaders.metaArray]
  exact (hready.places metaIndex).1

theorem readyToWrite (run : MkfsRun crc32 libs options) :
    ReadyToWrite run.layout run.writeFuel run.created.a := by
  obtain ⟨b, m, hmade⟩ := run.made
  exact hmade.committed.readyToWrite (mkfsCreate_logPagesSet run.create) run.fuel_gt run.check

namespace Made

variable {run : MkfsRun crc32 libs options} {b m : Nat}

theorem mem_first (h : run.Made b m) : (0, 0) ∈ run.created.a.written := by
  rw [h.headers.written]
  exact .inl (.inl (.inl rfl))

theorem segType_eq (h : run.Made b m) (hsite : site ∈ run.created.a.written) :
    (run.created.a.segs site.1).segType = some (metaIndexOf b site.1) :=
  h.committed.types site.1 (h.committed.counted ▸ hsite.1)

theorem snapshot_place (h : run.Made b m) :
    (run.created.a.content (0, 0)).pebId = 0 ∧
      run.place .initialSnapshot (0, 0) = ⟨SegType.code .initialSnapshot, 0, 0, 0⟩ := by
  obtain ⟨a, a', hprepare⟩ := run.prepare
  obtain ⟨hfresh, hn⟩ := maptblMkfsPrepare_ok h.reserved.accepted hprepare
  have hvalidity := run.validity
  have hflash := run.flash
  rw [hfresh] at hvalidity hflash
  obtain ⟨hmarked, hgood⟩ := checkPebsValidity_marked hvalidity hflash
  obtain ⟨hseg, hleb, hpeb⟩ := h.reserved.firstSite hn run.validate hmarked hgood run.map
  rw [← run.segs] at hseg hleb hpeb
  obtain ⟨hleb', hpeb'⟩ := h.headers.ids (0, 0)
  have hpebId : (run.created.a.content (0, 0)).pebId = 0 := hpeb'.trans hpeb
  have hlebId : (run.created.a.content (0, 0)).lebId = 0 := hleb'.trans hleb
  refine ⟨hpebId, ?_⟩
  unfold place logPlace
  rw [hpebId, hlebId, h.headers.segId, hseg]
  rfl

theorem header_fits (h : run.Made b m) (hsite : site ∈ run.created.a.written) :
    (run.created.a.content site).pebId * run.layout.env.eraseSize.toNat +
      ((run.created.a.segs site.1).headerOffset + segmentHeaderSize) ≤ run.layout.env.fsSize.toNat := by
  have hheaded := h.committed.headed site hsite
  have hvolume := ((run.readyToWrite.packed hsite).fits .segHeader
    (PebContent.mem_items.2 hheaded.header)).volume
  have hfinish : (run.created.a.content site).finish .segHeader =
      (run.created.a.segs site.1).headerOffset + segmentHeaderSize := by
    rw [← hheaded.start, ← hheaded.size]
    rfl
  rwa [hfinish] at hvolume

theorem header_offset (h : run.Made b m) (hsite : site ∈ run.created.a.written) :
    run.header site = deviceRead run.device
      ((run.created.a.content site).pebId * run.layout.env.eraseSize.toNat +
        (run.created.a.segs site.1).headerOffset) logHeaderSize := by
  have hfirst := h.committed.current 0 (by decide)
  have hvolume := h.header_fits hsite
  have hfs := run.layout.env.fsSize.toNat_lt
  have hbase : (run.created.a.content site).pebId * run.layout.env.eraseSize.toNat <
      18446744073709551616 := by omega
  unfold header readSegmentHeader
  simp only
  congr 1
  by_cases hzero : (run.created.a.content site).pebId = 0
  · obtain rfl : site = (0, 0) := run.readyToWrite.pebId_injOn hsite h.mem_first
      (hzero.trans h.snapshot_place.1.symm)
    have hsnap : (run.created.a.segs 0).headerOffset = reservedVbrSize :=
      if_pos (h.committed.types 0 hfirst.1)
    rw [if_pos hzero, if_pos trivial, hzero, hsnap, Nat.zero_mul, Nat.zero_add]
  · have hother : (run.created.a.segs site.1).headerOffset = 0 := by
      apply SegmentDesc.headerOffset_of_ne
      rw [h.segType_eq hsite]
      intro hmeta
      have hseg := eq_zero_of_snapshot (Option.some.inj hmeta)
      have hpeb : site.2 = 0 := by
        have hlt := hsite.2
        rw [hseg, hfirst.2] at hlt
        exact Nat.lt_one_iff.1 hlt
      obtain rfl : site = (0, 0) := Prod.ext hseg hpeb
      exact hzero h.snapshot_place.1
    rw [if_neg hzero, hother, Nat.add_zero, Word.u64_of_lt hbase, Nat.add_zero, Word.u64_of_lt hbase]

theorem header_eq (h : run.Made b m) (hsite : site ∈ run.created.a.written) :
    ∃ hdr buf, run.header site = .ok hdr ∧
      ((run.created.a.content site).extents .segHeader).buf = some buf ∧ ∀ i < 2048, hdr i = buf i := by
  have hready := run.readyToWrite
  have hheaded := h.committed.headed site hsite
  obtain ⟨buf, hbuf⟩ := Option.isSome_iff_exists.1 hheaded.header
  have hcount : ((run.created.a.content site).extents .segHeader).bytesCount.toNat = segmentHeaderSize :=
    hheaded.size
  refine ⟨fun i => run.device.data ((run.created.a.content site).pebId *
    run.layout.env.eraseSize.toNat + (run.created.a.segs site.1).headerOffset + i), buf, ?_, hbuf,
    fun i hi => ?_⟩
  · rw [h.header_offset hsite]
    exact deviceRead_inside ((Nat.add_assoc ..).trans_le (h.header_fits hsite))
  · have himage := (hready.imaged run.empty run.write).device
    have hextent := hready.imageOf_extent hsite hbuf (j := i) (by rw [hcount]; exact hi)
      run.before.device
    rw [hheaded.start, ← Nat.add_assoc, ← himage] at hextent
    exact hextent

/-- A PEB has a sealed header unless it is one of the segment bitmap without fragments. -/
theorem mem_sealed (h : run.Made b m) (hsite : site ∈ run.created.a.written) :
    site ∈ logSites run.layout run.geometry b m (usedSegbmapPebs run.geometry)
        run.layout.maptbl.portionsCount ↔
      (metaIndexOf b site.1 = .segbmap → run.firstFragment site < run.geometry.fragmentsCount) := by
  have hpos := h.reserved.segbmap.fragmentsPerPeb_pos
  have hstart : (run.created.a.metaArray .segbmap).startSegIndex = 7 := h.places .segbmap
  rw [h.headers.written] at hsite
  unfold firstFragment
  rw [hstart, ← lt_usedSegbmapPebs hpos]
  rw [metaIndexOf_eq_segbmap]
  rcases hsite with ((hsnap | hsb) | hsegbmap) | hmaptbl
  · obtain rfl : site = (0, 0) := hsnap
    exact iff_of_true (.inl (.inl (.inl rfl))) fun hmeta => absurd hmeta.1 (by decide)
  · have hlt : site.1 < 3 := hsb.2.2
    exact iff_of_true (.inl (.inl (.inr hsb))) fun hmeta => absurd hmeta.1 (by omega)
  · have hlt := lt_of_mem_tableSites hsegbmap
    obtain ⟨hlo, hpeb, hindex⟩ := hsegbmap
    constructor
    · rintro (((hsnap | hsb) | hin) | hmaptbl) -
      · obtain rfl : site = (0, 0) := hsnap
        exact absurd hlo (by decide)
      · exact absurd hsb.2.2 (by omega)
      · exact (Nat.lt_min.1 hin.2.2).2
      · exact absurd hmaptbl.1 (Nat.not_le.2 hlt)
    · intro hused
      exact .inl (.inr ⟨hlo, hpeb, Nat.lt_min.2 ⟨(Nat.lt_min.1 hindex).1, hused ⟨hlo, hlt⟩⟩⟩)
  · exact iff_of_true (.inr hmaptbl) fun hmeta => absurd hmaptbl.1 (Nat.not_le.2 hmeta.2)

theorem header_of_sealed (h : run.Made b m) (hsite : site ∈ run.created.a.written)
    (hsealed : run.created.a.SealedAt crc32 run.created.src site) :
    ∃ hdr, run.header site = .ok hdr ∧ isValidSegmentHeader crc32 hdr = true ∧
      NamesLog run.created.src (run.place (metaIndexOf b site.1) site) hdr := by
  obtain ⟨hdr, buf, hread, hbuf, hsame⟩ := h.header_eq hsite
  obtain ⟨metaIndex, htype, buf', hbuf', hheader⟩ := hsealed
  obtain rfl := Option.some.inj (hbuf.symm.trans hbuf')
  obtain rfl := Option.some.inj ((h.segType_eq hsite).symm.trans htype)
  have hmagic : peek run.created.src.vh 4 0 = superMagic.toNat :=
    (peek_congr fun i hi => h.headers.vh _ (by omega)).trans run.magic
  have hcopy := hheader.congr hsame
  exact ⟨hdr, hread, hcopy.valid hmagic, hcopy.toNamesLog⟩

end Made

/-- What the tools read of a PEB: they take its header if it has one, and then it names the log of this
PEB. -/
structure ReadBack (run : MkfsRun crc32 libs options) (site : Nat × Nat) (metaIndex : MetaIndex)
    (hdr : Bytes) : Prop where
  segType : (run.created.a.segs site.1).segType = some metaIndex
  read : run.header site = .ok hdr
  valid_iff : isValidSegmentHeader crc32 hdr = true ↔
    (metaIndex = .segbmap → run.firstFragment site < run.geometry.fragmentsCount)
  names : isValidSegmentHeader crc32 hdr = true →
    NamesLog run.created.src (run.place metaIndex site) hdr

/-- Of each PEB of a new volume a header can be read. The tools take it and it names the log of the PEB,
except in the PEBs of the segment bitmap that come behind its last fragment: these have no header. -/
theorem header_readBack (run : MkfsRun crc32 libs options) :
    ∀ site ∈ run.created.a.written, ∃ metaIndex hdr, run.ReadBack site metaIndex hdr := by
  intro site hsite
  obtain ⟨b, m, h⟩ := run.made
  have hiff := h.mem_sealed hsite
  by_cases hin : site ∈ logSites run.layout run.geometry b m (usedSegbmapPebs run.geometry)
      run.layout.maptbl.portionsCount
  · obtain ⟨hdr, hread, hvalid, hnames⟩ := h.header_of_sealed hsite (h.headers.header site hin)
    exact ⟨_, hdr, h.segType_eq hsite, hread, iff_of_true hvalid (hiff.1 hin), fun _ => hnames⟩
  · obtain ⟨hdr, buf, hread, hbuf, hsame⟩ := h.header_eq hsite
    have hzeros := Option.some.inj
      (hbuf.symm.trans (h.headers.blank site (h.headers.written ▸ hsite) hin))
    have hinvalid : isValidSegmentHeader crc32 hdr = false := not_valid_of_zeros fun i hi => by
      rw [hsame i hi, hzeros]
    have hnot : ¬isValidSegmentHeader crc32 hdr = true := by
      rw [hinvalid]
      exact Bool.false_ne_true
    exact ⟨_, hdr, h.segType_eq hsite, hread, iff_of_false hnot (mt hiff.2 hin), fun hvalid =>
      absurd hvalid hnot⟩

/-- Whatever sizes the tools start with, their search ends at once on a new volume: the first PEB has the
header of the snapshot. -/
theorem findAnyValidPeb_created (run : MkfsRun crc32 libs options) {eraseSize fsSize searchFuel : Nat}
    (herase : reservedVbrSize < eraseSize) (hfuel : 0 < searchFuel) :
    ∃ hdr, findAnyValidPeb crc32 (deviceRead run.device) eraseSize fsSize searchFuel = .ok hdr ∧
      isValidSegmentHeader crc32 hdr = true ∧
        NamesLog run.created.src ⟨SegType.code .initialSnapshot, 0, 0, 0⟩ hdr := by
  obtain ⟨b, m, h⟩ := run.made
  obtain ⟨hpebId, hplace⟩ := h.snapshot_place
  obtain ⟨hdr, hread, hvalid, hnames⟩ :=
    h.header_of_sealed h.mem_first (h.headers.header (0, 0) (.inl (.inl (.inl rfl))))
  refine ⟨hdr, ?_, hvalid, hplace ▸ hnames⟩
  have hfirst : readSegmentHeader (deviceRead run.device) 0 eraseSize 0 = .ok hdr := by
    unfold header at hread
    rw [hpebId] at hread
    exact hread
  obtain ⟨n, rfl⟩ := Nat.exists_eq_add_one_of_ne_zero (Nat.ne_of_gt hfuel)
  have hround : findAnyValidPebRound crc32 (deviceRead run.device) eraseSize fsSize
      (reservedVbrSize, 1) = .ok (.leave (some hdr)) := by
    unfold findAnyValidPebRound
    rw [quot, Checked.quot_of_ne (Nat.ne_zero_of_lt herase), Checked.ok_bind,
      Nat.div_eq_of_lt herase, hfirst, Checked.ok_bind, if_pos hvalid]
  unfold findAnyValidPeb
  rw [Checked.loop_leave hround]
  rfl

end MkfsRun

theorem mkfsRun_zones : ∃ run : MkfsRun crc32 noLibs volumeOfZones, run.layout.env.eraseSize = 131072 := by
  obtain ⟨layout, c', hcreate, hcheck, hzns, hsize, hmagic, -⟩ := createZones_run
  obtain ⟨g, buffers, a, buf, a', t, cache, st, c, hcreated⟩ := createZones_ok hcreate
  have hfuel : layout.env.eraseSize.toNat < 131073 := by
    rw [hsize]
    decide
  obtain ⟨b, m, hreserved⟩ := mkfsReserveSegs_run volumeOfZones_sizesAccepted rfl hcreated.reserve
  have hready : ReadyToLayOut layout g b m c.a := by
    rw [hcreated.segs]
    exact hreserved.readyToLayOut ((hreserved.numbered hcreated.validate).2.keepsLogs.trans
      (mapAllocatedLebs2pebs_keepsLogs hcreated.map))
  have hcommitted := mkfsCreate_committed hready hcreated.counter hcreated.create
  have hclose : ∀ segType n, ∃ m, closePeb layout (fun _ => .ok ()) segType n = .ok m := by
    intro segType n
    unfold closePeb
    rw [hzns]
    exact ⟨_, rfl⟩
  obtain ⟨w', hwrite⟩ := writeSites_ok (w := ⟨fun _ => 0, 0, fun _ => 0, [], 0⟩)
    (hcommitted.readyToWrite (mkfsCreate_logPagesSet hcreated.create) hfuel hcheck) (fun _ => SegsArray.mem_writtenSites.1)
    hclose rfl
  rw [← writeSegments_eq] at hwrite
  have hvalidity : checkPebsValidity (fun _ => .error .abort) layout t = .ok (t, false) := by
    unfold checkPebsValidity
    rw [hzns]
  have hflash : layout.env.deviceType ≠ .mtd := by
    rw [hzns]
    decide
  exact ⟨⟨layout, _, g, some 256, 1, 5, 20, 131073, buffers, _, buf, a, a', t, _, t, false, cache, st, c,
    c', _, _, w', volumeOfZones_sizesAccepted, rfl, hcreated.reserve, hcreated.validate,
    hcreated.prepare, hvalidity, fun hmtd => absurd hmtd hflash, hcreated.map,
    hcreated.segs, hcreated.counter, hcreated.magic, fun _ _ => hmagic, hcreated.create, hcheck, hfuel, rfl,
    hwrite⟩, hsize⟩

/-- The zone of the snapshot and those of the superblocks. -/
theorem header_readBack_zones : ∃ run : MkfsRun crc32 noLibs volumeOfZones,
    ∀ i < 3, ∃ metaIndex hdr, run.ReadBack (i, 0) metaIndex hdr := by
  obtain ⟨run, -⟩ := mkfsRun_zones
  obtain ⟨b, m, h⟩ := run.made
  refine ⟨run, fun i hi => run.header_readBack (i, 0) ?_⟩
  obtain ⟨hlt, hone⟩ := h.committed.current i hi
  exact ⟨h.committed.counted ▸ hlt, hone ▸ Nat.one_pos⟩

/-- The tools may take the erase blocks for larger than they are. -/
theorem findAnyValidPeb_created_zones : ∃ run : MkfsRun crc32 noLibs volumeOfZones,
    ∃ hdr, findAnyValidPeb crc32 (deviceRead run.device) 2097152 26214400 1 = .ok hdr ∧
      isValidSegmentHeader crc32 hdr = true ∧
        NamesLog run.created.src ⟨SegType.code .initialSnapshot, 0, 0, 0⟩ hdr := by
  obtain ⟨run, -⟩ := mkfsRun_zones
  exact ⟨run, run.findAnyValidPeb_created (by decide) (by decide)⟩

end Ssdfs
