import Ssdfs.Maptbl.MapOrder

namespace Ssdfs

inductive LebTableFlag
  | zlibCompr
  | lzoCompr
  deriving Repr, DecidableEq

def lebTableFlags (flags : Nat) : List LebTableFlag :=
  (if flags.testBit 0 then [.zlibCompr] else []) ++ if flags.testBit 1 then [.lzoCompr] else []

structure LebTableRow where
  physicalIndex : Nat
  mainPeb : Nat
  relationIndex : Nat
  relationPeb : Nat
  deriving Repr, DecidableEq

structure LebTableShown where
  magic : Nat
  flags : List LebTableFlag
  startLeb : Nat
  lebsCount : Nat
  mappedLebs : Nat
  migratingLebs : Nat
  portionId : Nat
  fragmentId : Nat
  bytesCount : Nat
  rows : List LebTableRow
  deriving Repr, DecidableEq

def shownPeb (startLeb index : Nat) : Nat :=
  if index ≥ Word.u16Max then Word.u64Max else Word.u64 (startLeb + index)

def parseLebTblFragment (hdr : LebTableFragment) : LebTableShown where
  magic := hdr.magic
  flags := lebTableFlags hdr.flags
  startLeb := hdr.startLeb
  lebsCount := hdr.lebsCount
  mappedLebs := hdr.mappedLebs
  migratingLebs := hdr.migratingLebs
  portionId := hdr.portionId
  fragmentId := hdr.fragmentId
  bytesCount := hdr.bytesCount
  rows := (List.range hdr.lebsCount).map fun i =>
    { physicalIndex := (hdr.desc i).physicalIndex
      mainPeb := shownPeb hdr.startLeb (hdr.desc i).physicalIndex
      relationIndex := (hdr.desc i).relationIndex
      relationPeb := shownPeb hdr.startLeb (hdr.desc i).relationIndex }

def shownMainPeb (layout : VolumeLayout) (t : Tables) (leb : Nat) : Mkfs (Option Nat) := do
  let slot ← getLebtblFragment layout leb
  .ok ((parseLebTblFragment (t.lebFragment slot)).rows[slot.lebDescIndex]?.map (·.mainPeb))

/-- The LEB is in the first page of its portion, and its stripe begins where a row of full stripes
would have it. -/
def ShownAtStart (layout : VolumeLayout) (leb : Nat) : Prop :=
  leb % layout.maptbl.pebsPerPortion < 1016 ∧
    (stripeOf layout leb = 0 ∨ layout.stripeWidth (leb / layout.maptbl.pebsPerPortion) = 476)

instance (layout : VolumeLayout) (leb : Nat) : Decidable (ShownAtStart layout leb) :=
  inferInstanceAs (Decidable (_ ∧ _))

section

variable {layout : VolumeLayout} {n leb item peb : Nat} {t t₀ : Tables} {lebs : List Nat}

theorem shownMainPeb_eq (hacc : layout.Accepted) (hleb : leb < 4294967296)
    (hheaders : (Tables.fresh layout n).SameHeaders t)
    (hdesc : leb < (t.lebFragment (lebtblSlot layout leb)).startLeb +
      (t.lebFragment (lebtblSlot layout leb)).lebsCount)
    (hindex : 476 * stripeOf layout leb + item < 65535)
    (hdecodes : decodeLeb layout t leb = .ok ⟨(lebtblSlot layout leb).fragmentIndex,
      (lebtblSlot layout leb).portionIndex, stripeOf layout leb, item⟩) :
    shownMainPeb layout t leb =
      .ok (some (layout.pageStart (leb / layout.maptbl.pebsPerPortion)
        (leb % layout.maptbl.pebsPerPortion / 1016) + (476 * stripeOf layout leb + item))) := by
  have hstart := hheaders.startLeb_eq hacc hdesc
  have hbound : layout.pageStart (leb / layout.maptbl.pebsPerPortion)
      (leb % layout.maptbl.pebsPerPortion / 1016) + leb % layout.maptbl.pebsPerPortion % 1016 =
        leb := by
    have hdm := Nat.div_add_mod leb layout.maptbl.pebsPerPortion
    unfold VolumeLayout.pageStart Geometry.pageStart
    omega
  obtain ⟨slot, hget, hpos⟩ := Checked.bind_eq_ok.1 hdecodes
  obtain ⟨-, rfl⟩ := (getLebtblFragment_eq_ok hacc hleb).1 hget
  obtain ⟨-, -, hdiv, hmod⟩ := PebPos.mk.inj (Except.ok.inj hpos)
  have hphys := Nat.div_add_mod ((t.lebFragment (lebtblSlot layout leb)).desc
    (lebtblSlot layout leb).lebDescIndex).physicalIndex 476
  rw [pebDescPerFragment_page] at hdiv hmod
  rw [hdiv, hmod] at hphys
  have hrow : (lebtblSlot layout leb).lebDescIndex <
      (t.lebFragment (lebtblSlot layout leb)).lebsCount := by
    rw [hstart] at hdesc
    change leb % layout.maptbl.pebsPerPortion % 1016 < _
    omega
  unfold shownMainPeb
  rw [hget, Checked.ok_bind]
  unfold parseLebTblFragment
  rw [List.getElem?_map, List.getElem?_range hrow]
  simp only [Option.map_some, hstart]
  rw [← hphys]
  unfold shownPeb
  rw [if_neg (by unfold Word.u16Max; omega), Word.u64_of_lt (by omega)]

theorem pageStart_add_stripe (hacc : layout.Accepted) (leb : Nat) :
    layout.stripeStart (leb / layout.maptbl.pebsPerPortion) (stripeOf layout leb) ≤
        layout.pageStart (leb / layout.maptbl.pebsPerPortion)
          (leb % layout.maptbl.pebsPerPortion / 1016) + 476 * stripeOf layout leb ∧
      (layout.pageStart (leb / layout.maptbl.pebsPerPortion)
          (leb % layout.maptbl.pebsPerPortion / 1016) + 476 * stripeOf layout leb =
        layout.stripeStart (leb / layout.maptbl.pebsPerPortion) (stripeOf layout leb) ↔
          ShownAtStart layout leb) := by
  have hwidth := hacc.stripeWidth_le (leb / layout.maptbl.pebsPerPortion)
  have hmul := Nat.mul_le_mul_right (stripeOf layout leb) hwidth
  change _ + layout.stripeWidth _ * _ ≤ _ + 1016 * _ + _ ∧
    (_ + 1016 * _ + _ = _ + layout.stripeWidth _ * _ ↔ _)
  unfold ShownAtStart
  refine ⟨by omega, ⟨fun heq => ?_, fun ⟨hpage, hstripe⟩ => ?_⟩⟩
  · refine ⟨by omega, (Nat.eq_zero_or_pos (stripeOf layout leb)).imp_right fun hpos => ?_⟩
    exact Nat.eq_of_mul_eq_mul_right hpos (by omega)
  · rcases hstripe with hzero | hfull
    · rw [hzero]
      omega
    · rw [hfull]
      omega

theorem shownMainPeb_iff (hacc : layout.Accepted) (hheaders : (Tables.fresh layout n).SameHeaders t)
    {before after : List Nat} (horder : t₀.InOrder layout t (before ++ leb :: after))
    (hranked : t₀.Ranked layout (stripeKey layout leb)
      (takenFrom layout (stripeKey layout leb) before) item)
    (hpeb : peb = layout.stripeStart (leb / layout.maptbl.pebsPerPortion) (stripeOf layout leb) +
      item) :
    shownMainPeb layout t leb = .ok (some peb) ↔ leb ∉ after ∧ ShownAtStart layout leb := by
  obtain ⟨hsmall, hdesc⟩ := horder.described leb List.mem_append_cons_self
  obtain ⟨hle, hiff⟩ := pageStart_add_stripe hacc leb
  by_cases hlast : leb ∈ after
  · refine iff_of_false (fun hshown => ?_) fun h => h.1 hlast
    obtain ⟨rest, mid, hrev, hnot⟩ := List.eq_append_cons_of_mem (List.mem_reverse.2 hlast)
    have hsplit : before ++ leb :: after =
        (before ++ leb :: mid.reverse) ++ leb :: rest.reverse := by
      rw [← List.reverse_reverse after, hrev]
      simp
    obtain ⟨item', hranked', hindex, hdecodes⟩ := horder.decodes _ leb _ hsplit (by simpa using hnot)
    -- The last mapping of the LEB has taken a PEB behind this one.
    have hlt : item < item' := by
      refine (Bitmap.clearBefore_lt_iff hranked.good).1 ?_
      rw [hranked.rank_eq, hranked'.rank_eq]
      unfold takenFrom
      rw [List.countP_append, List.countP_cons, if_pos (decide_eq_true rfl)]
      omega
    rw [shownMainPeb_eq hacc hsmall hheaders hdesc hindex hdecodes, hpeb] at hshown
    have heq := Option.some.inj (Except.ok.inj hshown)
    omega
  · obtain ⟨item', hranked', hindex, hdecodes⟩ := horder.decodes before leb after rfl hlast
    obtain rfl := Bitmap.clearBefore_inj hranked.good hranked'.good
      (hranked.rank_eq.trans hranked'.rank_eq.symm)
    rw [shownMainPeb_eq hacc hsmall hheaders hdesc hindex hdecodes, hpeb, ← hiff]
    simp only [Except.ok.injEq, Option.some.injEq, hlast, not_false_eq_true, true_and]
    omega

theorem SegsArray.lebs_nodup_of_last {a : SegsArray} {rest : List (Nat × Nat)}
    (h : ∀ mid site tail, rest = mid ++ site :: tail → a.lebAt site ≠ Word.u64Max →
      a.lebAt site ∉ a.lebs tail) : (a.lebs rest).Nodup := by
  induction rest with
  | nil => exact List.nodup_nil
  | cons site rest ih =>
    have htail := ih fun mid s tail heq => h (site :: mid) s tail (by rw [heq, List.cons_append])
    rw [lebs_cons]
    split
    case isTrue => exact htail
    case isFalse hleb => exact List.nodup_cons.2 ⟨h [] site rest rfl hleb, htail⟩

/-- The dump takes a physical index for a distance from the first LEB of the page, where it counts
full stripes from the start of the portion. -/
theorem dumpMaptbl_iff {fuel segs : Nat} {layout₀ : VolumeLayout} {a₀ a₁ a₂ a₃ a : SegsArray}
    {prepared : Tables} {c : MaptblCache} {st : MapState}
    (hpolicy : maptblMkfsAllocationPolicy fuel layout₀ a₀ = .ok (layout, a₁, segs))
    (hprepare : maptblMkfsPrepare layout a₂ = .ok (a₃, prepared)) (hmarked : prepared.Marked t)
    (hrun : mapAllocatedLebs2pebs layout ⟨t, c, a⟩ = .ok st) :
    (∀ done site rest u t' peb, a.sites = done ++ site :: rest →
      Checked.forEach (mapSite layout) done ⟨t, c, a⟩ = .ok u → a.lebAt site ≠ Word.u64Max →
      mapLeb2peb layout u.tables (a.lebAt site) (u.segs.segs site.1).segType = .ok (t', peb) →
      peb ≠ Word.u64Max → shownMainPeb layout st.tables (a.lebAt site) = .ok (some peb)) ↔
    (a.lebs a.sites).Nodup ∧ ∀ leb ∈ a.lebs a.sites, ShownAtStart layout leb := by
  have hacc := maptblMkfsAllocationPolicy_accepted hpolicy
  obtain ⟨rfl, hn⟩ := maptblMkfsPrepare_ok hacc hprepare
  rw [mapAllocatedLebs2pebs_eq] at hrun
  obtain ⟨-, htaken, horder⟩ := forEach_mapSite_inOrder hacc hn hmarked hrun
  have hshown : ∀ done site rest u t' peb, a.sites = done ++ site :: rest →
      Checked.forEach (mapSite layout) done ⟨t, c, a⟩ = .ok u → a.lebAt site ≠ Word.u64Max →
      mapLeb2peb layout u.tables (a.lebAt site) (u.segs.segs site.1).segType = .ok (t', peb) →
      peb ≠ Word.u64Max → (shownMainPeb layout st.tables (a.lebAt site) = .ok (some peb) ↔
        a.lebAt site ∉ a.lebs rest ∧ ShownAtStart layout (a.lebAt site)) := by
    intro done site rest u t' peb hsites hu hleb hcall hpeb
    obtain ⟨-, htaken', horder'⟩ := forEach_mapSite_inOrder hacc hn hmarked hu
    obtain ⟨slot, i, j, type, hmaps⟩ := mapLeb2peb_ok hacc hn htaken'.toSameHeaders hcall hpeb
    obtain ⟨hranked, hpeb⟩ := horder'.next hacc htaken'.toSameHeaders hmaps
    rw [hsites, SegsArray.lebs_append, SegsArray.lebs_cons, if_neg hleb] at horder
    exact shownMainPeb_iff hacc htaken.toSameHeaders horder hranked hpeb
  constructor
  · intro hall
    have hsplit : ∀ done site rest, a.sites = done ++ site :: rest →
        a.lebAt site ≠ Word.u64Max →
        a.lebAt site ∉ a.lebs rest ∧ ShownAtStart layout (a.lebAt site) := by
      intro done site rest hsites hleb
      rw [hsites] at hrun
      obtain ⟨u, t', peb, hu, hcall, hpeb⟩ := forEach_mapSite_call hrun hleb
      exact (hshown done site rest u t' peb hsites hu hleb hcall hpeb).1
        (hall done site rest u t' peb hsites hu hleb hcall hpeb)
    refine ⟨SegsArray.lebs_nodup_of_last fun mid site tail heq hleb =>
      (hsplit mid site tail heq hleb).1, fun leb hmem => ?_⟩
    obtain ⟨site, hsite, rfl⟩ := List.mem_map.1 hmem
    obtain ⟨hsite, hleb⟩ := List.mem_filter.1 hsite
    obtain ⟨done, rest, hsites⟩ := List.append_of_mem hsite
    exact (hsplit done site rest hsites (by simpa using hleb)).2
  · rintro ⟨hnodup, hstart⟩ done site rest u t' peb hsites hu hleb hcall hpeb
    rw [hsites, SegsArray.lebs_append, SegsArray.lebs_cons, if_neg hleb] at hnodup hstart
    have hlast := (List.nodup_cons.1 (List.nodup_append.1 hnodup).2.1).1
    exact (hshown done site rest u t' peb hsites hu hleb hcall hpeb).2
      ⟨hlast, hstart _ List.mem_append_cons_self⟩

end

theorem dumpMaptbl_two :
    ∃ t c st u t' peb, mapAllocatedLebs2pebs (eightStripesAccepted 1000) ⟨t, c, lebSegs 2⟩ = .ok st ∧
      mapSite (eightStripesAccepted 1000) (0, 0) ⟨t, c, lebSegs 2⟩ = .ok u ∧
      mapLeb2peb (eightStripesAccepted 1000) u.tables 1 (u.segs.segs 1).segType = .ok (t', peb) ∧
      shownMainPeb (eightStripesAccepted 1000) st.tables 1 = .ok (some peb) := by
  have hpolicy : maptblMkfsAllocationPolicy 1 (eightStripes 1000) (freeSegs 10) =
      .ok (eightStripesAccepted 1000, maptblSegs, 1) := rfl
  obtain ⟨st, hrun⟩ : ∃ st,
      prepareAndMap (eightStripesAccepted 1000) maptblSegs (lebSegs 2) = .ok st := ⟨_, rfl⟩
  obtain ⟨a', t, c, hprepare, hmap⟩ := prepareAndMap_ok hrun
  have hmarked : t.Marked t := by
    rw [(maptblMkfsPrepare_ok (maptblMkfsAllocationPolicy_accepted hpolicy) hprepare).1]
    exact Tables.fresh_marked
  have hall := (dumpMaptbl_iff hpolicy hprepare hmarked hmap).2 (by decide)
  have hsites : (lebSegs 2).sites = [(0, 0)] ++ (1, 0) :: [] := by decide
  have hleb : (lebSegs 2).lebAt (1, 0) ≠ Word.u64Max := by decide
  have heach := hmap
  rw [mapAllocatedLebs2pebs_eq] at heach
  obtain ⟨u, t', peb, hu, hcall, hne⟩ := forEach_mapSite_call (hsites ▸ heach) hleb
  refine ⟨t, c, st, u, t', peb, hmap, ?_, hcall, hall _ _ _ u t' peb hsites hu hleb hcall hne⟩
  rwa [Checked.forEach_singleton] at hu

/-- 200 segments of four PEBs, with two stripes asked for. -/
def twoStripes : VolumeLayout :=
  { eightStripes 800 with
    segSize := 524288
    maptbl := ⟨false, 2, 1, 10, 0, 0, 0, 0, 0, 0, 0, 0, 0⟩ }

def twoStripesAccepted : VolumeLayout :=
  { twoStripes with maptbl := ⟨false, 2, 1, 10, 4, 4096, 1, 8192, 2, 952, 952, 4, 12288⟩ }

def fourLebs : SegsArray where
  metaArray metaIndex := if metaIndex = .pebMappingTable then ⟨0, 1, .dedicated⟩
    else ⟨0, 0, .dedicated⟩
  segs _ := ⟨some .pebMappingTable, .dedicated, 0,
    fun k => ⟨k, Word.u64Max, fun _ => ⟨none, 0, 0⟩⟩, 4, 4⟩
  segsCapacity := 1
  segsCount := 0
  lastAllocatedSegIndex := 0

/-- The second stripe begins at PEB 400, and its first PEB is shown as 476. -/
theorem dumpMaptbl_shows_476 :
    maptblMkfsAllocationPolicy 1 twoStripes (freeSegs 10) =
        .ok (twoStripesAccepted, maptblSegs, 1) ∧
      (prepareAndMap twoStripesAccepted maptblSegs fourLebs).map (fun st =>
        (st.segs.pebAt (0, 2), shownMainPeb twoStripesAccepted st.tables 2)) =
          .ok (400, .ok (some 476)) :=
  ⟨rfl, by decide +kernel⟩

end Ssdfs
