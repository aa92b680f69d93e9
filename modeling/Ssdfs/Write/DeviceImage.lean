import Ssdfs.Write.ZoneRun

namespace Ssdfs

section

variable {layout : VolumeLayout} {peb : PebContent} {w : WriteState} {fuel : Nat}

theorem Done.start (hempty : w.bufferOffset = 0) :
    Done layout peb w [] ⟨{ w with buffer := fun _ => 0xFF }, 0,
      peb.pebId * layout.env.eraseSize.toNat, 0⟩ := by
  have hpage := layout.pageSize.bytes_ge
  refine ⟨⟨⟨⟨0, rfl, by simp⟩, rfl, ?_, ?_, fun x _ => rfl⟩, ?_, ?_, ?_, ?_⟩, rfl, ?_⟩ <;>
    simp only [hempty]
  · exact fun x hx => absurd hx (Nat.not_lt_zero x)
  · exact fun i _ => (if_neg (Nat.not_lt_zero i)).symm
  · exact Nat.le_refl _
  · omega
  · omega
  · intro x _ hx
    exact absurd hx (Nat.not_lt_zero x)

theorem writeItems_ok (hdvd : layout.pageSize.bytes ∣ layout.env.eraseSize.toNat)
    (hpacked : peb.Packed layout peb.items)
    (hfirst : ∀ i, peb.items.head? = some i → peb.start i < layout.pageSize.bytes)
    (hfuel : layout.env.eraseSize.toNat < fuel) (hempty : w.bufferOffset = 0) :
    ∃ st, Checked.forEach (writeItem layout fuel peb) ExtentIndex.all
        ⟨{ w with buffer := fun _ => 0xFF }, 0, peb.pebId * layout.env.eraseSize.toNat, 0⟩ = .ok st ∧
      Done layout peb w ExtentIndex.all st := by
  obtain ⟨st, hrun, hdone⟩ := @Checked.forEach_ok _ _ _ (writeItem layout fuel peb)
    (Done layout peb w) [] ExtentIndex.all _ (Done.start hempty)
    fun es a bs t heq ht => writeItem_ok hdvd hpacked hfirst hfuel heq ht
  exact ⟨st, hrun, hdone⟩

namespace PebContent

def pagesOf (layout : VolumeLayout) (peb : PebContent) : Nat :=
  (peb.endOf ExtentIndex.all + layout.pageSize.bytes - 1) / layout.pageSize.bytes

/-- The byte `x` of the device once the PEB has been written. -/
def imageAt (layout : VolumeLayout) (peb : PebContent) (device : Nat → UInt8) (x : Nat) : UInt8 :=
  let erasesize := layout.env.eraseSize.toNat
  if x / erasesize = peb.pebId ∧ x % erasesize < layout.pageSize.bytes * peb.pagesOf layout then
    peb.byteAt (x % erasesize)
  else device x

theorem pagesOf_eq {n r : Nat} (hend : peb.endOf ExtentIndex.all = layout.pageSize.bytes * n + r)
    (hr : r < layout.pageSize.bytes) : peb.pagesOf layout = if r = 0 then n else n + 1 := by
  have hpage := layout.pageSize.bytes_ge
  unfold pagesOf
  rw [hend]
  split
  case isTrue hzero =>
    rw [hzero, Nat.add_zero, Nat.add_sub_assoc (by omega), Nat.mul_add_div (by omega),
      Nat.div_eq_of_lt (by omega), Nat.add_zero]
  case isFalse hpos =>
    rw [Nat.add_assoc, Nat.add_sub_assoc (by omega), Nat.mul_add_div (by omega),
      Nat.div_eq_of_lt_le (k := 1) (by omega) (by omega)]

theorem Packed.pagesOf_le (h : peb.Packed layout peb.items)
    (hdvd : layout.pageSize.bytes ∣ layout.env.eraseSize.toNat) :
    layout.pageSize.bytes * peb.pagesOf layout ≤ layout.env.eraseSize.toNat := by
  have hpage := layout.pageSize.bytes_ge
  have hend := h.endOf_le
  obtain ⟨m, hm⟩ := hdvd
  rw [hm] at hend ⊢
  apply Nat.mul_le_mul_left
  unfold pagesOf
  apply Nat.le_of_lt_succ
  apply Nat.div_lt_of_lt_mul
  rw [Nat.mul_succ]
  omega

end PebContent

theorem Held.image {st : PebWriter}
    (h : Held layout (peb.pebId * layout.env.eraseSize.toNat) peb.byteAt w st)
    (hflushed : st.flushedBytes = layout.pageSize.bytes * peb.pagesOf layout)
    (hle : st.flushedBytes ≤ layout.env.eraseSize.toNat) :
    st.device = peb.imageAt layout w.device ∧
      st.writes = w.writes ++ pebWrites layout peb.pebId (peb.pagesOf layout) := by
  have hpage := layout.pageSize.bytes_ge
  constructor
  · funext x
    unfold PebContent.imageAt
    simp only
    rw [← hflushed]
    split
    case isTrue hx =>
      have hdevice := h.device _ hx.2
      rw [← hx.1, Nat.div_add_mod'] at hdevice
      exact hdevice
    case isFalse hx =>
      apply h.frame
      by_contra hin
      have hlo : peb.pebId * layout.env.eraseSize.toNat ≤ x := by omega
      have hhi : x < peb.pebId * layout.env.eraseSize.toNat + st.flushedBytes := by omega
      obtain ⟨j, rfl⟩ := Nat.exists_eq_add_of_le hlo
      have hj : j < layout.env.eraseSize.toNat := by omega
      apply hx
      rw [Nat.mul_comm, Nat.mul_add_div (by omega), Nat.div_eq_of_lt hj, Nat.mul_add_mod,
        Nat.mod_eq_of_lt hj]
      exact ⟨rfl, by omega⟩
  · obtain ⟨n, hn, hwrites⟩ := h.pages
    have hcount : n = peb.pagesOf layout :=
      Nat.eq_of_mul_eq_mul_left (by omega) (hn.symm.trans hflushed)
    rw [← hcount]
    exact hwrites

theorem writeContent_image {blks : Nat} {bmap bmap' : BlkBmap}
    (hdvd : layout.pageSize.bytes ∣ layout.env.eraseSize.toNat)
    (hfuel : layout.env.eraseSize.toNat < fuel)
    (hcheck : checkPebBeforeWrite layout peb bmap = .ok (bmap', blks))
    (hfirst : ∀ k, peb.items.head? = some k → peb.start k < layout.pageSize.bytes)
    (hempty : w.bufferOffset = 0) :
    ∃ w', writeContent layout fuel peb w = .ok w' ∧ w'.bufferOffset = 0 ∧
      w'.device = peb.imageAt layout w.device ∧
      w'.writes = w.writes ++ pebWrites layout peb.pebId (peb.pagesOf layout) := by
  have hpage := layout.pageSize.bytes_ge
  have hle := layout.pageSize.bytes_le
  obtain ⟨hitems, hpacked, -⟩ := checkPebBeforeWrite_ok (erase_add_page_le hdvd) hcheck
  have hbase : peb.pebId * layout.env.eraseSize.toNat < 18446744073709551616 := by
    obtain ⟨k, hk⟩ := List.exists_mem_of_ne_nil _ hitems
    have hvolume := (hpacked.fits k hk).volume
    have hfs := layout.env.fsSize.toNat_lt
    omega
  obtain ⟨st, hrun, hdone⟩ := writeItems_ok hdvd hpacked hfirst hfuel hempty
  have hpos := hdone.pos
  have htight := hdone.tight
  have hroom := hdone.room
  have hpages := hpacked.pagesOf_le hdvd
  obtain ⟨n, hn, -⟩ := hdone.pages
  have hcount := peb.pagesOf_eq (by omega : _ = layout.pageSize.bytes * n + st.bufferOffset) hroom
  unfold writeContent
  simp only [Word.u64_of_lt hbase, hrun, Checked.ok_bind]
  split
  case isTrue hmore =>
    rw [if_neg (by omega)] at hcount
    have hsize : Word.u32 (st.pebOffset - st.flushedBytes + (layout.pageSize.bytes - 1)) /
        layout.pageSize.bytes * layout.pageSize.bytes = layout.pageSize.bytes := by
      rw [Word.u32_of_lt (by omega), Nat.div_eq_of_lt_le (k := 1) (by omega) (by omega), Nat.one_mul]
    obtain ⟨hflush, hheld⟩ := hdone.toHeld.flush (Nat.dvd_mul_left_of_dvd hdvd _) fun i hlo _ =>
      PebContent.byteAt_of_not fun k hk _ => by
        have hfinish := PebContent.finish_le_endOf hpacked hk
        omega
    have hflushed : st.flushedBytes + layout.pageSize.bytes =
        layout.pageSize.bytes * peb.pagesOf layout := by
      rw [hcount, Nat.mul_succ, hn]
    obtain ⟨hdevice, hwrites⟩ := hheld.image hflushed (hflushed ▸ hpages)
    rw [hsize, hflush]
    exact ⟨_, rfl, rfl, hdevice, hwrites⟩
  case isFalse hnone =>
    rw [if_pos (by omega)] at hcount
    have hflushed : st.flushedBytes = layout.pageSize.bytes * peb.pagesOf layout := by
      rw [hcount, hn]
    obtain ⟨hdevice, hwrites⟩ := hdone.toHeld.image hflushed (hflushed ▸ hpages)
    exact ⟨_, rfl, by omega, hdevice, hwrites⟩

end

namespace SegsArray

variable {layout : VolumeLayout} {a : SegsArray} {fuel : Nat} {checkPeb : Bool → Mkfs Unit}

def imageOf (a : SegsArray) (layout : VolumeLayout) (sites : List (Nat × Nat))
    (device : Nat → UInt8) (x : Nat) : UInt8 :=
  match sites.find? fun site =>
    decide ((a.content site).pebId = x / layout.env.eraseSize.toNat) with
  | some site => (a.content site).imageAt layout device x
  | none => device x

def pageWrites (a : SegsArray) (layout : VolumeLayout) (sites : List (Nat × Nat)) : List (Nat × Nat) :=
  sites.flatMap fun site =>
    pebWrites layout (a.content site).pebId ((a.content site).pagesOf layout)

theorem imageOf_cons {site : Nat × Nat} {sites : List (Nat × Nat)} (device : Nat → UInt8)
    (hnew : (a.content site).pebId ∉ sites.map fun site => (a.content site).pebId) :
    a.imageOf layout sites ((a.content site).imageAt layout device) =
      a.imageOf layout (site :: sites) device := by
  funext x
  unfold imageOf
  rw [List.find?_cons]
  by_cases hx : (a.content site).pebId = x / layout.env.eraseSize.toNat
  · have hnone : (sites.find? fun site =>
        decide ((a.content site).pebId = x / layout.env.eraseSize.toNat)) = none := by
      apply List.find?_eq_none.2
      intro site' hsite' heq
      apply hnew
      rw [hx, ← of_decide_eq_true heq]
      exact List.mem_map_of_mem hsite'
    rw [hnone, decide_eq_true hx]
  · have hother : (a.content site).imageAt layout device x = device x :=
      if_neg fun h => hx h.1.symm
    rw [decide_eq_false hx]
    simp only
    split
    · unfold PebContent.imageAt
      simp only
      split
      · rfl
      · exact hother
    · exact hother

end SegsArray

section

variable {layout : VolumeLayout} {a : SegsArray} {fuel : Nat} {checkPeb : Bool → Mkfs Unit}
  {site : Nat × Nat} {sites : List (Nat × Nat)} {w w' : WriteState}

theorem writeSegments_eq : writeSegments layout fuel checkPeb a w =
    Checked.forEach (fun site => writePeb layout fuel checkPeb a site.1 site.2) a.writtenSites w := by
  unfold writeSegments SegsArray.writtenSites
  rw [Checked.forEach_flatMap, Checked.forEach_range]
  congr 1
  funext i st
  rw [Checked.forEach_map, Checked.forEach_range]

theorem writePeb_image (checkPeb : Bool → Mkfs Unit) (h : ReadyToWrite layout fuel a)
    (hsite : site ∈ a.written) (hempty : w.bufferOffset = 0) : ∃ v : WriteState, v.bufferOffset = 0 ∧
      v.device = (a.content site).imageAt layout w.device ∧
      v.writes = w.writes ++ a.pageWrites layout [site] ∧
      writePeb layout fuel checkPeb a site.1 site.2 w =
        (closePeb layout checkPeb (a.segs site.1).segType v.openZones).map fun openZones =>
          { v with openZones } := by
  obtain ⟨bmap, bmap', blks, hcheck⟩ := checkLayoutBeforeWrite_site h.check hsite
  obtain ⟨v, hv, hbuf, hdevice, hwrites⟩ :=
    writeContent_image h.pages.page_dvd h.fuel hcheck (h.first site hsite) hempty
  have hcontent : writeContent layout fuel (a.content (site.1, site.2)) w = .ok v := hv
  have hlt := Nat.lt_of_lt_of_le hsite.1 h.capacity
  refine ⟨v, hbuf, hdevice, ?_, ?_⟩
  · rw [hwrites]
    exact congrArg (w.writes ++ ·) (List.flatMap_singleton ..).symm
  · unfold writePeb
    rw [failIf_of_not (Nat.not_le.2 hlt), Checked.ok_bind, failIf_of_not (Nat.not_le.2 hsite.2),
      Checked.ok_bind, hcontent, Checked.ok_bind]
    cases closePeb layout checkPeb (a.segs site.1).segType v.openZones <;> rfl

/-- What is left of some PEBs on the device, and in the list of its writes. -/
structure SegsArray.Imaged (a : SegsArray) (layout : VolumeLayout) (sites : List (Nat × Nat))
    (w w' : WriteState) : Prop where
  device : w'.device = a.imageOf layout sites w.device
  writes : w'.writes = w.writes ++ a.pageWrites layout sites

theorem SegsArray.Imaged.cons {v : WriteState}
    (hnew : (a.content site).pebId ∉ sites.map fun site => (a.content site).pebId)
    (hdevice : v.device = (a.content site).imageAt layout w.device)
    (hwrites : v.writes = w.writes ++ a.pageWrites layout [site])
    (h : a.Imaged layout sites v w') : a.Imaged layout (site :: sites) w w' where
  device := by
    rw [h.device, hdevice, SegsArray.imageOf_cons w.device hnew]
  writes := by
    rw [h.writes, hwrites, List.append_assoc]
    unfold pageWrites
    rw [List.flatMap_singleton, List.flatMap_cons]

theorem writeSites_image (h : ReadyToWrite layout fuel a) (hsites : ∀ site ∈ sites, site ∈ a.written)
    (hnodup : (sites.map fun site => (a.content site).pebId).Nodup) (hempty : w.bufferOffset = 0)
    (hrun : Checked.forEach (fun site => writePeb layout fuel checkPeb a site.1 site.2) sites w =
      .ok w') : a.Imaged layout sites w w' := by
  induction sites generalizing w with
  | nil =>
    cases hrun
    exact ⟨rfl, (List.append_nil _).symm⟩
  | cons site sites ih =>
    obtain ⟨hsite, hsites⟩ := List.forall_mem_cons.1 hsites
    obtain ⟨hnew, hnodup⟩ := List.nodup_cons.1 hnodup
    obtain ⟨v, hv, hrun⟩ := Checked.bind_eq_ok.1 hrun
    obtain ⟨u, hbuf, hdevice, hwrites, hpeb⟩ := writePeb_image checkPeb h hsite hempty
    have hv : writePeb layout fuel checkPeb a site.1 site.2 w = .ok v := hv
    rw [hpeb] at hv
    cases hclose : closePeb layout checkPeb (a.segs site.1).segType u.openZones with
    | error e =>
      rw [hclose] at hv
      cases hv
    | ok openZones =>
      rw [hclose] at hv
      cases hv
      have hrest : a.Imaged layout sites { u with openZones } w' := ih hsites hnodup hbuf hrun
      exact SegsArray.Imaged.cons hnew hdevice hwrites ⟨hrest.device, hrest.writes⟩

theorem ReadyToWrite.imaged (h : ReadyToWrite layout fuel a) (hempty : w.bufferOffset = 0)
    (hrun : writeSegments layout fuel checkPeb a w = .ok w') :
    a.Imaged layout a.writtenSites w w' := by
  rw [writeSegments_eq] at hrun
  apply writeSites_image h (fun _ => SegsArray.mem_writtenSites.1) _ hempty hrun
  exact a.writtenSites_nodup.map_on fun site hsite site' hsite' heq =>
    h.pebId_injOn (SegsArray.mem_writtenSites.1 hsite) (SegsArray.mem_writtenSites.1 hsite') heq

theorem writeSites_ok (h : ReadyToWrite layout fuel a) (hsites : ∀ site ∈ sites, site ∈ a.written)
    (hclose : ∀ segType n, ∃ m, closePeb layout checkPeb segType n = .ok m)
    (hempty : w.bufferOffset = 0) : ∃ w',
      Checked.forEach (fun site => writePeb layout fuel checkPeb a site.1 site.2) sites w = .ok w' := by
  induction sites generalizing w with
  | nil => exact ⟨w, rfl⟩
  | cons site sites ih =>
    obtain ⟨hsite, hsites⟩ := List.forall_mem_cons.1 hsites
    obtain ⟨v, hbuf, -, -, hpeb⟩ := writePeb_image checkPeb h hsite hempty
    obtain ⟨m, hm⟩ := hclose (a.segs site.1).segType v.openZones
    obtain ⟨w', hw'⟩ := @ih { v with openZones := m } hsites hbuf
    refine ⟨w', ?_⟩
    change writePeb layout fuel checkPeb a site.1 site.2 w >>= _ = _
    rw [hpeb, hm]
    exact hw'

namespace ReadyToWrite

theorem packed (h : ReadyToWrite layout fuel a) (hsite : site ∈ a.written) :
    (a.content site).Packed layout (a.content site).items := by
  obtain ⟨bmap, bmap', blks, hcheck⟩ := checkLayoutBeforeWrite_site h.check hsite
  exact (checkPebBeforeWrite_ok h.pages.room hcheck).2.1

theorem imageOf_peb (h : ReadyToWrite layout fuel a) (hsite : site ∈ a.written) {x : Nat}
    (hx : x < (a.content site).endOf ExtentIndex.all) (device : Nat → UInt8) :
    a.imageOf layout a.writtenSites device
      ((a.content site).pebId * layout.env.eraseSize.toNat + x) = (a.content site).byteAt x := by
  have hpage := layout.pageSize.bytes_ge
  have herase := Nat.lt_of_lt_of_le hx (h.packed hsite).endOf_le
  have hdiv : ((a.content site).pebId * layout.env.eraseSize.toNat + x) / layout.env.eraseSize.toNat =
      (a.content site).pebId := by
    rw [Nat.mul_comm, Nat.mul_add_div (by omega), Nat.div_eq_of_lt herase, Nat.add_zero]
  have hmod : ((a.content site).pebId * layout.env.eraseSize.toNat + x) % layout.env.eraseSize.toNat =
      x := by
    rw [Nat.mul_comm, Nat.mul_add_mod, Nat.mod_eq_of_lt herase]
  have hpages : x < layout.pageSize.bytes * (a.content site).pagesOf layout := by
    have hround := Nat.div_add_mod ((a.content site).endOf ExtentIndex.all + layout.pageSize.bytes - 1)
      layout.pageSize.bytes
    have hrest := Nat.mod_lt ((a.content site).endOf ExtentIndex.all + layout.pageSize.bytes - 1)
      (by omega : layout.pageSize.bytes > 0)
    unfold PebContent.pagesOf
    omega
  have hsome : (a.writtenSites.find? fun site' =>
      decide ((a.content site').pebId = (a.content site).pebId)).isSome :=
    List.find?_isSome.2 ⟨site, SegsArray.mem_writtenSites.2 hsite, decide_eq_true rfl⟩
  obtain ⟨site', hfind⟩ := Option.isSome_iff_exists.1 hsome
  have hsame : (a.content site').pebId = (a.content site).pebId := by
    simpa using List.find?_some hfind
  obtain rfl : site' = site := h.pebId_injOn
    (SegsArray.mem_writtenSites.1 (List.mem_of_find?_eq_some hfind)) hsite hsame
  unfold SegsArray.imageOf PebContent.imageAt
  rw [hdiv, hfind]
  simp only
  rw [hmod, if_pos ⟨hdiv, hpages⟩]

theorem imageOf_extent (h : ReadyToWrite layout fuel a) (hsite : site ∈ a.written)
    {k : ExtentIndex} {buf : Nat → UInt8} (hbuf : ((a.content site).extents k).buf = some buf) {j : Nat}
    (hj : j < ((a.content site).extents k).bytesCount.toNat) (device : Nat → UInt8) :
    a.imageOf layout a.writtenSites device
      ((a.content site).pebId * layout.env.eraseSize.toNat + ((a.content site).start k + j)) = buf j := by
  have hpacked := h.packed hsite
  have hk : k ∈ (a.content site).items := by
    rw [PebContent.mem_items, hbuf]
    rfl
  have hfinish : (a.content site).start k + j < (a.content site).finish k := Nat.add_lt_add_left hj _
  rw [h.imageOf_peb hsite (Nat.lt_of_lt_of_le hfinish (PebContent.finish_le_endOf hpacked hk)),
    PebContent.byteAt_of_mem hpacked hbuf (Nat.le_add_right _ _) hfinish, Nat.add_sub_cancel_left]

end ReadyToWrite

theorem mem_pebWrites {pebId n : Nat} {r : Nat × Nat}
    (hle : layout.pageSize.bytes * n ≤ layout.env.eraseSize.toNat)
    (hr : r ∈ pebWrites layout pebId n) : r.1 / layout.env.eraseSize.toNat = pebId := by
  have hpage := layout.pageSize.bytes_ge
  obtain ⟨i, hi, rfl⟩ := List.mem_map.1 hr
  have hlt := Nat.mul_lt_mul_of_pos_left (List.mem_range.1 hi) (by omega : 0 < layout.pageSize.bytes)
  simp only
  rw [Nat.mul_comm, Nat.mul_add_div (by omega), Nat.div_eq_of_lt (by omega), Nat.add_zero]

theorem pebWrites_nodup (pebId n : Nat) : (pebWrites layout pebId n).Nodup := by
  have hpage := layout.pageSize.bytes_ge
  apply List.Nodup.map _ List.nodup_range
  intro i j heq
  have hsum := Nat.add_left_cancel (Prod.mk.inj heq).1
  exact Nat.eq_of_mul_eq_mul_left (by omega) hsum

theorem ReadyToWrite.pageWrites_nodup (h : ReadyToWrite layout fuel a) :
    (a.pageWrites layout a.writtenSites).Nodup := by
  have hle : ∀ site ∈ a.writtenSites, layout.pageSize.bytes * (a.content site).pagesOf layout ≤
      layout.env.eraseSize.toNat := by
    intro site hsite
    exact (h.packed (SegsArray.mem_writtenSites.1 hsite)).pagesOf_le h.pages.page_dvd
  apply List.nodup_flatMap.2
  constructor
  · intro site _
    exact pebWrites_nodup _ _
  · apply a.writtenSites_nodup.imp_of_mem
    intro site site' hsite hsite' hne r hr hr'
    apply hne
    apply h.pebId_injOn (SegsArray.mem_writtenSites.1 hsite) (SegsArray.mem_writtenSites.1 hsite')
    exact (mem_pebWrites (hle site hsite) hr).symm.trans (mem_pebWrites (hle site' hsite') hr')

/-- A device that closes its zones takes a checked volume as a whole: its bytes are those of the
image, and each page is written once, segment by segment. -/
theorem writeSegments_image (h : ReadyToWrite layout fuel a)
    (hclose : ∀ segType n, ∃ m, closePeb layout checkPeb segType n = .ok m)
    (hempty : w.bufferOffset = 0) :
    ∃ w', writeSegments layout fuel checkPeb a w = .ok w' ∧ a.Imaged layout a.writtenSites w w' ∧
      (a.pageWrites layout a.writtenSites).Nodup := by
  obtain ⟨w', hrun⟩ := writeSites_ok h (fun _ => SegsArray.mem_writtenSites.1) hclose hempty
  rw [← writeSegments_eq] at hrun
  exact ⟨w', hrun, h.imaged hempty hrun, h.pageWrites_nodup⟩

end

theorem writeSegments_image_gapped : ∃ w',
    writeSegments sixteenPebs 131073 (fun _ => .ok ()) gappedSegs ⟨fun _ => 0, 0, fun _ => 0, [], 0⟩ =
      .ok w' ∧
    gappedSegs.Imaged sixteenPebs gappedSegs.writtenSites ⟨fun _ => 0, 0, fun _ => 0, [], 0⟩ w' ∧
    (gappedSegs.pageWrites sixteenPebs gappedSegs.writtenSites).Nodup := by
  refine writeSegments_image ⟨sixteenPebs_logPagesSet, by decide, by decide, rfl, ?_⟩ ?_ rfl
  · intro site _ k hk
    have hheader : (gappedSegs.content site).items.head? = some .segHeader := rfl
    rw [hheader] at hk
    cases hk
    exact Nat.zero_lt_of_lt (PageSize.bytes_ge .kib4)
  · intro segType n
    exact ⟨_, rfl⟩

end Ssdfs
