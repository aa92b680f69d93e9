import Ssdfs.Write.Stream

namespace Ssdfs

namespace PebContent

variable (peb : PebContent)

def byteAt (x : Nat) : UInt8 :=
  match peb.items.find? fun k => decide (peb.start k ≤ x ∧ x < peb.finish k) with
  | some k => ((peb.extents k).buf.getD fun _ => 0xFF) (x - peb.start k)
  | none => 0xFF

def endOf (ks : List ExtentIndex) : Nat :=
  match (peb.itemsOf ks).getLast? with
  | some k => peb.finish k
  | none => 0

variable {peb} {layout : VolumeLayout} {items : List ExtentIndex} {k : ExtentIndex} {x : Nat}

theorem byteAt_of_not (h : ∀ k ∈ peb.items, peb.start k ≤ x → peb.finish k ≤ x) :
    peb.byteAt x = 0xFF := by
  have hnone : (peb.items.find? fun k => decide (peb.start k ≤ x ∧ x < peb.finish k)) = none := by
    refine List.find?_eq_none.2 fun k hk hc => ?_
    have hc := of_decide_eq_true hc
    have := h k hk hc.1
    omega
  unfold byteAt
  rw [hnone]

theorem byteAt_of_mem (hpacked : peb.Packed layout peb.items) {buf : Nat → UInt8}
    (hbuf : (peb.extents k).buf = some buf) (hlo : peb.start k ≤ x) (hhi : x < peb.finish k) :
    peb.byteAt x = buf (x - peb.start k) := by
  have hk : k ∈ peb.items := by
    rw [mem_items, hbuf]
    rfl
  obtain ⟨k', hfind⟩ : ∃ k', (peb.items.find? fun k =>
      decide (peb.start k ≤ x ∧ x < peb.finish k)) = some k' :=
    Option.isSome_iff_exists.1 (List.find?_isSome.2 ⟨k, hk, decide_eq_true ⟨hlo, hhi⟩⟩)
  have hk' := List.mem_of_find?_eq_some hfind
  have hx' : peb.start k' ≤ x ∧ x < peb.finish k' := by simpa using List.find?_some hfind
  obtain rfl : k' = k := by
    by_contra hne
    have h₁ : peb.pebId * layout.env.eraseSize.toNat + x ∈ peb.extentRange layout k' :=
      ⟨by omega, by omega⟩
    have h₂ : peb.pebId * layout.env.eraseSize.toNat + x ∈ peb.extentRange layout k :=
      ⟨by omega, by omega⟩
    exact Set.disjoint_left.1 (hpacked.disjoint hk' hk hne) h₁ h₂
  unfold byteAt
  simp only [hfind, hbuf, Option.getD_some]

theorem Packed.of_append {items' : List ExtentIndex} (h : peb.Packed layout (items ++ items')) :
    peb.Packed layout items :=
  ⟨fun k hk => h.fits k (List.mem_append_left _ hk), (List.pairwise_append.1 h.ordered).1,
    (List.isChain_append.1 h.near).1⟩

theorem finish_le_endOf {ks : List ExtentIndex} (h : peb.Packed layout (peb.itemsOf ks))
    (hk : k ∈ peb.itemsOf ks) : peb.finish k ≤ peb.endOf ks := by
  unfold endOf
  cases hlast : (peb.itemsOf ks).getLast? with
  | none =>
    rw [List.getLast?_eq_none_iff.1 hlast] at hk
    cases hk
  | some last =>
    obtain ⟨init, hinit⟩ := List.getLast?_eq_some_iff.1 hlast
    rw [hinit] at h hk
    rcases List.mem_append.1 hk with hk | hk
    · have hle := (List.pairwise_append.1 h.ordered).2.2 k hk last (List.mem_singleton.2 rfl)
      have hpos := (h.fits last (by simp)).size_pos
      simp only
      omega
    · rw [List.mem_singleton.1 hk]

theorem Packed.endOf_le (h : peb.Packed layout peb.items) :
    peb.endOf ExtentIndex.all ≤ layout.env.eraseSize.toNat := by
  unfold endOf
  cases hlast : (peb.itemsOf ExtentIndex.all).getLast? with
  | none => exact Nat.zero_le _
  | some k => exact (h.fits k (List.mem_of_getLast? hlast)).erase

/-- Before the extent `k` there are less than a page of blank bytes. -/
theorem Packed.next {ds bs : List ExtentIndex} (h : peb.Packed layout peb.items)
    (hall : ExtentIndex.all = ds ++ k :: bs) (hbuf : (peb.extents k).buf.isSome)
    (hfirst : ∀ i, peb.items.head? = some i → peb.start i < layout.pageSize.bytes) :
    peb.endOf ds ≤ peb.start k ∧ peb.start k < peb.endOf ds + layout.pageSize.bytes ∧
      ∀ x, peb.endOf ds ≤ x → x < peb.start k → peb.byteAt x = 0xFF := by
  have hitems : peb.items = peb.itemsOf ds ++ k :: peb.itemsOf bs := by
    unfold items itemsOf
    rw [hall, List.filter_append, List.filter_cons, if_pos hbuf]
  have hord := h.ordered
  have hnear := h.near
  have hds : peb.Packed layout (peb.itemsOf ds) := (hitems ▸ h).of_append
  rw [hitems] at hord hnear hfirst
  obtain ⟨-, hrest, hcross⟩ := List.pairwise_append.1 hord
  have hblank : ∀ x, peb.endOf ds ≤ x → x < peb.start k → peb.byteAt x = 0xFF := by
    intro x hlo hhi
    refine byteAt_of_not fun i hi hstart => ?_
    rw [hitems] at hi
    rcases List.mem_append.1 hi with hi | hi
    · exact Nat.le_trans (finish_le_endOf hds hi) hlo
    · rcases List.mem_cons.1 hi with rfl | hi
      · omega
      · have hle := (List.pairwise_cons.1 hrest).1 i hi
        have hpos := (h.fits k (mem_items.2 hbuf)).size_pos
        omega
  have hends : peb.endOf ds ≤ peb.start k ∧
      peb.start k < peb.endOf ds + layout.pageSize.bytes := by
    unfold endOf
    cases hlast : (peb.itemsOf ds).getLast? with
    | none =>
      rw [List.getLast?_eq_none_iff.1 hlast, List.nil_append] at hfirst
      have := hfirst k rfl
      simp only
      omega
    | some last =>
      exact ⟨hcross last (List.mem_of_getLast? hlast) k List.mem_cons_self,
        (List.isChain_append.1 hnear).2.2 last hlast k rfl⟩
  exact ⟨hends.1, hends.2, hblank⟩

end PebContent

section

variable {layout : VolumeLayout} {peb : PebContent} {w : WriteState} {st : PebWriter} {fuel : Nat}

/-- The stream after some extents, without blank bytes behind the last of them. -/
structure Done (layout : VolumeLayout) (peb : PebContent) (w : WriteState)
    (ds : List ExtentIndex) (st : PebWriter) : Prop extends
    Streaming layout (peb.pebId * layout.env.eraseSize.toNat) peb.byteAt w st where
  pos : st.pebOffset = peb.endOf ds
  tight : st.flushedBytes + st.bufferOffset = st.pebOffset

theorem writeItem_ok (hdvd : layout.pageSize.bytes ∣ layout.env.eraseSize.toNat)
    (hpacked : peb.Packed layout peb.items)
    (hfirst : ∀ i, peb.items.head? = some i → peb.start i < layout.pageSize.bytes)
    (hfuel : layout.env.eraseSize.toNat < fuel) {k : ExtentIndex} {ds bs : List ExtentIndex}
    (hall : ExtentIndex.all = ds ++ k :: bs) (h : Done layout peb w ds st) :
    ∃ st', writeItem layout fuel peb k st = .ok st' ∧ Done layout peb w (ds ++ [k]) st' := by
  have herase := layout.env.eraseSize.toNat_lt
  have hfs := layout.env.fsSize.toNat_lt
  unfold writeItem
  simp only
  cases hbuf : (peb.extents k).buf with
  | none =>
    have hends : peb.endOf (ds ++ [k]) = peb.endOf ds := by
      unfold PebContent.endOf PebContent.itemsOf
      rw [List.filter_append]
      simp [hbuf]
    exact ⟨st, rfl, h.toStreaming, hends ▸ h.pos, h.tight⟩
  | some buf =>
    have hsome : (peb.extents k).buf.isSome := by rw [hbuf]; rfl
    have hends : peb.endOf (ds ++ [k]) = peb.finish k := by
      unfold PebContent.endOf PebContent.itemsOf
      rw [List.filter_append]
      simp [hbuf]
    obtain ⟨hle, hlt, hblank⟩ := hpacked.next hall hsome hfirst
    obtain ⟨hsize, hend, hvol⟩ := hpacked.fits k (PebContent.mem_items.2 hsome)
    have hfin : peb.start k + (peb.extents k).bytesCount.toNat = peb.finish k := rfl
    have hpos := h.pos
    have htight := h.tight
    have hroom := h.room
    have hstream : Streaming layout (peb.pebId * layout.env.eraseSize.toNat) peb.byteAt w
        { st with pebOffset := peb.start k } := by
      refine ⟨⟨h.pages, h.volume, h.device, h.buffer, h.frame⟩, ?_, ?_, hroom, ?_⟩ <;> simp only
      · omega
      · omega
      · exact fun x hlo hhi => hblank x (by omega) hhi
    obtain ⟨st', hrun, hst', hoff, htight'⟩ := @writeExtent_ok _ _ _ _ _ fuel buf
      (peb.extents k).bytesCount.toNat (Nat.dvd_mul_left_of_dvd hdvd _) hstream (fun j hj => by
        rw [PebContent.byteAt_of_mem hpacked hbuf (by simp only; omega) (by simp only; omega)]
        simp only [Nat.add_sub_cancel_left])
      (by simp only; omega) (by simp only; omega) (.inl (by omega)) (by omega)
    refine ⟨st', ?_, hst', ?_, htight'⟩
    · simp only
      rw [failIf_of_not (by change ¬peb.start k < st.pebOffset; omega), Checked.ok_bind]
      exact hrun
    · rw [hoff, hends, ← hfin]

/-- The device after the PEB has been written: its extents, blank bytes around them in the pages
written, which come one after the other, and nothing else. -/
structure PebWritten (layout : VolumeLayout) (peb : PebContent) (w w' : WriteState) : Prop where
  extents : ∀ k buf, (peb.extents k).buf = some buf → ∀ j < (peb.extents k).bytesCount.toNat,
    w'.device (peb.pebId * layout.env.eraseSize.toNat + (peb.extents k).offset.toNat + j) = buf j
  pages : ∃ n, w'.writes = w.writes ++ (List.range n).map (fun i =>
      (peb.pebId * layout.env.eraseSize.toNat + layout.pageSize.bytes * i,
        layout.pageSize.bytes)) ∧
    (∀ k ∈ peb.items, peb.finish k ≤ layout.pageSize.bytes * n) ∧
    (∀ x < layout.pageSize.bytes * n, (∀ k ∈ peb.items, peb.start k ≤ x → peb.finish k ≤ x) →
      w'.device (peb.pebId * layout.env.eraseSize.toNat + x) = 0xFF) ∧
    ∀ x, x < peb.pebId * layout.env.eraseSize.toNat ∨
      peb.pebId * layout.env.eraseSize.toNat + layout.pageSize.bytes * n ≤ x →
        w'.device x = w.device x
  empty : w'.bufferOffset = 0

theorem Held.pebWritten (hpacked : peb.Packed layout peb.items)
    (h : Held layout (peb.pebId * layout.env.eraseSize.toNat) peb.byteAt w st)
    (hend : peb.endOf ExtentIndex.all ≤ st.flushedBytes) (hempty : st.bufferOffset = 0) :
    PebWritten layout peb w st.toWriteState := by
  obtain ⟨n, hn, hwrites⟩ := h.pages
  have hfinish : ∀ k ∈ peb.items, peb.finish k ≤ st.flushedBytes := fun k hk =>
    Nat.le_trans (PebContent.finish_le_endOf hpacked hk) hend
  refine ⟨fun k buf hbuf j hj => ?_, ⟨n, hwrites, ?_, ?_, ?_⟩, hempty⟩
  · have hk : k ∈ peb.items := by
      rw [PebContent.mem_items, hbuf]
      rfl
    have hle := hfinish k hk
    have hstart : peb.start k = (peb.extents k).offset.toNat := rfl
    have hfin : peb.start k + (peb.extents k).bytesCount.toNat = peb.finish k := rfl
    rw [Nat.add_assoc, ← hstart, h.device _ (by omega),
      PebContent.byteAt_of_mem hpacked hbuf (by omega) (by omega), Nat.add_sub_cancel_left]
  · rwa [← hn]
  · intro x hx hnot
    rw [h.device x (hn ▸ hx)]
    exact PebContent.byteAt_of_not hnot
  · rw [← hn]
    exact h.frame

theorem writeContent_ok (hdvd : layout.pageSize.bytes ∣ layout.env.eraseSize.toNat)
    (hpacked : peb.Packed layout peb.items)
    (hfirst : ∀ i, peb.items.head? = some i → peb.start i < layout.pageSize.bytes)
    (hfuel : layout.env.eraseSize.toNat < fuel) (hpeb : peb.items ≠ [])
    (hempty : w.bufferOffset = 0) :
    ∃ w', writeContent layout fuel peb w = .ok w' ∧ PebWritten layout peb w w' ∧
      ∃ n, w'.writes = w.writes ++ (List.range n).map (fun i =>
        (peb.pebId * layout.env.eraseSize.toNat + layout.pageSize.bytes * i,
          layout.pageSize.bytes)) ∧
        layout.pageSize.bytes * n ≤ layout.env.eraseSize.toNat := by
  have hpage := layout.pageSize.bytes_ge
  have hle := layout.pageSize.bytes_le
  have hfs := layout.env.fsSize.toNat_lt
  have hbase : peb.pebId * layout.env.eraseSize.toNat < 18446744073709551616 := by
    obtain ⟨k, hk⟩ := List.exists_mem_of_ne_nil _ hpeb
    have := (hpacked.fits k hk).volume
    omega
  have hstart : Done layout peb w [] ⟨{ w with buffer := fun _ => 0xFF }, 0,
      peb.pebId * layout.env.eraseSize.toNat, 0⟩ := by
    refine ⟨⟨⟨⟨0, rfl, by simp⟩, rfl, ?_, ?_, fun x _ => rfl⟩, ?_, ?_, ?_, ?_⟩, rfl, ?_⟩ <;>
      simp only [hempty]
    · exact fun x hx => absurd hx (Nat.not_lt_zero x)
    · exact fun i _ => (if_neg (Nat.not_lt_zero i)).symm
    · exact Nat.le_refl _
    · omega
    · omega
    · intro x _ hx
      exact absurd hx (Nat.not_lt_zero x)
  obtain ⟨st, hrun, hdone⟩ := @Checked.forEach_ok _ _ _ (writeItem layout fuel peb)
    (Done layout peb w) [] ExtentIndex.all _ hstart
    fun es a bs t heq ht => writeItem_ok hdvd hpacked hfirst hfuel heq ht
  rw [List.nil_append] at hdone
  have hpos := hdone.pos
  have htight := hdone.tight
  have hroom := hdone.room
  have hend := hpacked.endOf_le
  obtain ⟨n, hn, hwrites⟩ := hdone.pages
  unfold writeContent
  simp only [Word.u64_of_lt hbase, hrun, Checked.ok_bind]
  split
  case isTrue hmore =>
    have hsize : Word.u32 (st.pebOffset - st.flushedBytes + (layout.pageSize.bytes - 1)) /
        layout.pageSize.bytes * layout.pageSize.bytes = layout.pageSize.bytes := by
      rw [Word.u32_of_lt (by omega), Nat.div_eq_of_lt_le (k := 1) (by omega) (by omega),
        Nat.one_mul]
    obtain ⟨hflush, hheld⟩ := hdone.toHeld.flush (Nat.dvd_mul_left_of_dvd hdvd _) fun i hlo _ =>
      PebContent.byteAt_of_not fun k hk _ => by
        have := PebContent.finish_le_endOf hpacked hk
        omega
    rw [hsize, hflush]
    refine ⟨_, rfl, hheld.pebWritten hpacked (by simp only; omega) rfl, n + 1, ?_, ?_⟩
    · change st.writes ++ [(st.volumeOffset, layout.pageSize.bytes)] = _
      rw [hwrites, hdone.volume, hn, List.range_succ, List.map_append, List.append_assoc]
      rfl
    · -- The last page begins inside of the erase block.
      obtain ⟨m, hm⟩ := hdvd
      rw [hm] at hend ⊢
      refine Nat.mul_le_mul_left _ (Nat.lt_of_mul_lt_mul_left (a := layout.pageSize.bytes) ?_)
      omega
  case isFalse hnone =>
    exact ⟨_, rfl, hdone.toHeld.pebWritten hpacked (by omega) (by omega), n, hwrites, by omega⟩

end

/-- A checked PEB that begins in its first page is written to its end, whatever the device says
when its zone is closed. -/
theorem writePeb_correct {layout : VolumeLayout} {a : SegsArray} {segIndex pebIndex fuel blks : Nat}
    {bmap bmap' : BlkBmap} {w : WriteState} (checkPeb : Bool → Mkfs Unit)
    (hpages : layout.LogPagesSet) (hseg : segIndex < a.segsCapacity)
    (hpeb : pebIndex < (a.segs segIndex).pebsCount)
    (hcheck : checkPebBeforeWrite layout (a.content (segIndex, pebIndex)) bmap = .ok (bmap', blks))
    (hfirst : ∀ k, (a.content (segIndex, pebIndex)).items.head? = some k →
      (a.content (segIndex, pebIndex)).start k < layout.pageSize.bytes)
    (hempty : w.bufferOffset = 0) (hfuel : layout.env.eraseSize.toNat < fuel) :
    ∃ w', PebWritten layout (a.content (segIndex, pebIndex)) w w' ∧
      writePeb layout fuel checkPeb a segIndex pebIndex w =
        (closePeb layout checkPeb (a.segs segIndex).segType w'.openZones).map fun openZones =>
          { w' with openZones } := by
  obtain ⟨hitems, hpacked, -⟩ := checkPebBeforeWrite_ok hpages.room hcheck
  obtain ⟨w', hrun, hwritten, -⟩ := writeContent_ok hpages.page_dvd hpacked hfirst hfuel hitems hempty
  refine ⟨w', hwritten, ?_⟩
  unfold writePeb
  rw [failIf_of_not (by omega), Checked.ok_bind, failIf_of_not (by omega), Checked.ok_bind, hrun,
    Checked.ok_bind]
  cases closePeb layout checkPeb (a.segs segIndex).segType w'.openZones <;> rfl

theorem writePeb_gapped :
    ∃ w', writePeb sixteenPebs 131073 (fun _ => .ok ()) gappedSegs 1 0
        ⟨fun _ => 0, 0, fun _ => 0, [], 0⟩ = .ok w' ∧
      w'.device (131072 + 4096) = 2 ∧ w'.bufferOffset = 0 := by
  obtain ⟨bmap, blks, hcheck⟩ : ∃ bmap blks, checkPebBeforeWrite sixteenPebs
      (gappedSegs.content (1, 0)) (fun _ => false) = .ok (bmap, blks) := ⟨_, _, rfl⟩
  have hitems : (gappedSegs.content (1, 0)).items.head? = some .segHeader := by decide
  obtain ⟨w', hwritten, hrun⟩ := @writePeb_correct _ _ _ _ 131073 _ _ _
    ⟨fun _ => 0, 0, fun _ => 0, [], 0⟩ (fun _ => .ok ())
    sixteenPebs_logPagesSet (by decide) (by decide) hcheck
    (fun k hk => by
      cases hitems.symm.trans hk
      decide) rfl (by decide)
  exact ⟨w', hrun, hwritten.extents .logPayload _ rfl 0 (by decide), hwritten.empty⟩

end Ssdfs
