import Ssdfs.Mkfs.LaidOut
import Ssdfs.Mkfs.Segments

namespace Ssdfs

section

variable {crc32 : UInt32 → List UInt8 → UInt32} {libs : CompressionLibs} {layout : VolumeLayout}
  {options : LogOptions} {segType : SegType} {payload : PayloadSource} {src : CommitSource}
  {buffers : Nat → Buf} {a₀ : SegsArray} {start used last i j k : Nat} {st st' : TableState}

/-- The loops over the PEBs and the ones that only hand out the buffers have come to the same PEB, and
the same PEBs have got the same buffers. -/
structure SameBuffers (t : WalkState HandOut) (st : TableState) : Prop where
  index : t.fragmentIndex = st.fragmentIndex
  startLogicalBlk : t.startLogicalBlk = st.startLogicalBlk
  fragments : t.rest.fragments = st.fragments
  payload : ∀ place, t.rest.a.payload place = st.a.payload place
  pebsCount : ∀ i, (t.rest.a.segs i).pebsCount = (st.a.segs i).pebsCount
  pebsCapacity : ∀ i, (t.rest.a.segs i).pebsCapacity = (st.a.segs i).pebsCapacity
  zones : t.rest.calculatedOpenZones = st.calculatedOpenZones.toNat

theorem layoutPeb_handsOut {t : WalkState HandOut} (h : SameBuffers t st)
    (hrun : layoutPeb crc32 libs layout options segType payload src start used last i j st = .ok st') :
    ∃ t', visitPeb layout payload (handOutPeb payload start) i j t = .ok t' ∧ SameBuffers t' st' := by
  unfold layoutPeb at hrun
  unfold visitPeb
  rw [h.index]
  split at hrun
  case isTrue hdone =>
    cases hrun
    exact ⟨t, if_pos hdone, h⟩
  case isFalse hmore =>
    obtain ⟨hroom, hrun⟩ := bugOn_bind_eq_ok.1 hrun
    obtain ⟨⟨peb, fragments⟩, hlog, hrun⟩ := Checked.bind_eq_ok.1 hrun
    obtain ⟨blks, -, hrun⟩ := Checked.bind_eq_ok.1 hrun
    cases hrun
    obtain ⟨hnone, hin, buf, htaken, hbuf, hleft⟩ := layoutLog_payload hlog
    have hpayload := h.payload (start + i, j)
    unfold SegsArray.payload at hpayload
    simp only at hnone hroom hin htaken
    rw [if_neg hmore]
    have hstep : handOutPeb payload start ⟨i, j, st.fragmentIndex, t.startLogicalBlk⟩ t.rest = .ok
        { a := t.rest.a.setSeg (start + i)
            ((t.rest.a.segs (start + i)).takePayload j buf payload.pebBufferSize)
          fragments := Function.update t.rest.fragments st.fragmentIndex none
          calculatedOpenZones := Word.u32 (t.rest.calculatedOpenZones + 1) } := by
      unfold handOutPeb SegsArray.payload
      simp only
      rw [h.pebsCount, h.pebsCapacity, bugOn_of_not hroom, Checked.ok_bind, hpayload, hnone,
        bugOn_of_not (by decide), Checked.ok_bind, if_neg (Nat.not_le.2 hin), h.fragments, htaken]
    rw [hstep, Checked.ok_bind]
    refine ⟨_, rfl,
      { index := rfl
        startLogicalBlk := by simp only [h.startLogicalBlk]
        fragments := by rw [hleft, ← h.fragments]
        payload := ?_
        pebsCount := fun seg => ?_
        pebsCapacity := fun seg => ?_
        zones := ?_ }⟩
    · rintro ⟨seg, k⟩
      simp only [SegsArray.setSeg_setPeb, SegsArray.payload_setSeg]
      split
      case isTrue heq =>
        rw [SegmentDesc.takePayload_payload, Function.update_apply]
        split
        case isTrue => exact hbuf.symm
        case isFalse => exact h.payload (start + i, k)
      case isFalse => exact h.payload (seg, k)
    · simp only [SegsArray.setSeg_setPeb]
      simp only [SegsArray.setSeg, Function.update_apply]
      split
      case isTrue heq => exact congrArg (fun n => Word.u16 (n + 1)) (h.pebsCount (start + i))
      case isFalse => exact h.pebsCount seg
    · simp only [SegsArray.setSeg_setPeb]
      simp only [SegsArray.setSeg, Function.update_apply]
      split
      case isTrue heq => exact h.pebsCapacity (start + i)
      case isFalse => exact h.pebsCapacity seg
    · simp only [h.zones, UInt32.toNat_add, Word.u32]
      rfl

theorem layoutSeg_handsOut {t : Nat × HandOut} (h : SameBuffers ⟨t.1, st.startLogicalBlk, t.2⟩ st)
    (hrun : layoutSeg crc32 libs layout options segType payload src start i st = .ok st') :
    ∃ t', visitSeg layout payload (handOutPeb payload start) i t = .ok t' ∧
      SameBuffers ⟨t'.1, st'.startLogicalBlk, t'.2⟩ st' := by
  obtain ⟨used, hused, hrun⟩ := Checked.bind_eq_ok.1 hrun
  obtain ⟨u, hu, hsame⟩ := Checked.forRange_simulates SameBuffers hrun
    (t := (⟨t.1, 0, t.2⟩ : WalkState HandOut))
    ⟨h.index, rfl, h.fragments, h.payload, h.pebsCount, h.pebsCapacity, h.zones⟩
    fun j _ t st st' hsame hstep => layoutPeb_handsOut hsame hstep
  unfold visitSeg
  rw [hused, Checked.ok_bind, hu, Checked.ok_bind]
  exact ⟨_, rfl, hsame.index, rfl, hsame.fragments, hsame.payload, hsame.pebsCount,
    hsame.pebsCapacity, hsame.zones⟩

/-- The array with the segments before `start` and from `stop` on as they have been. -/
def Outside (start stop : Nat) (a a' : SegsArray) : Prop :=
  ∀ k, k < start ∨ stop ≤ k → a'.segs k = a.segs k

/-- The first `m` PEBs of a table that has `n` segments from `start` on have their logs, with a buffer
each. -/
structure PayloadsLaid (buffers : Nat → Buf) (pebsPerSeg start n m : Nat) (a : SegsArray) : Prop where
  laid : ∀ i < n, ∀ j < pebsPerSeg, i * pebsPerSeg + j < m → j < (a.segs (start + i)).pebsCount ∧
    (((a.segs (start + i)).pebs j).extents .logPayload).buf = some (buffers (i * pebsPerSeg + j)).data
  counted : ∀ i < n, ∀ j < (a.segs (start + i)).pebsCount, j < pebsPerSeg ∧ i * pebsPerSeg + j < m

theorem PayloadsLaid.congr {pebsPerSeg n m start' stop' : Nat} {a a' : SegsArray}
    (h : PayloadsLaid buffers pebsPerSeg start n m a) (hout : Outside start' stop' a a')
    (hapart : start + n ≤ start' ∨ stop' ≤ start) : PayloadsLaid buffers pebsPerSeg start n m a' where
  laid i hi := by rw [hout (start + i) (by omega)]; exact h.laid i hi
  counted i hi := by rw [hout (start + i) (by omega)]; exact h.counted i hi

/-- The loops have come to PEB `q` of the table. -/
structure LayingPayloads (buffers : Nat → Buf) (payload : PayloadSource) (start n q : Nat)
    (st : TableState) : Prop where
  index : st.fragmentIndex = min q payload.fragmentsCount
  fragments : ∀ k, st.fragmentIndex ≤ k → st.fragments k = some (buffers k)
  payloads : PayloadsLaid buffers payload.pebsPerSeg start n st.fragmentIndex st.a

theorem pebIndex_inj {pebsPerSeg i' j' : Nat} (hj : j < pebsPerSeg) (hj' : j' < pebsPerSeg)
    (h : i' * pebsPerSeg + j' = i * pebsPerSeg + j) : i' = i ∧ j' = j := by
  have hdiv := congrArg (· / pebsPerSeg) h
  simp only [Nat.mul_comm _ pebsPerSeg] at hdiv
  rw [Nat.mul_add_div (by omega), Nat.mul_add_div (by omega), Nat.div_eq_of_lt hj, Nat.div_eq_of_lt hj']
    at hdiv
  obtain rfl : i' = i := hdiv
  exact ⟨rfl, Nat.add_left_cancel h⟩

theorem LayingPayloads.pebsCount_eq {n : Nat}
    (h : LayingPayloads buffers payload start n (i * payload.pebsPerSeg + j) st) (hi : i < n)
    (hj : j < payload.pebsPerSeg) (hmore : st.fragmentIndex < payload.fragmentsCount) :
    (st.a.segs (start + i)).pebsCount = j := by
  have hindex := h.index
  apply Nat.le_antisymm
  · by_contra hgt
    have hbefore := (h.payloads.counted i hi j (Nat.not_le.1 hgt)).2
    omega
  · rcases Nat.eq_zero_or_pos j with rfl | hpos
    · exact Nat.zero_le _
    · have hbefore := (h.payloads.laid i hi (j - 1) (by omega) (by omega)).1
      omega

theorem LayingPayloads.step {n : Nat}
    (h : LayingPayloads buffers payload start n (i * payload.pebsPerSeg + j) st) (hi : i < n)
    (hj : j < payload.pebsPerSeg) (hpebs : payload.pebsPerSeg < 65536)
    (hrun : layoutPeb crc32 libs layout options segType payload src start used last i j st = .ok st') :
    LayingPayloads buffers payload start n (i * payload.pebsPerSeg + (j + 1)) st' := by
  have hindex := h.index
  unfold layoutPeb at hrun
  split at hrun
  case isTrue hdone =>
    cases hrun
    exact ⟨by omega, h.fragments, h.payloads⟩
  case isFalse hmore =>
    have hhere : st.fragmentIndex = i * payload.pebsPerSeg + j := by omega
    have hcount := h.pebsCount_eq hi hj (Nat.not_le.1 hmore)
    obtain ⟨-, hrun⟩ := bugOn_bind_eq_ok.1 hrun
    obtain ⟨⟨peb, fragments⟩, hlog, hrun⟩ := Checked.bind_eq_ok.1 hrun
    obtain ⟨blks, -, hrun⟩ := Checked.bind_eq_ok.1 hrun
    cases hrun
    obtain ⟨-, -, buf, htaken, hbuf, hleft⟩ := layoutLog_payload hlog
    simp only at htaken hleft
    obtain rfl := Option.some.inj ((h.fragments _ (Nat.le_refl _)).symm.trans htaken)
    have hnext : Word.u16 ((st.a.segs (start + i)).pebsCount + 1) = j + 1 := by
      rw [hcount, Word.u16_of_lt (by omega)]
    have hadd := @SegsArray.setPeb_eq_addPeb _ _ _ _ peb hcount hnext
    have hself := @SegsArray.addPeb_self st.a (start + i) peb
    rw [hcount] at hself
    have hindex' : st.fragmentIndex + 1 = min (i * payload.pebsPerSeg + (j + 1)) payload.fragmentsCount := by
      omega
    simp only [hadd]
    refine ⟨hindex', fun k hk => ?_, ⟨fun i' hi' j' hj' hlt => ?_, fun i' hi' j' hj' => ?_⟩⟩
    · simp only at hk ⊢
      rw [hleft, Function.update_of_ne (by omega)]
      exact h.fragments k (by omega)
    · simp only at hlt ⊢
      by_cases hsame : i' * payload.pebsPerSeg + j' = st.fragmentIndex
      · obtain ⟨rfl, rfl⟩ := pebIndex_inj hj hj' (hsame.trans hhere)
        rw [hself, hsame]
        refine ⟨Nat.lt_succ_self _, ?_⟩
        simp only [Function.update_self]
        exact hbuf
      · obtain ⟨hpeb, hpayload⟩ := h.payloads.laid i' hi' j' hj' (by omega)
        by_cases hseg : i' = i
        · subst hseg
          rw [hself]
          have hbefore : j' < j := by omega
          refine ⟨Nat.lt_succ_of_lt hbefore, ?_⟩
          simp only [Function.update_of_ne (Nat.ne_of_lt hbefore)]
          exact hpayload
        · rw [SegsArray.addPeb_of_ne (by omega)]
          exact ⟨hpeb, hpayload⟩
    · simp only at hj' ⊢
      by_cases hseg : i' = i
      · subst hseg
        rw [hself] at hj'
        simp only at hj'
        exact ⟨by omega, by omega⟩
      · rw [SegsArray.addPeb_of_ne (by omega)] at hj'
        obtain ⟨hpeb, hlt⟩ := h.payloads.counted i' hi' j' hj'
        exact ⟨hpeb, by omega⟩

/-- The loop over a segment has come to PEB `j`. -/
structure NextPeb (buffers : Nat → Buf) (payload : PayloadSource) (a₀ : SegsArray) (start n i j : Nat)
    (st : TableState) : Prop where
  laying : Laying a₀ st.a st.calculatedOpenZones
  zoned : (st.a.segs (start + i)).segType ≠ some .initialSnapshot
  payloads : LayingPayloads buffers payload start n (i * payload.pebsPerSeg + j) st

theorem NextPeb.step {n : Nat} (h : NextPeb buffers payload a₀ start n i j st) (hi : i < n)
    (hj : j < payload.pebsPerSeg) (hpebs : payload.pebsPerSeg < 65536)
    (hrun : layoutPeb crc32 libs layout options segType payload src start used last i j st = .ok st') :
    NextPeb buffers payload a₀ start n i (j + 1) st' ∧
      ∀ k, k ≠ start + i → st'.a.segs k = st.a.segs k := by
  have hpayloads := h.payloads.step hi hj hpebs hrun
  unfold layoutPeb at hrun
  split at hrun
  case isTrue hdone =>
    cases hrun
    exact ⟨⟨h.laying, h.zoned, hpayloads⟩, fun k _ => rfl⟩
  case isFalse hmore =>
    have hcount := h.payloads.pebsCount_eq hi hj (Nat.not_le.1 hmore)
    obtain ⟨-, hrun⟩ := bugOn_bind_eq_ok.1 hrun
    obtain ⟨⟨peb, fragments⟩, hlog, hrun⟩ := Checked.bind_eq_ok.1 hrun
    obtain ⟨blks, -, hrun⟩ := Checked.bind_eq_ok.1 hrun
    cases hrun
    have hblank := h.laying.blank (start + i) j (Nat.le_of_eq hcount)
    obtain ⟨hplace, hheader⟩ := layoutLog_ok hblank hlog
    have hnext : Word.u16 ((st.a.segs (start + i)).pebsCount + 1) = j + 1 := by
      rw [hcount, Word.u16_of_lt (by omega)]
    have hadd := @SegsArray.setPeb_eq_addPeb _ _ _ _ peb hcount hnext
    rw [← SegmentDesc.headerOffset_of_ne h.zoned, ← hcount] at hheader
    have hlaying := h.laying.addPeb hplace hheader
    rw [if_neg h.zoned] at hlaying
    simp only [hadd] at hpayloads ⊢
    refine ⟨⟨hlaying, ?_, hpayloads⟩, fun k hk => SegsArray.addPeb_of_ne hk⟩
    rw [(hlaying.segs _).1, ← (h.laying.segs _).1]
    exact h.zoned

theorem layoutSeg_laying {n : Nat} (h : Laying a₀ st.a st.calculatedOpenZones)
    (hpayloads : LayingPayloads buffers payload start n (i * payload.pebsPerSeg) st)
    (hzoned : (st.a.segs (start + i)).segType ≠ some .initialSnapshot)
    (hi : i < n) (hpebs : payload.pebsPerSeg < 65536)
    (hrun : layoutSeg crc32 libs layout options segType payload src start i st = .ok st') :
    Laying a₀ st'.a st'.calculatedOpenZones ∧
      LayingPayloads buffers payload start n ((i + 1) * payload.pebsPerSeg) st' ∧
        ∀ k, k ≠ start + i → st'.a.segs k = st.a.segs k := by
  obtain ⟨used, -, hrun⟩ := Checked.bind_eq_ok.1 hrun
  obtain ⟨hnext, hothers⟩ := Checked.forRange_ind (fun j t => NextPeb buffers payload a₀ start n i j t ∧
    ∀ k, k ≠ start + i → t.a.segs k = st.a.segs k) hrun
    ⟨⟨h, hzoned, hpayloads.index, hpayloads.fragments, hpayloads.payloads⟩, fun k _ => rfl⟩
    fun j hj t t' ht hstep => by
      obtain ⟨hnext, hsame⟩ := ht.1.step hi hj hpebs hstep
      exact ⟨hnext, fun k hk => (hsame k hk).trans (ht.2 k hk)⟩
  rw [Nat.succ_mul]
  exact ⟨hnext.laying, hnext.payloads, hothers⟩

/-- The segments from `start` to `stop`, of a metadata structure, have no PEB that is counted. -/
structure Fresh (metaIndex : MetaIndex) (start stop : Nat) (a : SegsArray) : Prop where
  segType : ∀ k, start ≤ k → k < stop → (a.segs k).segType = some metaIndex
  pebsCount : ∀ k, start ≤ k → k < stop → (a.segs k).pebsCount = 0

theorem Fresh.congr {metaIndex : MetaIndex} {start stop start' stop' : Nat} {a a' : SegsArray}
    (h : Fresh metaIndex start stop a) (hout : Outside start' stop' a a')
    (hapart : stop ≤ start' ∨ stop' ≤ start) : Fresh metaIndex start stop a' where
  segType k hlo hhi := by rw [hout k (by omega)]; exact h.segType k hlo hhi
  pebsCount k hlo hhi := by rw [hout k (by omega)]; exact h.pebsCount k hlo hhi

variable {metaIndex : MetaIndex} {c c' : Creation} {blks segsMax : Nat}

/-- The loop over the segments of a table has come to segment `k`. -/
theorem layoutSegs_laying {n : Nat} (hzoned : metaIndex ≠ .initialSnapshot)
    (hpebs : payload.pebsPerSeg < 65536) (h : Laying a₀ c.a c.src.calculatedOpenZones)
    (hfresh : Fresh metaIndex start (start + n) c.a) (hk : k ≤ n)
    (hrun : Checked.forRange k (layoutSeg crc32 libs layout options segType payload c.src start)
      ⟨c.a, fun b => some (buffers b), c.src.calculatedOpenZones, 0, 0, 0, 0⟩ = .ok st) :
    Laying a₀ st.a st.calculatedOpenZones ∧
      LayingPayloads buffers payload start n (k * payload.pebsPerSeg) st ∧
        Outside start (start + n) c.a st.a := by
  have hnone : ∀ i < n, (c.a.segs (start + i)).pebsCount = 0 := fun i hi =>
    hfresh.pebsCount (start + i) (Nat.le_add_right ..) (Nat.add_lt_add_left hi start)
  refine Checked.forRange_ind (fun i t => Laying a₀ t.a t.calculatedOpenZones ∧
      LayingPayloads buffers payload start n (i * payload.pebsPerSeg) t ∧
        Outside start (start + n) c.a t.a) hrun
    ⟨h, ⟨by simp, fun k _ => rfl, fun i _ j _ hlt => absurd hlt (Nat.not_lt_zero _),
      fun i hi j hj => absurd (hnone i hi ▸ hj) (Nat.not_lt_zero j)⟩, fun k _ => rfl⟩ ?_
  intro i hi t t' ht hstep
  have htype : (t.a.segs (start + i)).segType = some metaIndex := by
    rw [(ht.1.segs _).1, ← (h.segs _).1]
    exact hfresh.segType _ (Nat.le_add_right ..) (by omega)
  obtain ⟨hlaying, hpayloads, hothers⟩ := layoutSeg_laying ht.1 ht.2.1 (by
    rw [htype]
    exact fun heq => hzoned (Option.some.inj heq)) (Nat.lt_of_lt_of_le hi hk) hpebs hstep
  exact ⟨hlaying, hpayloads, fun k hk => (hothers k (by omega)).trans (ht.2.2 k hk)⟩

theorem metaMkfsDefineLayout_laying {n : Nat} (hzoned : metaIndex ≠ .initialSnapshot)
    (hpebs : payload.pebsPerSeg < 65536) (h : Laying a₀ c.a c.src.calculatedOpenZones)
    (hplace : (c.a.metaArray metaIndex).startSegIndex = start ∧ (c.a.metaArray metaIndex).segsCount = n)
    (hfresh : Fresh metaIndex start (start + n) c.a)
    (hrun : metaMkfsDefineLayout crc32 libs layout options metaIndex segType segsMax payload buffers c =
      .ok (c', blks)) :
    Laying a₀ c'.a c'.src.calculatedOpenZones ∧ Outside start (start + n) c.a c'.a ∧
      PayloadsLaid buffers payload.pebsPerSeg start n
        (min (n * payload.pebsPerSeg) payload.fragmentsCount) c'.a := by
  obtain ⟨-, hrun⟩ := failIf_bind_eq_ok.1 hrun
  obtain ⟨-, hrun⟩ := failIf_bind_eq_ok.1 hrun
  obtain ⟨-, hrun⟩ := failIf_bind_eq_ok.1 hrun
  obtain ⟨st, hloop, hrun⟩ := Checked.bind_eq_ok.1 hrun
  cases hrun
  rw [hplace.1, hplace.2] at hloop
  obtain ⟨hlaying, hpayloads, hrest⟩ := layoutSegs_laying hzoned hpebs h hfresh (Nat.le_refl n) hloop
  exact ⟨hlaying, hrest, hpayloads.index ▸ hpayloads.payloads⟩

/-- Where `metaMkfsDefineLayout` succeeds, it hands the buffers out as `handOutBuffers` does. -/
theorem metaMkfsDefineLayout_handsOut
    (hrun : metaMkfsDefineLayout crc32 libs layout options metaIndex segType segsMax payload buffers c =
      .ok (c', blks)) :
    ¬((c.a.metaArray metaIndex).segsCount = 0 ∨ (c.a.metaArray metaIndex).segsCount > segsMax) ∧
      ∃ t, handOutBuffers layout payload (c.a.metaArray metaIndex)
          ⟨c.a, fun b => some (buffers b), c.src.calculatedOpenZones.toNat⟩ = .ok t ∧
        t.calculatedOpenZones = c'.src.calculatedOpenZones.toNat ∧
          ∀ place, t.a.payload place = c'.a.payload place := by
  obtain ⟨hcount, hrun⟩ := failIf_bind_eq_ok.1 hrun
  obtain ⟨hstart, hrun⟩ := failIf_bind_eq_ok.1 hrun
  obtain ⟨hroom, hrun⟩ := failIf_bind_eq_ok.1 hrun
  obtain ⟨st, hloop, hrun⟩ := Checked.bind_eq_ok.1 hrun
  cases hrun
  obtain ⟨t, ht, hsame⟩ := Checked.forRange_simulates
    (fun (t : Nat × HandOut) (st : TableState) => SameBuffers ⟨t.1, st.startLogicalBlk, t.2⟩ st) hloop
    (t := (0, ⟨c.a, fun b => some (buffers b), c.src.calculatedOpenZones.toNat⟩))
    ⟨rfl, rfl, rfl, fun _ => rfl, fun _ => rfl, fun _ => rfl, rfl⟩
    fun i _ t st st' hsame hstep => layoutSeg_handsOut hsame hstep
  refine ⟨hcount, t.2, ?_, hsame.zones, hsame.payload⟩
  unfold handOutBuffers walkPebs
  rw [failIf_of_not hstart, Checked.ok_bind, failIf_of_not hroom, Checked.ok_bind, ht]
  rfl

theorem segbmapMkfsDefineLayout_handsOut {g : SegbmapGeometry} {fuel : Nat}
    (hrun : c.segbmapMkfsDefineLayout crc32 libs layout options fuel g buffers = .ok c') :
    ∃ t, segbmapHandOut layout g
        ⟨c.a, fun b => some (buffers b), c.src.calculatedOpenZones.toNat⟩ = .ok t ∧
      t.calculatedOpenZones = c'.src.calculatedOpenZones.toNat ∧
        ∀ place, t.a.payload place = c'.a.payload place := by
  obtain ⟨⟨c₁, blks⟩, hwalk, hrun⟩ := Checked.bind_eq_ok.1 hrun
  obtain ⟨⟨pages, recorded⟩, -, hrun⟩ := Checked.bind_eq_ok.1 hrun
  cases hrun
  obtain ⟨hcount, t, ht, hsame⟩ := metaMkfsDefineLayout_handsOut hwalk
  refine ⟨t, ?_, hsame⟩
  unfold segbmapHandOut
  simp only
  rw [failIf_of_not hcount, Checked.ok_bind, ht]

theorem layoutFirstPeb_laying {log : SegsArray → Nat → PebContent → Mkfs PebContent}
    {segIndex offset : Nat} {a a' : SegsArray} {openZones : UInt32} {peb : PebContent}
    (hlog : ∀ a peb peb', peb.IsBlank → log a segIndex peb = .ok peb' →
      segIndex < a.segsCapacity ∧ peb.GetsHeader offset peb')
    (hoffset : (a.segs segIndex).headerOffset = offset)
    (h : Laying a₀ a openZones) (hfresh : (a.segs segIndex).pebsCount = 0)
    (hrun : layoutFirstPeb log segIndex a = .ok (a', peb)) :
    Laying a₀ a' (if (a.segs segIndex).segType = some .initialSnapshot then openZones
      else openZones + 1) ∧ (∀ k, k ≠ segIndex → a'.segs k = a.segs k) ∧
        (a'.segs segIndex).pebsCount = 1 := by
  obtain ⟨-, hrun⟩ := bugOn_bind_eq_ok.1 hrun
  obtain ⟨peb', hpeb, hrun⟩ := Checked.bind_eq_ok.1 hrun
  cases hrun
  obtain ⟨hplace, hheader⟩ := hlog _ _ _ (h.blank segIndex 0 (Nat.le_of_eq hfresh)) hpeb
  have hadd := @SegsArray.setPeb_eq_addPeb a segIndex 0 1 peb hfresh rfl
  rw [← hoffset, ← hfresh] at hheader
  have hlaying := h.addPeb hplace hheader
  rw [hadd]
  refine ⟨hlaying, fun k hk => SegsArray.addPeb_of_ne hk, ?_⟩
  rw [SegsArray.addPeb_self, hfresh]

/-- The segments of a volume that nothing has been laid out of. -/
structure ReadyToLayOut (layout : VolumeLayout) (g : SegbmapGeometry) (b m : Nat) (a : SegsArray) :
    Prop where
  capacity : a.segsCapacity = 7 + b + m
  segsCount : a.segsCount = 0
  types : ∀ i < a.segsCapacity, (a.segs i).segType = some (metaIndexOf b i)
  places : ∀ metaIndex, (a.metaArray metaIndex).startSegIndex = (metaRange b m metaIndex).1 ∧
    (a.metaArray metaIndex).segsCount = (metaRange b m metaIndex).2
  pebsCount : ∀ i, (a.segs i).pebsCount = 0
  blank : ∀ i j, ((a.segs i).pebs j).IsBlank
  pebsCapacity : ∀ i, (a.segs i).pebsCapacity = layout.pebsPerSeg
  segbmapPebs : g.pebsPerSeg < 65536
  pebsPerSeg : layout.pebsPerSeg < 65536

namespace ReadyToLayOut

variable {g : SegbmapGeometry} {b m : Nat} {a a' : SegsArray}

theorem laying (h : ReadyToLayOut layout g b m a) : Laying a a 0 where
  array := rfl
  segs _ := ⟨rfl, rfl, rfl⟩
  pebs _ _ := ⟨rfl, rfl⟩
  blank i j _ := h.blank i j
  headed i j hj := absurd (h.pebsCount i ▸ hj) (Nat.not_lt_zero j)
  counted := by
    have hnone : a.zonesOf = fun _ => 0 := by
      funext i
      unfold SegsArray.zonesOf
      rw [h.pebsCount i, ite_self]
    unfold SegsArray.zonesTotal
    rw [hnone]
    simp
    rfl

theorem fresh (h : ReadyToLayOut layout g b m a) (metaIndex : MetaIndex) :
    Fresh metaIndex (metaRange b m metaIndex).1
      ((metaRange b m metaIndex).1 + (metaRange b m metaIndex).2) a where
  segType k hlo hhi := by
    have hcapacity := h.capacity
    have hlt : k < a.segsCapacity := by
      cases metaIndex <;> simp only [metaRange] at hhi <;> omega
    rw [h.types k hlt]
    unfold metaIndexOf
    cases metaIndex <;> simp only [metaRange] at hlo hhi
    · rw [if_pos (by omega)]
    · rw [if_neg (by omega), if_pos (by omega)]
    · rw [if_neg (by omega), if_neg (by omega), if_pos (by omega)]
    · rw [if_neg (by omega), if_neg (by omega), if_neg (by omega)]
    · omega
  pebsCount k _ _ := h.pebsCount k

end ReadyToLayOut

variable {g : SegbmapGeometry} {b m fuel : Nat} {a : SegsArray} {segbmapBuffers maptblBuffers : Nat → Buf}

theorem snapMkfsDefineLayout_laying (h : Laying a₀ c.a c.src.calculatedOpenZones)
    (hfresh : Fresh .initialSnapshot 0 1 c.a)
    (hstart : (c.a.metaArray .initialSnapshot).startSegIndex = 0)
    (hrun : c.snapMkfsDefineLayout layout = .ok c') :
    Laying a₀ c'.a c'.src.calculatedOpenZones ∧ Outside 0 1 c.a c'.a ∧
      (c'.a.segs 0).pebsCount = 1 := by
  obtain ⟨-, hrun⟩ := failIf_bind_eq_ok.1 hrun
  obtain ⟨-, hrun⟩ := failIf_bind_eq_ok.1 hrun
  obtain ⟨-, hrun⟩ := failIf_bind_eq_ok.1 hrun
  obtain ⟨⟨a', peb⟩, hlog, hrun⟩ := Checked.bind_eq_ok.1 hrun
  cases hrun
  rw [hstart] at hlog
  have hsnap := hfresh.segType 0 (Nat.le_refl 0) Nat.one_pos
  obtain ⟨hlaying, hothers, hone⟩ := layoutFirstPeb_laying (fun a peb peb' => layoutSnapLog_ok)
    (if_pos hsnap) h (hfresh.pebsCount 0 (Nat.le_refl 0) Nat.one_pos) hlog
  rw [if_pos hsnap] at hlaying
  exact ⟨hlaying, fun k hk => hothers k (by omega), hone⟩

/-- The first `n` of the superblock segments are done. -/
structure SbLaid (a₀ a : SegsArray) (n : Nat) (t : Creation × Nat) : Prop where
  laying : Laying a₀ t.1.a t.1.src.calculatedOpenZones
  rest : ∀ k, k < 1 ∨ 1 + n ≤ k → t.1.a.segs k = a.segs k
  current : ∀ k < n, k < 2 → (t.1.a.segs (1 + k)).pebsCount = 1
  idle : ∀ k, 2 ≤ k → t.1.a.segs (1 + k) = a.segs (1 + k)

theorem layoutSbSeg_laying {st st' : Creation × Nat} (h : Laying a₀ st.1.a st.1.src.calculatedOpenZones)
    (hzoned : (st.1.a.segs (start + (i * sbSegCopyMax + j))).segType ≠ some .initialSnapshot)
    (hfresh : (st.1.a.segs (start + (i * sbSegCopyMax + j))).pebsCount = 0)
    (hrun : layoutSbSeg layout start i j st = .ok st') :
    Laying a₀ st'.1.a st'.1.src.calculatedOpenZones ∧
      (∀ k, k ≠ start + (i * sbSegCopyMax + j) → st'.1.a.segs k = st.1.a.segs k) ∧
        (i = curSbSeg → (st'.1.a.segs (start + (i * sbSegCopyMax + j))).pebsCount = 1) ∧
          (i ≠ curSbSeg → st' = st) := by
  unfold layoutSbSeg at hrun
  split at hrun
  case isTrue hnext =>
    cases hrun
    exact ⟨h, fun k _ => rfl, fun hcur => absurd hcur hnext, fun _ => rfl⟩
  case isFalse hcur =>
    obtain ⟨⟨a', peb⟩, hlog, hrun⟩ := Checked.bind_eq_ok.1 hrun
    obtain ⟨blks, -, hrun⟩ := Checked.bind_eq_ok.1 hrun
    cases hrun
    have hfirst := layoutFirstPeb_laying (fun a peb peb' => layoutSbLog_ok)
      (SegmentDesc.headerOffset_of_ne hzoned) h hfresh hlog
    rw [if_neg hzoned] at hfirst
    exact ⟨hfirst.1, hfirst.2.1, fun _ => hfirst.2.2, fun hnext => absurd hnext hcur⟩

theorem sbMkfsDefineLayout_laying (h : Laying a₀ c.a c.src.calculatedOpenZones)
    (hfresh : Fresh .superblock 1 7 c.a) (hstart : (c.a.metaArray .superblock).startSegIndex = 1)
    (hrun : c.sbMkfsDefineLayout layout = .ok c') :
    Laying a₀ c'.a c'.src.calculatedOpenZones ∧ Outside 1 7 c.a c'.a ∧
      (∀ k < 2, (c'.a.segs (1 + k)).pebsCount = 1) ∧ ∀ k, 3 ≤ k → c'.a.segs k = c.a.segs k := by
  obtain ⟨-, hrun⟩ := failIf_bind_eq_ok.1 hrun
  obtain ⟨-, hrun⟩ := failIf_bind_eq_ok.1 hrun
  obtain ⟨-, hrun⟩ := failIf_bind_eq_ok.1 hrun
  obtain ⟨⟨c₁, blks⟩, hloop, hrun⟩ := Checked.bind_eq_ok.1 hrun
  obtain ⟨logPages, -, hrun⟩ := Checked.bind_eq_ok.1 hrun
  cases hrun
  rw [hstart] at hloop
  have hlaid := Checked.forRange_ind (fun i (t : Creation × Nat) => SbLaid a₀ c.a (i * sbSegCopyMax) t)
    hloop ⟨h, fun k _ => rfl, fun k hk => absurd hk (by omega), fun k _ => rfl⟩
    fun i hi t t' ht hpair => by
      have hcopies := Checked.forRange_ind (fun j (t : Creation × Nat) =>
        SbLaid a₀ c.a (i * sbSegCopyMax + j) t) hpair ht fun j hj t t' ht hseg => by
          unfold reservedSbSeg at hi
          unfold sbSegCopyMax at *
          have hsame := ht.rest (1 + (i * 2 + j)) (.inr (Nat.le_refl _))
          have htype := hfresh.segType (1 + (i * 2 + j)) (by omega) (by omega)
          have hcount := hfresh.pebsCount (1 + (i * 2 + j)) (by omega) (by omega)
          rw [← hsame] at htype hcount
          obtain ⟨hlaying, hothers, hone, hkept⟩ := layoutSbSeg_laying ht.laying
            (by unfold sbSegCopyMax; rw [htype]; decide) hcount hseg
          unfold sbSegCopyMax at hothers hone
          unfold curSbSeg at hone hkept
          refine ⟨hlaying, fun k hk => (hothers k (by omega)).trans (ht.rest k (by omega)),
            fun k hk hcur => ?_, fun k hk => ?_⟩
          · by_cases hk' : k = i * 2 + j
            · rw [hk']
              exact hone (by omega)
            · rw [hothers (1 + k) (by omega)]
              exact ht.current k (by omega) hcur
          · by_cases hi0 : i = 0
            · rw [hothers (1 + k) (by omega)]
              exact ht.idle k hk
            · rw [hkept hi0]
              exact ht.idle k hk
      rw [Nat.succ_mul]
      exact hcopies
  refine ⟨hlaid.laying, hlaid.rest, fun k hk => hlaid.current k (Nat.lt_trans hk (by decide)) hk,
    fun k hk => ?_⟩
  have hidle := hlaid.idle (k - 1) (by omega)
  rw [Nat.add_sub_cancel' (by omega : 1 ≤ k)] at hidle
  exact hidle

/-- The volume when its logs are laid out: no PEB without a header is counted, the snapshot, the
superblock and its copy have one PEB, and each PEB of a table has a buffer. -/
structure LaidVolume (layout : VolumeLayout) (g : SegbmapGeometry) (b m : Nat)
    (segbmapBuffers maptblBuffers : Nat → Buf) (a₀ a : SegsArray) (openZones : UInt32) : Prop where
  laying : Laying a₀ a openZones
  current : ∀ k < 3, (a.segs k).pebsCount = 1
  idle : ∀ k, 3 ≤ k → k < 7 → (a.segs k).pebsCount = 0
  segbmap : PayloadsLaid segbmapBuffers g.pebsPerSeg 7 b (min (b * g.pebsPerSeg) g.fragmentsCount) a
  maptbl : PayloadsLaid maptblBuffers layout.pebsPerSeg (7 + b) m
    (min (m * layout.pebsPerSeg) layout.maptbl.portionsCount) a

theorem mkfsDefineLayout_laying (h : ReadyToLayOut layout g b m c.a)
    (hzones : c.src.calculatedOpenZones = 0)
    (hrun : c.mkfsDefineLayout crc32 libs layout options fuel g segbmapBuffers maptblBuffers = .ok c') :
    LaidVolume layout g b m segbmapBuffers maptblBuffers c.a c'.a c'.src.calculatedOpenZones := by
  obtain ⟨c₁, hsnap, hrun⟩ := Checked.bind_eq_ok.1 hrun
  obtain ⟨c₂, hsb, hrun⟩ := Checked.bind_eq_ok.1 hrun
  obtain ⟨c₃, hsegbmap, hrun⟩ := Checked.bind_eq_ok.1 hrun
  obtain ⟨c₄, hmaptbl, hrun⟩ := Checked.bind_eq_ok.1 hrun
  have hstart := h.laying
  rw [← hzones] at hstart
  have hplaces : ∀ {c'' : Creation}, Laying c.a c''.a c''.src.calculatedOpenZones → ∀ metaIndex,
      (c''.a.metaArray metaIndex).startSegIndex = (metaRange b m metaIndex).1 ∧
        (c''.a.metaArray metaIndex).segsCount = (metaRange b m metaIndex).2 :=
    fun hlaying metaIndex => by
      rw [hlaying.array]
      exact h.places metaIndex
  obtain ⟨h₁, hout₁, hone⟩ := snapMkfsDefineLayout_laying hstart (h.fresh .initialSnapshot)
    (h.places .initialSnapshot).1 hsnap
  have hfresh₁ : Fresh .superblock 1 7 c₁.a := (h.fresh .superblock).congr hout₁ (.inr (Nat.le_refl 1))
  obtain ⟨h₂, hout₂, hcopies, hidle⟩ :=
    sbMkfsDefineLayout_laying h₁ hfresh₁ (hplaces h₁ .superblock).1 hsb
  have hfresh₂ : Fresh .segbmap 7 (7 + b) c₂.a :=
    ((h.fresh .segbmap).congr hout₁ (.inr (by simp [metaRange]))).congr hout₂ (.inr (Nat.le_refl 7))
  obtain ⟨⟨c₅, blks₅⟩, hwalk, hsegbmap⟩ := Checked.bind_eq_ok.1 hsegbmap
  obtain ⟨⟨pages₅, recorded₅⟩, -, hsegbmap⟩ := Checked.bind_eq_ok.1 hsegbmap
  cases hsegbmap
  obtain ⟨h₃, hout₃, hsegbmap⟩ := metaMkfsDefineLayout_laying (by decide) h.segbmapPebs h₂
    (hplaces h₂ .segbmap) hfresh₂ hwalk
  have hfresh₃ : Fresh .pebMappingTable (7 + b) (7 + b + m) c₅.a :=
    (((h.fresh .pebMappingTable).congr hout₁ (.inr (by simp [metaRange]; omega))).congr hout₂
      (.inr (by simp [metaRange]))).congr hout₃ (.inr (Nat.le_refl _))
  obtain ⟨segs, -, hmaptbl⟩ := Checked.bind_eq_ok.1 hmaptbl
  obtain ⟨⟨c₆, blks₆⟩, hwalk', hmaptbl⟩ := Checked.bind_eq_ok.1 hmaptbl
  obtain ⟨⟨pages₆, recorded₆⟩, -, hmaptbl⟩ := Checked.bind_eq_ok.1 hmaptbl
  cases hmaptbl
  obtain ⟨h₄, hout₄, hmaptbl⟩ := metaMkfsDefineLayout_laying (c := { c₅ with src := { c₅.src with
      segbmapLogPages := UInt16.ofNat pages₅
      vh := Wire.u16.write c₅.src.vh segbmapLogPagesOffset recorded₅ } }) (by decide) h.pebsPerSeg h₃
    (hplaces h₃ .pebMappingTable) hfresh₃ hwalk'
  obtain ⟨⟨err, st⟩, -, hrun⟩ := Checked.bind_eq_ok.1 hrun
  cases err with
  | some e => cases hrun
  | none =>
    cases hrun
    have hsame : ∀ k < 7, c₆.a.segs k = c₂.a.segs k := fun k hk =>
      (hout₄ k (.inl (Nat.lt_of_lt_of_le hk (Nat.le_add_right 7 b)))).trans (hout₃ k (.inl hk))
    refine ⟨h₄, fun k hk => ?_, fun k hlo hhi => ?_, hsegbmap.congr hout₄ (.inl (Nat.le_refl _)), hmaptbl⟩
    · change (c₆.a.segs k).pebsCount = 1
      rw [hsame k (by omega)]
      rcases Nat.eq_zero_or_pos k with rfl | hpos
      · rw [hout₂ 0 (.inl Nat.one_pos)]
        exact hone
      · have hcopy := hcopies (k - 1) (by omega)
        rw [Nat.add_sub_cancel' hpos] at hcopy
        exact hcopy
    · change (c₆.a.segs k).pebsCount = 0
      rw [hsame k hhi, hidle k hlo]
      exact hfresh₁.pebsCount k (by omega) hhi

end

end Ssdfs
