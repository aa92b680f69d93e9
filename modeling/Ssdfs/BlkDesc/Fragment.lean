import Ssdfs.BlkDesc.Encode
import Ssdfs.Lib.Exact

namespace Ssdfs

open Memory

theorem bugOn_exact {c : Prop} [Decidable c] : Checked.Exact (bugOn c) (¬c) fun _ => True :=
  Checked.Exact.bugOn

theorem failIf_exact {c : Prop} [Decidable c] {e : Errno} :
    Checked.Exact (failIf c e) (¬c) fun _ => True where
  succeeds hc := ⟨(), failIf_of_not hc, trivial⟩
  only _ h hc := by
    unfold failIf at h
    rw [if_pos hc] at h
    exact fail_ne_ok _ _ h

section

variable {crc32 : List UInt8 → UInt32} {src : BlkDescSource} {m m' : Bytes}

/-- `count` descriptors lie at `array`. -/
def ItemsAt (src : BlkDescSource) (m : Bytes) (array page offset count : Nat) : Prop :=
  ∀ k < count, BlockDescriptor.wire.read m (array + k * 64) =
    blockDescriptor src (Word.u32 (offset + k * src.itemSize.toNat)) (Word.u32 (page + k))

theorem ItemsAt.congr {array page offset count : Nat} (h : ItemsAt src m array page offset count)
    (hm : ∀ x, array ≤ x → x < array + count * 64 → m' x = m x) :
    ItemsAt src m' array page offset count := fun k hk => by
  rw [← h k hk]
  refine BlockDescriptor.wire.read_congr fun i hi => ?_
  rw [BlockDescriptor.wire_size] at hi
  exact hm _ (by omega) (by omega)

theorem u32_add_u32 (a b : Nat) : Word.u32 (Word.u32 a + b) = Word.u32 (a + b) := by
  unfold Word.u32
  omega

theorem writeBlockDescriptors_exact {array start page offset count : Nat} {st : BlkDescState}
    (hpeb : src.pebIndex < Word.u16Max) (hfit : array + count * 64 ≤ st.buf.size)
    (hstart : start = Word.u32 page) (hcur : st.curByteOffset = Word.u32 offset) :
    Checked.Exact (Checked.forRange count (writeBlockDescriptor src array start) st)
      (∀ k < count, Word.u32 (page + k) < Word.u16Max)
      fun st' => st'.buf.size = st.buf.size ∧
        st'.curByteOffset = Word.u32 (offset + count * src.itemSize.toNat) ∧
        ItemsAt src st'.buf.data array page offset count ∧
        ∀ x, x < array ∨ array + count * 64 ≤ x → st'.buf.data x = st.buf.data x := by
  refine Checked.Exact.forRange (I := fun k (st' : BlkDescState) => st'.buf.size = st.buf.size ∧
    st'.curByteOffset = Word.u32 (offset + k * src.itemSize.toNat) ∧
    ItemsAt src st'.buf.data array page offset k ∧
    ∀ x, x < array ∨ array + k * 64 ≤ x → st'.buf.data x = st.buf.data x) ?_ ?_
  · exact ⟨rfl, by rw [hcur, Nat.zero_mul, Nat.add_zero], fun k hk => absurd hk (Nat.not_lt_zero k),
      fun _ _ => rfl⟩
  · rintro k hk t ⟨hsize, hoffset, hitems, hframe⟩
    unfold writeBlockDescriptor
    rw [bugOn_of_not (by omega), Checked.ok_bind]
    simp only [hstart, u32_add_u32]
    refine (bugOn_exact.bind (D := True) fun _ _ => ?_).congr
      (by rw [and_true, Nat.not_le]) fun _ h => h
    rw [Buf.put_ok (by rw [BlockDescriptor.wire_size, hsize]; unfold blockDescriptorSize; omega),
      Checked.ok_bind]
    refine Checked.Exact.ok ⟨hsize, ?_, ?_, ?_⟩
    · rw [hoffset, u32_add_u32, Nat.add_assoc, Nat.succ_mul]
    · intro j hj
      rcases Nat.lt_succ_iff_lt_or_eq.1 hj with hlt | rfl
      · rw [← hitems j hlt]
        refine BlockDescriptor.wire.read_write_of_disjoint BlockDescriptor.wire (.inl ?_)
        rw [BlockDescriptor.wire_size]
        unfold blockDescriptorSize
        omega
      · rw [← hoffset]
        exact BlockDescriptor.wire.read_write ..
    · intro x hx
      rw [← hframe x (by omega)]
      refine BlockDescriptor.wire.write_frame ?_
      rw [BlockDescriptor.wire_size]
      unfold blockDescriptorSize
      omega

/-- The descriptor of fragment `i` with `count` items. -/
def fragmentDesc (crc32 : List UInt8 → UInt32) (m : Bytes) (array offset i count : Nat) :
    FragmentDesc where
  offset := UInt32.ofNat offset
  comprSize := UInt16.ofNat (count * 64)
  uncomprSize := UInt16.ofNat (count * 64)
  checksum := crc32 (slice m array (count * 64))
  sequenceId := UInt8.ofNat i
  magic := fragmentDescMagic
  type := dataBlkDesc
  flags := fragmentHasCsum

theorem fragmentDesc_congr {array offset i count : Nat}
    (hm : ∀ x, array ≤ x → x < array + count * 64 → m' x = m x) :
    fragmentDesc crc32 m' array offset i count = fragmentDesc crc32 m array offset i count := by
  unfold fragmentDesc
  rw [slice_congr fun i hi => hm (array + i) (by omega) (by omega)]

structure FragmentAt (crc32 : List UInt8 → UInt32) (src : BlkDescSource) (m : Bytes)
    (fdesc array fragmentOffset i page offset count : Nat) : Prop where
  desc : FragmentDesc.wire.read m fdesc = fragmentDesc crc32 m array fragmentOffset i count
  items : ItemsAt src m array page offset count

theorem FragmentAt.congr {fdesc array fragmentOffset i page offset count : Nat}
    (h : FragmentAt crc32 src m fdesc array fragmentOffset i page offset count)
    (hdesc : ∀ x, fdesc ≤ x → x < fdesc + 16 → m' x = m x)
    (hm : ∀ x, array ≤ x → x < array + count * 64 → m' x = m x) :
    FragmentAt crc32 src m' fdesc array fragmentOffset i page offset count where
  desc := by
    rw [fragmentDesc_congr hm, ← h.desc]
    refine FragmentDesc.wire.read_congr fun i hi => ?_
    rw [FragmentDesc.wire_size] at hi
    exact hdesc _ (by omega) (by omega)
  items := h.items.congr hm

theorem prepareBlockDescriptorFragment_exact {i fdesc array fragmentOffset start page offset
    count : Nat} {st : BlkDescState} (hpeb : src.pebIndex < Word.u16Max) (hi : i < fragmentsChainMax)
    (hcount : count ≤ 60) (hdesc : fdesc + 16 ≤ array) (hfit : array + count * 64 ≤ st.buf.size)
    (hstart : start = Word.u32 page) (hcur : st.curByteOffset = Word.u32 offset) :
    Checked.Exact
      (prepareBlockDescriptorFragment crc32 src i fdesc array fragmentOffset start count st)
      (∀ k < count, Word.u32 (page + k) < Word.u16Max)
      fun st' => st'.buf.size = st.buf.size ∧
        st'.curByteOffset = Word.u32 (offset + count * src.itemSize.toNat) ∧
        FragmentAt crc32 src st'.buf.data fdesc array fragmentOffset i page offset count ∧
        ∀ x, (x < fdesc ∨ fdesc + 16 ≤ x) → (x < array ∨ array + count * 64 ≤ x) →
          st'.buf.data x = st.buf.data x := by
  unfold prepareBlockDescriptorFragment
  rw [failIf_of_not (Nat.not_le.2 hi), Checked.ok_bind]
  have hbytes : Word.u32 (blockDescriptorSize * count) = count * 64 := by
    unfold blockDescriptorSize
    rw [Word.u32_of_lt (by omega), Nat.mul_comm]
  unfold fragmentsChainMax at hi
  refine ((writeBlockDescriptors_exact hpeb hfit hstart hcur).bind (D := True) fun t ht => ?_).congr
    (by rw [and_true]) fun _ h => h
  obtain ⟨hsize, hoffset, hitems, hframe⟩ := ht
  simp only [hbytes]
  rw [bugOn_of_not (by omega), Checked.ok_bind, bugOn_of_not (by unfold Word.u16Max; omega),
    Checked.ok_bind, Buf.bytes_ok (by omega), Checked.ok_bind,
    Buf.put_ok (by rw [FragmentDesc.wire_size]; omega), Checked.ok_bind]
  have hkeep : ∀ x, x < fdesc ∨ fdesc + 16 ≤ x → ∀ d : FragmentDesc,
      FragmentDesc.wire.write t.buf.data fdesc d x = t.buf.data x := fun x hx d =>
    FragmentDesc.wire.write_frame (by rw [FragmentDesc.wire_size]; omega)
  refine Checked.Exact.ok ⟨hsize, hoffset, ⟨?_, ?_⟩, fun x hx hx' => ?_⟩
  · simp only
    rw [FragmentDesc.wire.read_write]
    exact (fragmentDesc_congr fun x hx _ => hkeep x (.inr (by omega)) _).symm
  · exact hitems.congr fun x hx _ => hkeep x (.inr (by omega)) _
  · simp only
    rw [hkeep x hx, hframe x hx']

end

/-- The items of fragment `i` as they are counted: none in a last fragment that is full. -/
def fragmentItems (fragmentsCount validBlks i : Nat) : Nat :=
  if i + 1 < fragmentsCount then 60 else validBlks % 60

def itemsBefore (fragmentsCount validBlks : Nat) : Nat → Nat
  | 0 => 0
  | i + 1 => itemsBefore fragmentsCount validBlks i + fragmentItems fragmentsCount validBlks i

section

variable {f n i j : Nat}

theorem fragmentItems_le : fragmentItems f n i ≤ 60 := by
  unfold fragmentItems
  split <;> omega

theorem itemsBefore_mono (h : i ≤ j) : itemsBefore f n i ≤ itemsBefore f n j := by
  induction h with
  | refl => exact Nat.le_refl _
  | step _ ih => exact Nat.le_trans ih (Nat.le_add_right _ _)

theorem itemsBefore_of_lt (h : i < f) : itemsBefore f n i = i * 60 := by
  induction i with
  | zero => rfl
  | succ i ih =>
    unfold itemsBefore fragmentItems
    rw [ih (by omega), if_pos h]
    omega

theorem itemsBefore_self (h : 0 < f) : itemsBefore f n f = (f - 1) * 60 + n % 60 := by
  obtain ⟨f, rfl⟩ := Nat.exists_eq_succ_of_ne_zero (Nat.pos_iff_ne_zero.1 h)
  unfold itemsBefore fragmentItems
  rw [itemsBefore_of_lt (Nat.lt_succ_self f), if_neg (Nat.lt_irrefl _)]
  rfl

theorem fragmentItems_end (h : i < f) :
    i * 60 + fragmentItems f n i ≤ itemsBefore f n f := by
  rw [← itemsBefore_of_lt (n := n) h]
  exact itemsBefore_mono (Nat.succ_le_of_lt h)

end

theorem areaBlockTable_blk {m : Bytes} {ptr : Nat} (i : Fin blkTableMax) :
    (AreaBlockTable.wire.read m ptr).blk i = FragmentDesc.wire.read m (blkOffset ptr i) := by
  unfold blkOffset
  rw [← Nat.add_assoc]
  rfl

def areaHeader (fragmentsCount validBlks : Nat) (hasNextArea : Bool) : FragmentsChainHeader where
  comprBytes := UInt32.ofNat (Word.u32 (areaBlockTableSize + validBlks * blockDescriptorSize))
  uncomprBytes := UInt32.ofNat (Word.u32 (areaBlockTableSize + validBlks * blockDescriptorSize))
  fragmentsCount := UInt16.ofNat fragmentsCount
  descSize := 16
  magic := chainHdrMagic
  type := blkDescChainHdr
  flags := if hasNextArea then multipleHdrChain else 0

def nextAreaDesc (areaIndex areaOffset validBlks : Nat) : FragmentDesc where
  offset :=
    UInt32.ofNat (areaOffset + Word.u32 (areaBlockTableSize + validBlks * blockDescriptorSize))
  comprSize := UInt16.ofNat areaBlockTableSize
  uncomprSize := UInt16.ofNat areaBlockTableSize
  checksum := 0
  sequenceId := UInt8.ofNat (Word.u16 (areaIndex * blkTableMax) + fragmentsChainMax)
  magic := fragmentDescMagic
  type := nextTableDesc
  flags := 0

/-- The table at `ptr`, whose first item describes block `page` at byte `offset` of the payload. -/
structure TableAt (crc32 : List UInt8 → UInt32) (src : BlkDescSource) (m : Bytes)
    (ptr areaIndex fragmentsCount : Nat) (hasNextArea : Bool) (page validBlks offset : Nat) :
    Prop where
  header : FragmentsChainHeader.wire.read m ptr = areaHeader fragmentsCount validBlks hasNextArea
  fragments : ∀ i < fragmentsCount, FragmentAt crc32 src m (blkOffset ptr i)
    (ptr + (256 + i * 3840)) (256 + i * 3840) i (page + i * 60)
    (offset + i * 60 * src.itemSize.toNat) (fragmentItems fragmentsCount validBlks i)
  next : hasNextArea = true →
    FragmentDesc.wire.read m (blkOffset ptr nextBlkTableIndex) = nextAreaDesc areaIndex ptr validBlks

section

variable {crc32 : List UInt8 → UInt32} {src : BlkDescSource} {m m' : Bytes}
  {ptr areaIndex f page n offset : Nat} {hasNextArea : Bool}

theorem TableAt.congr (h : TableAt crc32 src m ptr areaIndex f hasNextArea page n offset)
    (hf : f ≤ fragmentsChainMax)
    (hm : ∀ x, ptr ≤ x → x < ptr + 256 + itemsBefore f n f * 64 → m' x = m x) :
    TableAt crc32 src m' ptr areaIndex f hasNextArea page n offset where
  header := by
    rw [← h.header]
    refine FragmentsChainHeader.wire.read_congr fun i hi => ?_
    rw [FragmentsChainHeader.wire_size] at hi
    exact hm _ (by omega) (by omega)
  fragments i hi := by
    have hend := fragmentItems_end (n := n) hi
    unfold fragmentsChainMax at hf
    refine (h.fragments i hi).congr (fun x hlo hhi => hm x ?_ ?_) fun x hlo hhi => hm x ?_ ?_
    · unfold blkOffset at hlo
      omega
    · unfold blkOffset at hhi
      omega
    · omega
    · omega
  next hnext := by
    rw [← h.next hnext]
    refine FragmentDesc.wire.read_congr fun i hi => ?_
    rw [FragmentDesc.wire_size] at hi
    unfold blkOffset nextBlkTableIndex fragmentsChainMax
    exact hm _ (by omega) (by omega)

theorem prepareFragments_exact {st : BlkDescState} {start : Nat}
    (hpeb : src.pebIndex < Word.u16Max) (hf : f ≤ fragmentsChainMax)
    (hfit : ptr + 256 + itemsBefore f n f * 64 ≤ st.buf.size) (hsize : st.buf.size < 4294967296)
    (hstart : start = Word.u32 page) (hcur : st.curByteOffset = Word.u32 offset) :
    Checked.Exact (Checked.forRange f (prepareFragment crc32 src ptr f n) (st, start))
      (∀ i < f, ∀ k < fragmentItems f n i, Word.u32 (page + i * 60 + k) < Word.u16Max)
      fun st' => st'.1.buf.size = st.buf.size ∧
        st'.1.curByteOffset = Word.u32 (offset + itemsBefore f n f * src.itemSize.toNat) ∧
        (∀ i < f, FragmentAt crc32 src st'.1.buf.data (blkOffset ptr i)
          (ptr + (256 + i * 3840)) (256 + i * 3840) i (page + i * 60)
          (offset + i * 60 * src.itemSize.toNat) (fragmentItems f n i)) ∧
        ∀ x, x < ptr + 16 ∨ ptr + 256 + itemsBefore f n f * 64 ≤ x →
          st'.1.buf.data x = st.buf.data x := by
  refine (Checked.Exact.forRange (I := fun i (st' : BlkDescState × Nat) =>
    st'.1.buf.size = st.buf.size ∧
    st'.1.curByteOffset = Word.u32 (offset + itemsBefore f n i * src.itemSize.toNat) ∧
    st'.2 = Word.u32 (page + itemsBefore f n i) ∧
    (∀ j < i, FragmentAt crc32 src st'.1.buf.data (blkOffset ptr j)
      (ptr + (256 + j * 3840)) (256 + j * 3840) j (page + j * 60)
      (offset + j * 60 * src.itemSize.toNat) (fragmentItems f n j)) ∧
    ∀ x, x < ptr + 16 ∨ ptr + 256 + itemsBefore f n i * 64 ≤ x →
      st'.1.buf.data x = st.buf.data x) ?_ ?_).weaken
        fun st' ⟨h₁, h₂, _, h₃, h₄⟩ => ⟨h₁, h₂, h₃, h₄⟩
  · refine ⟨rfl, ?_, hstart, fun i hi => absurd hi (Nat.not_lt_zero i), fun _ _ => rfl⟩
    rw [hcur]
    simp [itemsBefore]
  · rintro i hi t ⟨hsz, hoff, hpage, hdone, hframe⟩
    have hend := fragmentItems_end (n := n) hi
    have hle : fragmentItems f n i ≤ 60 := fragmentItems_le
    unfold fragmentsChainMax at hf
    have hbefore : itemsBefore f n i = i * 60 := itemsBefore_of_lt hi
    rw [hbefore] at hoff hpage hframe
    unfold prepareFragment
    have hoffset : Word.u32 (areaBlockTableSize + i * (blkDescPerFragment * blockDescriptorSize)) =
        256 + i * 3840 := Word.u32_of_lt (by
      change 256 + i * 3840 < _
      omega)
    have hcount : (if i + 1 < f then blkDescPerFragment else n % blkDescPerFragment) =
      fragmentItems f n i := rfl
    simp only [hoffset, hcount]
    have hfragment := @prepareBlockDescriptorFragment_exact crc32 src i (blkOffset ptr i)
      (ptr + (256 + i * 3840)) (256 + i * 3840) t.2 (page + i * 60)
      (offset + i * 60 * src.itemSize.toNat) (fragmentItems f n i) t.1 hpeb
      (by unfold fragmentsChainMax; omega) hle (by unfold blkOffset; omega) (by omega) hpage hoff
    refine (hfragment.bind (D := True) fun t' ht' => ?_).congr (by rw [and_true]) fun _ h => h
    obtain ⟨hsz', hoff', hnew, hframe'⟩ := ht'
    refine Checked.Exact.ok ⟨by rw [hsz', hsz], ?_, ?_, fun j hj => ?_, fun x hx => ?_⟩
    · rw [hoff', itemsBefore, hbefore, Nat.add_mul, Nat.add_assoc]
    · rw [hpage, u32_add_u32, itemsBefore, hbefore, Nat.add_assoc]
    · rcases Nat.lt_succ_iff_lt_or_eq.1 hj with hlt | rfl
      · have hj' : fragmentItems f n j ≤ 60 := fragmentItems_le
        refine (hdone j hlt).congr (fun x hlo hhi => hframe' x ?_ ?_) fun x hlo hhi =>
          hframe' x ?_ ?_
        · unfold blkOffset at *
          omega
        · unfold blkOffset at *
          omega
        · unfold blkOffset
          omega
        · omega
      · exact hnew
    · rw [itemsBefore, hbefore] at hx
      have hslot : x < blkOffset ptr i ∨ blkOffset ptr i + 16 ≤ x := by
        unfold blkOffset
        omega
      simp only
      rw [hframe' x hslot (by omega), hframe x (by omega)]

end

end Ssdfs
