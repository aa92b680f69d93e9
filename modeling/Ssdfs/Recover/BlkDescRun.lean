import Ssdfs.Recover.BlkDesc

namespace Ssdfs

open Memory

@[simp] theorem prepareRawBuffer_size {buf : Option Buf} {n : Nat} :
    (prepareRawBuffer buf n).size = max (rawSize buf) n := by
  cases buf with
  | none => exact (Nat.zero_max n).symm
  | some b =>
    unfold prepareRawBuffer rawSize
    simp only
    split
    · exact (Nat.max_eq_right (Nat.le_of_lt ‹_›)).symm
    · exact (Nat.max_eq_left (Nat.not_lt.1 ‹_›)).symm

section

variable {crc32 : List UInt8 → UInt32} {decompress : UInt8 → Buf → Nat → Nat → Buf → Nat → Mkfs Buf}
  {src : BlkDescSource} {B : Buf} {f n page i j : Nat} {hasNextArea : Bool}
  {env : RawAreaEnvironment}

structure Opened (B : Buf) (env : RawAreaEnvironment) : Prop where
  buffer : env.buffer = some B
  state : env.iter.state = .unknown
  uncompressed : env.uncompressed = none

/-- `j` items have been read of fragment `i`. -/
structure Reading (src : BlkDescSource) (B : Buf) (f n page i j : Nat) (state : ContentState)
    (env : RawAreaEnvironment) : Prop where
  buffer : env.buffer = some B
  blkDescHdr : env.blkDescHdr = AreaBlockTable.wire.read B.data 0
  iter : ∃ portionSize,
    env.iter = ⟨state, 256, portionSize, i, fragmentItems f n i * 64, j * 64, 64⟩
  content : ∃ b, env.uncompressed = some b ∧ (∀ k ≤ i, fragmentItems f n k * 64 ≤ b.size) ∧
    ItemsAt src b.data 0 (page + i * 60) (i * 60 * src.itemSize.toNat) (fragmentItems f n i)

theorem uncompressFragment_ok {d : FragmentDesc} {dst : Buf} (htype : d.type = dataBlkDesc)
    (hdst : d.comprSize.toNat ≤ dst.size) (hsrc : d.offset.toNat + d.comprSize.toNat ≤ B.size) :
    ∃ b, uncompressFragment decompress d B dst = .ok b ∧ b.size = dst.size ∧
      ∀ k < d.comprSize.toNat, b.data k = B.data (d.offset.toNat + k) := by
  unfold uncompressFragment
  simp only
  rw [if_pos htype]
  obtain ⟨b, hb, hsize, hdata, -⟩ := @Buf.copy_ok Errno dst B 0 d.offset.toNat d.comprSize.toNat
    (by omega) hsrc
  refine ⟨b, hb, hsize, fun k hk => ?_⟩
  have hk := hdata k hk
  rw [Nat.zero_add] at hk
  exact hk

theorem copyBlkDescFragment_ok
    (htable : TableAt crc32 src B.data 0 0 f hasNextArea page n 0) (hf : f ≤ fragmentsChainMax)
    (hfit : 256 + itemsBefore f n f * 64 ≤ B.size) (hi : i < f)
    (hhdr : env.blkDescHdr = AreaBlockTable.wire.read B.data 0) (hbuffer : env.buffer = some B)
    (hsizes : ∀ k < i, fragmentItems f n k * 64 ≤ rawSize env.uncompressed) :
    ∃ env', copyBlkDescFragment crc32 decompress B i env = .ok env' ∧
      Reading src B f n page i 0 .initialized env' ∧
      rawSize env'.uncompressed = max (rawSize env.uncompressed) (fragmentItems f n i * 64) := by
  have hend := fragmentItems_end (n := n) hi
  have hle : fragmentItems f n i ≤ 60 := fragmentItems_le
  unfold fragmentsChainMax at hf
  have hfragment := htable.fragments i hi
  have hcount : (UInt16.ofNat (fragmentItems f n i * 64)).toNat = fragmentItems f n i * 64 :=
    UInt16.toNat_ofNat_of_lt' (show fragmentItems f n i * 64 < 65536 by omega)
  have hoffset : (UInt32.ofNat (256 + i * 3840)).toNat = 256 + i * 3840 :=
    UInt32.toNat_ofNat_of_lt' (show 256 + i * 3840 < 4294967296 by omega)
  have hchain : env.blkDescHdr.chainHdr = areaHeader f n hasNextArea := by
    rw [hhdr]
    exact htable.header
  have hindex : i < blkTableMax := by
    unfold blkTableMax fragmentsChainMax
    omega
  have hblk : env.blkDescHdr.blk ⟨i, hindex⟩ =
      fragmentDesc crc32 B.data (0 + (256 + i * 3840)) (256 + i * 3840) i (fragmentItems f n i) := by
    rw [hhdr, areaBlockTable_blk]
    exact hfragment.desc
  have htype : (areaHeader f n hasNextArea).type ∈ blkDescChainHdrs := List.mem_cons_self
  unfold copyBlkDescFragment
  simp only
  rw [hchain, failIf_of_not fun h => h rfl, Checked.ok_bind, failIf_of_not fun h => h htype,
    Checked.ok_bind, dif_pos hindex, hblk]
  unfold fragmentDesc
  simp only [hcount, hoffset]
  rw [failIf_of_not fun h => h rfl, Checked.ok_bind, Word.u32_of_lt (by omega),
    failIf_of_not (by omega), Checked.ok_bind]
  have hdst := @prepareRawBuffer_size env.uncompressed (fragmentItems f n i * 64)
  generalize prepareRawBuffer env.uncompressed (fragmentItems f n i * 64) = dst at hdst
  obtain ⟨b, hb, hsize, hdata⟩ := @uncompressFragment_ok decompress B
    (fragmentDesc crc32 B.data (0 + (256 + i * 3840)) (256 + i * 3840) i (fragmentItems f n i)) dst
    rfl (by simp only [fragmentDesc, hcount]; omega)
    (by simp only [fragmentDesc, hcount, hoffset]; omega)
  unfold fragmentDesc at hb hdata
  simp only [hcount, hoffset] at hdata
  rw [hb, Checked.ok_bind]
  have hcsum : checkFragmentCsum crc32 (fragmentDesc crc32 B.data (0 + (256 + i * 3840))
      (256 + i * 3840) i (fragmentItems f n i)) b = .ok () := by
    unfold checkFragmentCsum fragmentDesc
    simp only [hcount]
    rw [if_pos (by decide), Buf.bytes_ok (by omega), Checked.ok_bind]
    refine failIf_of_not fun h => h (congrArg crc32 (slice_congr fun k hk => ?_))
    rw [Nat.zero_add, Nat.zero_add]
    exact hdata k hk
  unfold fragmentDesc at hcsum
  rw [hcsum, Checked.ok_bind]
  refine ⟨_, rfl, ⟨hbuffer, hhdr, ⟨_, by rw [Nat.zero_mul]; rfl⟩, b, rfl, fun k hk => ?_,
    fun k hk => ?_⟩, hsize.trans hdst⟩
  · rcases Nat.lt_or_eq_of_le hk with hlt | rfl
    · have := hsizes k hlt
      omega
    · omega
  · rw [← Nat.zero_add (i * 60 * src.itemSize.toNat), ← hfragment.items k hk]
    refine BlockDescriptor.wire.read_congr fun x hx => ?_
    rw [BlockDescriptor.wire_size] at hx
    have hbyte := hdata (k * 64 + x) (by omega)
    rw [Nat.zero_add, hbyte, Nat.zero_add]
    congr 1
    omega

theorem extractValidBlkDescFragment_ok
    (htable : TableAt crc32 src B.data 0 0 f hasNextArea page n 0) (hf : f ≤ fragmentsChainMax)
    (hfit : 256 + itemsBefore f n f * 64 ≤ B.size) (hi : i < f)
    (hhdr : env.blkDescHdr = AreaBlockTable.wire.read B.data 0) (hbuffer : env.buffer = some B)
    (hsizes : ∀ k < i, fragmentItems f n k * 64 ≤ rawSize env.uncompressed) :
    ∃ env', extractValidBlkDescFragment crc32 decompress B i env = .ok env' ∧
      Reading src B f n page i 0 .initialized env' ∧
      rawSize env'.uncompressed = max (rawSize env.uncompressed) (fragmentItems f n i * 64) := by
  obtain ⟨env', henv', hreading⟩ :=
    @copyBlkDescFragment_ok crc32 decompress src B f n page i hasNextArea env htable hf hfit hi hhdr
      hbuffer hsizes
  have hchain : env.blkDescHdr.chainHdr = areaHeader f n hasNextArea := by
    rw [hhdr]
    exact htable.header
  have hcount : (UInt16.ofNat f).toNat = f := UInt16.toNat_ofNat_of_lt' (by
    unfold fragmentsChainMax at hf
    change f < 65536
    omega)
  have hlist : List.range' i (f - i) = i :: List.range' (i + 1) (f - (i + 1)) := by
    have hlen : f - i = f - (i + 1) + 1 := by omega
    rw [hlen, List.range'_succ]
  refine ⟨env', ?_, hreading⟩
  unfold extractValidBlkDescFragment
  simp only
  rw [hchain, failIf_of_not fun h => h rfl, Checked.ok_bind]
  unfold areaHeader
  simp only
  rw [hcount, if_neg (by omega), Nat.min_eq_left hf, hlist]
  unfold firstValidFragment
  rw [henv']

theorem prepareFirstContentBuffer_ok
    (htable : TableAt crc32 src B.data 0 0 f hasNextArea page n 0) (hf : f ≤ fragmentsChainMax)
    (hfit : 256 + itemsBefore f n f * 64 ≤ B.size) (hpos : 0 < f) (h : Opened B env) :
    ∃ env', prepareContentBuffer crc32 decompress env = .ok env' ∧
      Reading src B f n page 0 0 .initialized env' ∧
      rawSize env'.uncompressed = fragmentItems f n 0 * 64 := by
  unfold prepareContentBuffer
  rw [h.state]
  unfold prepareFirstContentBuffer
  rw [h.buffer]
  unfold readPortionHeader
  simp only
  rw [Buf.get_ok (by rw [AreaBlockTable.wire_size]; omega), Checked.ok_bind, Checked.ok_bind]
  obtain ⟨env', henv', hreading, hsize⟩ :=
    @extractValidBlkDescFragment_ok crc32 decompress src B f n page 0 hasNextArea
      { env with blkDescHdr := AreaBlockTable.wire.read B.data 0 } htable hf hfit hpos rfl h.buffer
      fun k hk => absurd hk (Nat.not_lt_zero k)
  refine ⟨env', henv', hreading, ?_⟩
  rw [hsize, h.uncompressed]
  exact Nat.zero_max _

theorem prepareNextContentBuffer_eq
    (htable : TableAt crc32 src B.data 0 0 f hasNextArea page n 0) (hf : f ≤ fragmentsChainMax)
    (hi : i < f) (h : Reading src B f n page i j .processed env) :
    prepareContentBuffer crc32 decompress env =
      if i + 1 = f then fail .enodata
      else extractNextFragment crc32 decompress B (i + 1) env := by
  obtain ⟨portionSize, hiter⟩ := h.iter
  have hchain : env.blkDescHdr.chainHdr = areaHeader f n hasNextArea := by
    rw [h.blkDescHdr]
    exact htable.header
  unfold fragmentsChainMax at hf
  have hcount : (UInt16.ofNat f).toNat = f := UInt16.toNat_ofNat_of_lt' (by
    change f < 65536
    omega)
  have hindex : ((i : Int) % 65536).toNat = i := by omega
  unfold prepareContentBuffer
  rw [hiter]
  unfold prepareNextContentBuffer
  rw [h.buffer, hiter]
  simp only
  rw [hchain, failIf_of_not fun h => h rfl, Checked.ok_bind, hindex]
  unfold areaHeader
  simp only
  rw [hcount, failIf_of_not (by omega), Checked.ok_bind, Word.u16_of_lt (by omega)]
  unfold failIf
  split
  · rfl
  · rfl

theorem prepareNextContentBuffer_ok
    (htable : TableAt crc32 src B.data 0 0 f hasNextArea page n 0) (hf : f ≤ fragmentsChainMax)
    (hfit : 256 + itemsBefore f n f * 64 ≤ B.size) (hi : i + 1 < f)
    (h : Reading src B f n page i j .processed env) :
    ∃ env', prepareContentBuffer crc32 decompress env = .ok env' ∧
      Reading src B f n page (i + 1) 0 .initialized env' := by
  rw [prepareNextContentBuffer_eq htable hf (by omega) h, if_neg (by omega)]
  obtain ⟨b, hb, hsizes, -⟩ := h.content
  obtain ⟨env', henv', hreading, -⟩ :=
    @extractValidBlkDescFragment_ok crc32 decompress src B f n page (i + 1) hasNextArea env htable hf
      hfit hi h.blkDescHdr h.buffer fun k hk => by
        rw [hb]
        exact hsizes k (Nat.le_of_lt_succ hk)
  refine ⟨env', ?_, hreading⟩
  unfold extractNextFragment
  rw [henv']

theorem takeBlkDesc_ok (hj : j < fragmentItems f n i)
    (h : Reading src B f n page i j .initialized env) :
    ∃ env', takeBlkDesc env = .ok (blockDescriptor src
        (Word.u32 (0 + (i * 60 + j) * src.itemSize.toNat)) (Word.u32 (page + (i * 60 + j))), env') ∧
      Reading src B f n page i (j + 1)
        (if j + 1 = fragmentItems f n i then .processed else .initialized) env' := by
  have hle : fragmentItems f n i ≤ 60 := fragmentItems_le
  obtain ⟨portionSize, hiter⟩ := h.iter
  obtain ⟨b, hb, hsizes, hitems⟩ := h.content
  have hsize := hsizes i (Nat.le_refl i)
  have hnext : Word.u32 (j * 64 + 64) = (j + 1) * 64 := by
    rw [Word.u32_of_lt (by omega)]
    omega
  have hitem := hitems j hj
  rw [Nat.zero_add, ← Nat.add_mul, Nat.add_assoc] at hitem
  unfold takeBlkDesc
  rw [hiter]
  simp only
  rw [failIf_of_not fun h => h rfl, Checked.ok_bind, hb]
  simp only
  rw [failIf_of_not fun h => h rfl, Checked.ok_bind, hnext, failIf_of_not (by omega),
    Checked.ok_bind, Buf.get_ok (by rw [BlockDescriptor.wire_size]; omega), Checked.ok_bind, hitem,
    Nat.zero_add]
  refine ⟨_, rfl, h.buffer, h.blkDescHdr, ⟨portionSize, ?_⟩, b, rfl, hsizes, hitems⟩
  unfold contentIteratorIncrement
  simp only
  rw [hnext, if_neg (by omega)]
  split
  · rw [if_pos (by omega)]
  · rw [if_neg (by omega)]

theorem takeBlkDesc_empty (hempty : fragmentItems f n i = 0) (hfit : 64 ≤ rawSize env.uncompressed)
    (h : Reading src B f n page i 0 .initialized env) :
    ∃ d, takeBlkDesc env = .ok (d, env) := by
  obtain ⟨portionSize, hiter⟩ := h.iter
  obtain ⟨b, hb, -⟩ := h.content
  have hnext : Word.u32 (0 * 64 + 64) = 64 := rfl
  have hsize : 64 ≤ b.size := by
    rw [hb] at hfit
    exact hfit
  unfold takeBlkDesc
  rw [hiter]
  simp only
  rw [failIf_of_not fun h => h rfl, Checked.ok_bind, hb]
  simp only
  rw [failIf_of_not fun h => h rfl, Checked.ok_bind, hnext, failIf_of_not (by omega),
    Checked.ok_bind, Buf.get_ok (by rw [BlockDescriptor.wire_size]; omega), Checked.ok_bind]
  refine ⟨BlockDescriptor.wire.read b.data (0 * 64), ?_⟩
  unfold contentIteratorIncrement
  simp only
  rw [hnext, if_pos (by omega), ← hiter, ← hb]

end

end Ssdfs
