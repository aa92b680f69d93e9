import Ssdfs.Recover.BlockStored

namespace Ssdfs

open Memory

def lzoBlobs : List UInt8 := [3, 7]

section

variable (inflate : UInt8 → List UInt8 → Nat → Mkfs (List UInt8))

/-- The library ends, with no more bytes than there is `room` for. -/
def InflatesInside (type : UInt8) (data : List UInt8) (n room : Nat) : Prop :=
  Checked.Returns (inflate type data n) ∧ ∀ out, inflate type data n = .ok out → out.length ≤ room

/-- All libraries but LZO test for the end of their buffers. -/
def Confined : Prop := ∀ type ∉ lzoBlobs, ∀ data n, InflatesInside inflate type data n n

end

/-- The descriptor passes the checks in front of the copy of its fragment. -/
structure CopyChecked (buffer : Buf) (fragmentIndex : Nat) (env : RawAreaEnvironment)
    (d : FragmentDesc) : Prop where
  chainMagic : env.blkDescHdr.chainHdr.magic = chainHdrMagic
  chainType : env.blkDescHdr.chainHdr.type ∈ blkDescChainHdrs
  desc : ∃ h : fragmentIndex < blkTableMax, env.blkDescHdr.blk ⟨fragmentIndex, h⟩ = d
  magic : d.magic = fragmentDescMagic
  inside : Word.u32 (d.offset.toNat + d.comprSize.toNat) ≤ buffer.size

/-- The descriptor passes the checks in front of the copy of a block's fragment. -/
structure ParseChecked (comprContent : Buf) (blkState : BlkStateOffset) (fragmentIndex : Nat)
    (d : FragmentDesc) : Prop where
  chainMagic : (BlockStateDescriptor.wire.read comprContent.data 0).chainHdr.magic = chainHdrMagic
  count : fragmentIndex <
    (BlockStateDescriptor.wire.read comprContent.data 0).chainHdr.fragmentsCount.toNat
  desc : FragmentDesc.wire.read comprContent.data (blockFragDesc fragmentIndex) = d
  magic : d.magic = fragmentDescMagic
  behind : blkState.byteOffset.toNat ≤ d.offset.toNat
  compr : d.comprSize.toNat ≤ blkFragmentSize
  uncompr : d.uncomprSize.toNat ≤ blkFragmentSize
  inside : Word.u32 (d.offset.toNat - blkState.byteOffset.toNat + d.comprSize.toNat) ≤
    comprContent.size

section

variable {crc32 : List UInt8 → UInt32} {inflate : UInt8 → List UInt8 → Nat → Mkfs (List UInt8)}
  {buffer src dst b : Buf} {d : FragmentDesc} {env : RawAreaEnvironment} {blkState : BlkStateOffset}
  {type : UInt8} {i off len n : Nat}

theorem returns_copy {place : Nat} :
    Checked.Returns (dst.copy Errno place src off len) ↔ place + len ≤ dst.size ∧ off + len ≤ src.size :=
  Checked.returns_access

theorem copy_size {place : Nat} (h : dst.copy Errno place src off len = .ok b) : b.size = dst.size := by
  unfold Buf.copy at h
  split at h
  · cases h
    rfl
  · cases h

theorem returns_bytes : Checked.Returns (src.bytes Errno off len) ↔ off + len ≤ src.size :=
  Checked.returns_access

theorem returns_putBytes {out : List UInt8} :
    Checked.Returns (dst.putBytes Errno off out) ↔ off + out.length ≤ dst.size :=
  Checked.returns_access

theorem returns_decompressInto (hinflate : Confined inflate) (hdst : n ≤ dst.size) :
    Checked.Returns (decompressInto inflate type src off len dst n) ↔ off + len ≤ src.size ∧
      (type ∈ lzoBlobs → InflatesInside inflate type (slice src.data off len) n dst.size) := by
  unfold decompressInto
  rw [Checked.returns_bind, returns_bytes]
  refine and_congr_right fun hsrc => ?_
  rw [Buf.bytes_ok hsrc]
  have hinside : (∀ data, (.ok (slice src.data off len) : Mkfs (List UInt8)) = .ok data →
      Checked.Returns (inflate type data n >>= fun out => dst.putBytes Errno 0 out >>= fun dst =>
        failIf (type ∉ zlibBlobs ∧ out.length ≠ n) .efault >>= fun _ => .ok dst)) ↔
      InflatesInside inflate type (slice src.data off len) n dst.size := by
    rw [InflatesInside]
    simp only [Except.ok.injEq, forall_eq', Checked.returns_bind, returns_putBytes, Nat.zero_add]
    refine and_congr_right fun _ => forall_congr' fun out => imp_congr_right fun _ => ?_
    exact and_iff_left fun _ _ => ⟨failIf_guarded.returns, fun _ _ => Checked.returns_ok⟩
  refine hinside.trans ⟨fun h _ => h, fun h => ?_⟩
  by_cases hlzo : type ∈ lzoBlobs
  · exact h hlzo
  · obtain ⟨hreturns, hlength⟩ := hinflate type hlzo (slice src.data off len) n
    exact ⟨hreturns, fun out hout => Nat.le_trans (hlength out hout) hdst⟩

theorem decompressInto_size (h : decompressInto inflate type src off len dst n = .ok b) :
    b.size = dst.size := by
  obtain ⟨data, -, h⟩ := Checked.bind_eq_ok.1 h
  obtain ⟨out, -, h⟩ := Checked.bind_eq_ok.1 h
  obtain ⟨dst', hput, h⟩ := Checked.bind_eq_ok.1 h
  obtain ⟨-, h⟩ := failIf_bind_eq_ok.1 h
  cases h
  unfold Buf.putBytes at hput
  split at hput
  · cases hput
    rfl
  · cases hput

theorem returns_uncompressFragment (hinflate : Confined inflate) (hdst : d.uncomprSize.toNat ≤ dst.size) :
    Checked.Returns (uncompressFragment (decompressInto inflate) d buffer dst) ↔
      (d.type ∈ dataBlkDesc :: dataBlkDescCompressed →
        d.offset.toNat + d.comprSize.toNat ≤ buffer.size ∧
          (d.type ∈ lzoBlobs → InflatesInside inflate d.type
            (slice buffer.data d.offset.toNat d.comprSize.toNat) d.uncomprSize.toNat dst.size)) ∧
      (d.type = dataBlkDesc → d.comprSize.toNat ≤ dst.size) := by
  unfold uncompressFragment
  simp only
  by_cases hplain : d.type = dataBlkDesc
  · have hnot : dataBlkDesc ∉ lzoBlobs := by decide
    rw [if_pos hplain, returns_copy, Nat.zero_add, hplain, and_comm]
    simp [hnot]
  · rw [if_neg hplain]
    by_cases hcompressed : d.type ∈ dataBlkDescCompressed
    · rw [if_pos hcompressed, returns_decompressInto hinflate hdst]
      simp [hplain, hcompressed]
    · rw [if_neg hcompressed]
      exact iff_of_true Checked.returns_code (by simp [hplain, hcompressed])

theorem uncompressFragment_size (h : uncompressFragment (decompressInto inflate) d buffer dst = .ok b) :
    b.size = dst.size := by
  unfold uncompressFragment at h
  simp only at h
  split at h
  · exact copy_size h
  · split at h
    · exact decompressInto_size h
    · cases h

theorem returns_checkFragmentCsum (hdst : d.uncomprSize.toNat ≤ dst.size) :
    Checked.Returns (checkFragmentCsum crc32 d dst) := by
  unfold checkFragmentCsum
  split
  · rw [Buf.bytes_ok (by omega), Checked.ok_bind]
    exact failIf_guarded.returns
  · exact Checked.returns_ok

theorem copyBlkDescFragment_checked (h : CopyChecked buffer i env d) :
    copyBlkDescFragment crc32 (decompressInto inflate) buffer i env = (do
      let dst ← uncompressFragment (decompressInto inflate) d buffer
        (prepareRawBuffer env.uncompressed d.uncomprSize.toNat)
      checkFragmentCsum crc32 d dst
      .ok { env with
        iter := ⟨.initialized, areaBlockTableSize, env.blkDescHdr.chainHdr.uncomprBytes.toNat, i,
          d.uncomprSize.toNat, 0, blockDescriptorSize⟩
        uncompressed := some dst }) := by
  obtain ⟨hi, hd⟩ := h.desc
  unfold copyBlkDescFragment
  simp only
  rw [failIf_of_not (not_not.2 h.chainMagic), Checked.ok_bind, failIf_of_not (not_not.2 h.chainType),
    Checked.ok_bind, dif_pos hi, hd, failIf_of_not (not_not.2 h.magic), Checked.ok_bind,
    failIf_of_not (Nat.not_lt.2 h.inside), Checked.ok_bind]

theorem failIf_bind_of {α : Type} {c : Prop} [Decidable c] {e : Errno} {f : Unit → Mkfs α} (h : c) :
    failIf c e >>= f = .error (.code e) := by
  rw [show failIf c e = fail e from if_pos h]
  rfl

theorem copyBlkDescFragment_unchecked (h : ∀ d, ¬CopyChecked buffer i env d) :
    ∃ e, copyBlkDescFragment crc32 (decompressInto inflate) buffer i env = .error (.code e) := by
  unfold copyBlkDescFragment
  simp only
  by_cases hmagic : env.blkDescHdr.chainHdr.magic = chainHdrMagic
  case neg => exact ⟨_, failIf_bind_of hmagic⟩
  rw [failIf_of_not (not_not.2 hmagic), Checked.ok_bind]
  by_cases htype : env.blkDescHdr.chainHdr.type ∈ blkDescChainHdrs
  case neg => exact ⟨_, failIf_bind_of htype⟩
  rw [failIf_of_not (not_not.2 htype), Checked.ok_bind]
  by_cases hi : i < blkTableMax
  case neg => exact ⟨_, dif_neg hi⟩
  rw [dif_pos hi]
  by_cases hdesc : (env.blkDescHdr.blk ⟨i, hi⟩).magic = fragmentDescMagic
  case neg => exact ⟨_, failIf_bind_of hdesc⟩
  rw [failIf_of_not (not_not.2 hdesc), Checked.ok_bind]
  exact ⟨_, failIf_bind_of (Nat.lt_of_not_le fun hinside =>
    h _ ⟨hmagic, htype, ⟨hi, rfl⟩, hdesc, hinside⟩)⟩

/-- The sum that is checked may wrap, and a plain fragment may be longer than its buffer. -/
theorem copyBlkDescFragment_returns_iff (hinflate : Confined inflate)
    (hbuffer : buffer.size < 4294967296) :
    Checked.Returns (copyBlkDescFragment crc32 (decompressInto inflate) buffer i env) ↔
      ∀ d, CopyChecked buffer i env d → d.type ∈ dataBlkDesc :: dataBlkDescCompressed →
        (d.offset.toNat + d.comprSize.toNat < 4294967296 ∧
          (d.type ∈ lzoBlobs → InflatesInside inflate d.type
            (slice buffer.data d.offset.toNat d.comprSize.toNat) d.uncomprSize.toNat
            (max (rawSize env.uncompressed) d.uncomprSize.toNat))) ∧
        (d.type = dataBlkDesc →
          d.comprSize.toNat ≤ max (rawSize env.uncompressed) d.uncomprSize.toNat) := by
  by_cases hchecked : ∃ d, CopyChecked buffer i env d
  · obtain ⟨d, hd⟩ := hchecked
    have honly : ∀ d', CopyChecked buffer i env d' → d' = d := fun d' hd' => by
      obtain ⟨hi, h⟩ := hd.desc
      obtain ⟨hi', h'⟩ := hd'.desc
      exact h'.symm.trans h
    have hroom : d.uncomprSize.toNat ≤
        (prepareRawBuffer env.uncompressed d.uncomprSize.toNat).size := by
      rw [prepareRawBuffer_size]
      exact Nat.le_max_right ..
    have hinside : d.offset.toNat + d.comprSize.toNat ≤ buffer.size ↔
        d.offset.toNat + d.comprSize.toNat < 4294967296 := by
      refine ⟨fun h => by omega, fun h => ?_⟩
      have hle := hd.inside
      rwa [Word.u32_of_lt h] at hle
    rw [copyBlkDescFragment_checked hd, Checked.returns_bind, returns_uncompressFragment hinflate hroom,
      prepareRawBuffer_size, hinside]
    constructor
    · rintro ⟨⟨hsrc, hdst⟩, -⟩ d' hd' htype
      rw [honly d' hd'] at htype ⊢
      exact ⟨hsrc htype, hdst⟩
    · intro h
      refine ⟨⟨fun htype => (h d hd htype).1, fun htype => ?_⟩, fun b hb => ?_⟩
      · exact (h d hd (by simp [htype])).2 htype
      · have hsize := uncompressFragment_size hb
        exact Checked.returns_bind.2 ⟨returns_checkFragmentCsum (by omega), fun _ _ =>
          Checked.returns_ok⟩
  · obtain ⟨e, he⟩ := @copyBlkDescFragment_unchecked crc32 inflate buffer env i
      fun d hd => hchecked ⟨d, hd⟩
    rw [he]
    exact iff_of_true Checked.returns_code fun d hd => absurd ⟨d, hd⟩ hchecked

end

/-- A page of the block state is in the buffer of its area, and the dump has room for a page. -/
structure BlockLoaded (pageSize : Nat) (areaIndex : Fin segHdrDescMax) (b : Buf) (dump : RawDump) :
    Prop where
  buffer : (dump.desc areaIndex).buffer = some b
  size : pageSize ≤ b.size
  limit : b.size < 4294967296
  content : ∃ c, dump.content = some c ∧ pageSize ≤ c.size

section

variable {crc32 : List UInt8 → UInt32} {inflate : UInt8 → List UInt8 → Nat → Mkfs (List UInt8)}
  {b u : Buf} {d : FragmentDesc} {blkState : BlkStateOffset} {i pageSize : Nat}
  {areaIndex : Fin segHdrDescMax} {dump : RawDump}

theorem findBlockFragment_eq (hdesc : blockFragDesc (i + 1) ≤ b.size) :
    (∃ d, findBlockFragment blkState i b = .ok (some d) ∧ ParseChecked b blkState i d) ∨
      (∀ d, ¬ParseChecked b blkState i d) ∧
        (findBlockFragment blkState i b = .ok none ∨
          ∃ e, findBlockFragment blkState i b = .error (.code e)) := by
  have hstart : 32 ≤ blockFragDesc (i + 1) := Nat.le_add_right ..
  unfold findBlockFragment
  rw [Buf.get_ok (by rw [BlockStateDescriptor.wire_size]; omega), Checked.ok_bind,
    Buf.get_ok (by rw [blockFragDesc_end]; exact hdesc)]
  simp only
  by_cases hmagic : (BlockStateDescriptor.wire.read b.data 0).chainHdr.magic = chainHdrMagic
  case neg => exact .inr ⟨fun d hd => hmagic hd.chainMagic, .inr ⟨_, failIf_bind_of hmagic⟩⟩
  rw [failIf_of_not (not_not.2 hmagic), Checked.ok_bind]
  by_cases hcount : i < (BlockStateDescriptor.wire.read b.data 0).chainHdr.fragmentsCount.toNat
  case neg =>
    exact .inr ⟨fun d hd => hcount hd.count, .inl (if_pos (Nat.not_lt.1 hcount))⟩
  rw [if_neg (Nat.not_le.2 hcount), Checked.ok_bind]
  generalize hd : FragmentDesc.wire.read b.data (blockFragDesc i) = d
  have hsame : ∀ d', ParseChecked b blkState i d' → d' = d := fun d' h => h.desc.symm.trans hd
  by_cases hfrag : d.magic = fragmentDescMagic
  case neg =>
    exact .inr ⟨fun d' h => hfrag (hsame d' h ▸ h.magic), .inr ⟨_, failIf_bind_of hfrag⟩⟩
  rw [failIf_of_not (not_not.2 hfrag), Checked.ok_bind]
  by_cases hbehind : d.offset < blkState.byteOffset
  case pos =>
    refine .inr ⟨fun d' h => ?_, .inr ⟨_, failIf_bind_of hbehind⟩⟩
    have hle := h.behind
    rw [hsame d' h] at hle
    exact absurd (UInt32.lt_iff_toNat_lt.1 hbehind) (Nat.not_lt.2 hle)
  rw [failIf_of_not hbehind, Checked.ok_bind]
  by_cases hcompr : d.comprSize.toNat > blkFragmentSize
  case pos =>
    exact .inr ⟨fun d' h => Nat.not_le.2 hcompr (hsame d' h ▸ h.compr), .inr ⟨_, failIf_bind_of hcompr⟩⟩
  rw [failIf_of_not hcompr, Checked.ok_bind]
  by_cases huncompr : d.uncomprSize.toNat > blkFragmentSize
  case pos =>
    exact .inr ⟨fun d' h => Nat.not_le.2 huncompr (hsame d' h ▸ h.uncompr),
      .inr ⟨_, failIf_bind_of huncompr⟩⟩
  rw [failIf_of_not huncompr, Checked.ok_bind]
  by_cases hinside : Word.u32 (d.offset.toNat - blkState.byteOffset.toNat + d.comprSize.toNat) > b.size
  case pos =>
    exact .inr ⟨fun d' h => Nat.not_le.2 hinside (hsame d' h ▸ h.inside),
      .inr ⟨_, failIf_bind_of hinside⟩⟩
  rw [failIf_of_not hinside, Checked.ok_bind]
  exact .inl ⟨d, rfl, hmagic, hcount, hd, hfrag,
    Nat.not_lt.1 fun h => hbehind (UInt32.lt_iff_toNat_lt.2 h), Nat.not_lt.1 hcompr,
    Nat.not_lt.1 huncompr, Nat.not_lt.1 hinside⟩

theorem returns_uncompressBlockFragment (hinflate : Confined inflate)
    (hdst : d.uncomprSize.toNat ≤ u.size) :
    Checked.Returns (uncompressBlockFragment (decompressInto inflate) blkState d b u) ↔
      (d.type = fragmentUncomprBlob →
        d.offset.toNat - blkState.byteOffset.toNat + d.uncomprSize.toNat ≤ b.size) ∧
      (d.type ∈ fragmentComprBlobs →
        d.offset.toNat - blkState.byteOffset.toNat + d.comprSize.toNat ≤ b.size ∧
          (d.type ∈ lzoBlobs → InflatesInside inflate d.type
            (slice b.data (d.offset.toNat - blkState.byteOffset.toNat) d.comprSize.toNat)
            d.uncomprSize.toNat u.size)) := by
  unfold uncompressBlockFragment
  simp only
  by_cases hplain : d.type = fragmentUncomprBlob
  · have hnot : fragmentUncomprBlob ∉ fragmentComprBlobs := by decide
    rw [if_pos hplain, returns_copy, Nat.zero_add, hplain]
    simp [hdst, hnot]
  · rw [if_neg hplain]
    by_cases hcompressed : d.type ∈ fragmentComprBlobs
    · rw [if_pos hcompressed, returns_decompressInto hinflate hdst]
      simp [hplain, hcompressed]
    · rw [if_neg hcompressed]
      exact iff_of_true Checked.returns_code (by simp [hplain, hcompressed])

theorem uncompressBlockFragment_size {u' : Buf}
    (h : uncompressBlockFragment (decompressInto inflate) blkState d b u = .ok u') :
    u'.size = u.size := by
  unfold uncompressBlockFragment at h
  simp only at h
  split at h
  · exact copy_size h
  · split at h
    · exact decompressInto_size h
    · cases h

theorem returns_checkBlockFragmentCsum (hb : blockFragDesc 1 ≤ b.size)
    (hu : d.uncomprSize.toNat ≤ u.size) : Checked.Returns (checkBlockFragmentCsum crc32 d b u) := by
  unfold checkBlockFragmentCsum
  rw [Buf.get_ok (by rw [blockFragDesc_end]; exact hb), Checked.ok_bind]
  split
  · rw [Buf.bytes_ok (by omega), Checked.ok_bind]
    exact failIf_guarded.returns
  · exact Checked.returns_ok

theorem returns_copyBlockFragment (hu : blkFragmentSize ≤ u.size) (hsmall : i * blkFragmentSize < Word.u32Max)
    (hcontent : ∃ c, dump.content = some c ∧ (i + 1) * blkFragmentSize ≤ c.size) :
    Checked.Returns (copyBlockFragment i u dump) := by
  obtain ⟨c, hc, hsize⟩ := hcontent
  rw [Nat.succ_mul] at hsize
  unfold copyBlockFragment
  simp only
  rw [Checked.bugOn_of_not (Nat.not_le.2 hsmall), Checked.ok_bind, hc]
  simp only
  exact Checked.returns_bind.2 ⟨returns_copy.2 ⟨hsize, by omega⟩, fun _ _ => Checked.returns_ok⟩

theorem parseBlockFragment_returns_iff (hinflate : Confined inflate)
    (hpage : isPagesizeValid pageSize = true) (harea : areaType2index blkState.logArea = .ok areaIndex)
    (hi : i < pageSize / blkFragmentSize) (h : BlockLoaded pageSize areaIndex b dump) :
    Checked.Returns (parseBlockFragment crc32 (decompressInto inflate) pageSize blkState i dump) ↔
      ∀ d, ParseChecked b blkState i d →
        (d.type = fragmentUncomprBlob →
          d.offset.toNat - blkState.byteOffset.toNat + d.uncomprSize.toNat ≤ b.size) ∧
        (d.type ∈ fragmentComprBlobs →
          d.offset.toNat - blkState.byteOffset.toNat + d.comprSize.toNat < 4294967296 ∧
            (d.type ∈ lzoBlobs → InflatesInside inflate d.type
              (slice b.data (d.offset.toNat - blkState.byteOffset.toNat) d.comprSize.toNat)
              d.uncomprSize.toNat
              (max (rawSize (dump.desc areaIndex).uncompressed) blkFragmentSize))) := by
  have hle := pagesize_le hpage
  have hdesc := Nat.le_trans (blockFragDesc_le hi hpage) h.size
  have hfirst : blockFragDesc 1 ≤ b.size := Nat.le_trans
    (Nat.add_le_add_left (Nat.mul_le_mul_right _ (Nat.succ_le_succ (Nat.zero_le i))) _) hdesc
  have hlimit := h.limit
  have hend : (i + 1) * blkFragmentSize ≤ pageSize := Nat.mul_le_of_le_div _ _ _ hi
  have hsmall : i * blkFragmentSize < Word.u32Max :=
    Nat.lt_of_lt_of_le (Nat.mul_lt_mul_of_pos_right (Nat.lt_succ_self i) (by decide))
      (Nat.le_trans hend (Nat.le_trans hle.2 (by decide)))
  obtain ⟨c, hc, hcsize⟩ := h.content
  unfold parseBlockFragment
  rw [if_pos hpage, harea, Checked.ok_bind]
  simp only
  rw [h.buffer]
  simp only
  rcases @findBlockFragment_eq b blkState i hdesc with ⟨d, hd, hchecked⟩ | ⟨hnone, hstop⟩
  · have hroom : blkFragmentSize ≤ (prepareRawBuffer (dump.desc areaIndex).uncompressed
        blkFragmentSize).size := by
      rw [prepareRawBuffer_size]
      exact Nat.le_max_right ..
    have huncompr := hchecked.uncompr
    have hinside : d.offset.toNat - blkState.byteOffset.toNat + d.comprSize.toNat ≤ b.size ↔
        d.offset.toNat - blkState.byteOffset.toNat + d.comprSize.toNat < 4294967296 := by
      refine ⟨fun h => by omega, fun h => ?_⟩
      have hle := hchecked.inside
      rwa [Word.u32_of_lt h] at hle
    rw [hd, Report.attempt_ok]
    simp only
    rw [Report.returns_attempt, returns_uncompressBlockFragment hinflate (Nat.le_trans huncompr hroom),
      hinside, prepareRawBuffer_size, and_iff_left]
    · constructor
      · intro hcond d' hd'
        rw [hd'.desc.symm.trans hchecked.desc]
        exact hcond
      · exact fun hcond => hcond d hchecked
    · intro u hu
      have husize := uncompressBlockFragment_size hu
      refine Report.returns_attempt.2 ⟨returns_checkBlockFragmentCsum hfirst (by omega), fun _ _ => ?_⟩
      exact returns_copyBlockFragment (by omega) hsmall ⟨c, hc, Nat.le_trans hend hcsize⟩
  · refine iff_of_true ?_ fun d hd => absurd hd (hnone d)
    rcases hstop with hstop | ⟨e, hstop⟩
    · rw [hstop]
      exact Checked.returns_ok
    · rw [hstop]
      exact Checked.returns_ok

theorem rawAreaAccesses_inside_iff {buffer : Buf} {env : RawAreaEnvironment} {offset fragmentIndex : Nat}
    (hinflate : Confined inflate) (hbuffer : buffer.size < 4294967296)
    (hpage : isPagesizeValid pageSize = true) (harea : areaType2index blkState.logArea = .ok areaIndex)
    (hi : i < pageSize / blkFragmentSize) (h : BlockLoaded pageSize areaIndex b dump) :
    (Checked.Returns (readPortionHeader buffer offset env) ↔
      offset + areaBlockTableSize ≤ buffer.size) ∧
    (Checked.Returns (copyBlkDescFragment crc32 (decompressInto inflate) buffer fragmentIndex env) ↔
      ∀ d, CopyChecked buffer fragmentIndex env d → d.type ∈ dataBlkDesc :: dataBlkDescCompressed →
        (d.offset.toNat + d.comprSize.toNat < 4294967296 ∧
          (d.type ∈ lzoBlobs → InflatesInside inflate d.type
            (slice buffer.data d.offset.toNat d.comprSize.toNat) d.uncomprSize.toNat
            (max (rawSize env.uncompressed) d.uncomprSize.toNat))) ∧
        (d.type = dataBlkDesc →
          d.comprSize.toNat ≤ max (rawSize env.uncompressed) d.uncomprSize.toNat)) ∧
    (Checked.Returns (parseBlockFragment crc32 (decompressInto inflate) pageSize blkState i dump) ↔
      ∀ d, ParseChecked b blkState i d →
        (d.type = fragmentUncomprBlob →
          d.offset.toNat - blkState.byteOffset.toNat + d.uncomprSize.toNat ≤ b.size) ∧
        (d.type ∈ fragmentComprBlobs →
          d.offset.toNat - blkState.byteOffset.toNat + d.comprSize.toNat < 4294967296 ∧
            (d.type ∈ lzoBlobs → InflatesInside inflate d.type
              (slice b.data (d.offset.toNat - blkState.byteOffset.toNat) d.comprSize.toNat)
              d.uncomprSize.toNat
              (max (rawSize (dump.desc areaIndex).uncompressed) blkFragmentSize)))) := by
  refine ⟨?_, copyBlkDescFragment_returns_iff hinflate hbuffer,
    parseBlockFragment_returns_iff hinflate hpage harea hi h⟩
  unfold readPortionHeader
  rw [Checked.returns_bind, and_iff_left fun _ _ => Checked.returns_ok]
  exact Checked.returns_access

end

/-- Libraries that only know data which is stored as it is; LZO takes it behind the room as well. -/
def inflateStored (type : UInt8) (data : List UInt8) (n : Nat) : Mkfs (List UInt8) :=
  if data.length ≤ n then .ok data
  else if type ∈ lzoBlobs then .error .stray
  else fail .efault

theorem confined_stored : Confined inflateStored := fun type htype data n => by
  unfold InflatesInside inflateStored
  by_cases h : data.length ≤ n
  · rw [if_pos h]
    exact ⟨Checked.returns_ok, fun out hout => Except.ok.inj hout ▸ h⟩
  · rw [if_neg h, if_neg htype]
    exact ⟨Checked.returns_code, nofun⟩

/-- A table whose fragments record these sizes, all at byte 256. -/
def tableWithSizes (comprSize uncomprSize : UInt16) : RawAreaEnvironment :=
  ⟨0, 0, createContentIterator,
    ⟨⟨64, 64, 1, 16, chainHdrMagic, blkDescChainHdr, 0⟩, fun _ =>
      ⟨256, comprSize, uncomprSize, 0, 0, fragmentDescMagic, dataBlkDesc, 0⟩⟩,
    none, some (Buf.zero 4096)⟩

def blankDump : RawDump := ⟨fun _ => tableWithSizes 64 64, some (Buf.zero 4096)⟩

theorem blankDump_loaded : BlockLoaded 4096 warmPayloadAreaIndex (Buf.zero 4096) blankDump :=
  ⟨rfl, Nat.le_refl 4096, (by decide : 4096 < 4294967296), Buf.zero 4096, rfl, Nat.le_refl 4096⟩

theorem rawAreaAccesses_inside_blank :
    Checked.Returns (readPortionHeader (Buf.zero 4096) 0 (tableWithSizes 64 64)) ∧
    Checked.Returns (copyBlkDescFragment (fun _ => 0)
      (decompressInto inflateStored) (Buf.zero 4096) 0 (tableWithSizes 64 64)) ∧
    Checked.Returns (parseBlockFragment (fun _ => 0)
      (decompressInto inflateStored) 4096 ⟨0, logDiffsArea, 0, 0⟩ 0 blankDump) := by
  obtain ⟨hheader, hcopy, hparse⟩ := @rawAreaAccesses_inside_iff (fun _ => 0) _ (Buf.zero 4096)
    ⟨0, logDiffsArea, 0, 0⟩ 0 4096 warmPayloadAreaIndex blankDump (Buf.zero 4096) (tableWithSizes 64 64)
    0 0 confined_stored (by decide : 4096 < 4294967296) rfl rfl (by decide) blankDump_loaded
  refine ⟨hheader.2 (by decide : 0 + 256 ≤ 4096), hcopy.2 fun d hd _ => ?_, hparse.2 fun d hd => ?_⟩
  · obtain ⟨_, rfl⟩ := hd.desc
    exact ⟨⟨(by decide : 256 + 64 < 4294967296), fun hlzo => absurd hlzo (by decide : (5 : UInt8) ∉ lzoBlobs)⟩,
      fun _ => (by decide : 64 ≤ max 0 64)⟩
  · have hmagic : (0 : UInt8) = chainHdrMagic := hd.chainMagic
    exact absurd hmagic (by decide)

/-- The bytes of a plain fragment do not fit in the buffer that is prepared for it. -/
theorem copyBlkDescFragment_strays : copyBlkDescFragment (fun _ => 0)
    (decompressInto inflateStored) (Buf.zero 4096) 0 (tableWithSizes 128 64) = .error .stray := rfl

end Ssdfs
