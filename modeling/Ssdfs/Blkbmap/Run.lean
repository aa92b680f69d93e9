import Ssdfs.Blkbmap.Decode

namespace Ssdfs

open Memory

/-- Decompression undoes each compression that succeeds. -/
def CompressionLibs.Lossless (libs : CompressionLibs) : Prop :=
  ∀ compression data limit out, libs.compress compression data limit = .ok out →
    libs.decompress compression out data.length = some data

section

variable {crc32 : List UInt8 → UInt32} {libs : CompressionLibs} {blkbmap : BlkbmapLayout}
  {compression : Compression} {data : List UInt8} {limit : Nat}

theorem failIf_stays {c : Prop} [Decidable c] {e : Errno} :
    Checked.Stays (failIf c e) fun _ => ¬c := by
  by_cases hc : c
  · rw [show failIf c e = fail e from if_pos hc]
    exact Checked.Stays.error nofun
  · rw [failIf_of_not hc]
    exact Checked.Stays.ok hc

/-- The type and the bytes of a fragment from which `data` comes back. -/
structure StoredAs (libs : CompressionLibs) (data : List UInt8) (r : UInt8 × List UInt8) : Prop where
  length_le : r.2.length ≤ data.length
  decodes : ∀ desc : FragmentDesc, desc.type = r.1 → desc.uncomprSize.toNat = data.length →
    decodeFragment libs desc r.2 = .ok data

theorem StoredAs.plain : StoredAs libs data (fragmentUncomprBlob, data) where
  length_le := Nat.le_refl _
  decodes _ htype _ := if_pos htype

theorem ssdfsCompress_stays (hlibs : libs.Lossless) :
    Checked.Stays (ssdfsCompress libs compression data limit) fun out =>
      out.length < data.length ∧ libs.decompress compression out data.length = some data := by
  unfold ssdfsCompress
  cases hrun : libs.compress compression data limit with
  | error e => exact Checked.Stays.error nofun
  | ok out =>
    refine failIf_stays.bind fun _ hlt => Checked.Stays.ok ⟨Nat.not_le.1 hlt, ?_⟩
    exact hlibs _ _ _ _ hrun

theorem compressFragment_stays (hlibs : libs.Lossless) :
    Checked.Stays (compressFragment libs compression data limit) (StoredAs libs data) := by
  have hshrunk : ∀ c, fragmentCompressionOf (fragmentBlobOf c) = some c →
      fragmentBlobOf c ≠ fragmentUncomprBlob →
      Checked.Stays (do
        let out ← ssdfsCompress libs c data limit
        .ok (fragmentBlobOf c, out)) (StoredAs libs data) := fun c hof hne => by
    refine (ssdfsCompress_stays hlibs).bind fun out hout => Checked.Stays.ok
      ⟨Nat.le_of_lt hout.1, fun desc hdesc hsize => ?_⟩
    unfold decodeFragment
    rw [hdesc, if_neg hne, hof]
    simp only
    rw [hsize, hout.2]
  unfold compressFragment
  split
  · exact Checked.Stays.ok StoredAs.plain
  · cases compression with
    | uncompressed => exact Checked.Stays.ok StoredAs.plain
    | unknown => exact Checked.Stays.error nofun
    | zlib => exact hshrunk .zlib (by decide) (by decide)
    | lzo => exact hshrunk .lzo (by decide) (by decide)
    | lz4 => exact hshrunk .lz4 (by decide) (by decide)
    | zstd => exact hshrunk .zstd (by decide) (by decide)

def bmapFragmentDesc (offset comprSize uncomprSize sequenceId : Nat) (type : UInt8)
    (checksum : UInt32) : FragmentDesc where
  offset := UInt32.ofNat offset
  comprSize := UInt16.ofNat comprSize
  uncomprSize := UInt16.ofNat uncomprSize
  checksum
  sequenceId := UInt8.ofNat sequenceId
  magic := fragmentDescMagic
  type
  flags := fragmentHasCsum

theorem fragmentDescriptorInitFrom_stays {src buf : Buf}
    {desc fragment offset comprSize uncomprSize sequenceId : Nat} {type : UInt8}
    (hdesc : desc + 16 ≤ buf.size) (hsrc : fragment + uncomprSize ≤ src.size) :
    Checked.Stays (fragmentDescriptorInitFrom crc32 src buf desc fragment offset comprSize uncomprSize
      sequenceId type fragmentHasCsum) fun buf' => 0 < comprSize ∧ ∃ checksum,
        buf' = ⟨buf.size, FragmentDesc.wire.write buf.data desc
          (bmapFragmentDesc offset comprSize uncomprSize sequenceId type checksum)⟩ := by
  unfold fragmentDescriptorInitFrom
  refine failIf_stays.bind fun _ hsizes => failIf_stays.bind fun _ _ => failIf_stays.bind fun _ _ => ?_
  rw [Buf.get_ok (by rw [FragmentDesc.wire_size]; exact hdesc), Checked.ok_bind, Buf.bytes_ok hsrc,
    Checked.ok_bind, Buf.put_ok (by rw [FragmentDesc.wire_size]; exact hdesc)]
  exact Checked.Stays.ok ⟨by omega, _, rfl⟩

/-- The sizes of a bitmap of `bmapBytes` bytes in `n` fragments. -/
structure BitmapSizes (base bmapBytes n size : Nat) : Prop where
  base_eq : base = fragmentDescOffset n
  size_eq : size = base + bmapBytes
  few : n ≤ blkBmapFragmentsChainMax
  lt : ∀ i < n, i * blkBmapFragmentSize < bmapBytes
  le : bmapBytes ≤ n * blkBmapFragmentSize

/-- The loop behind its first `k` fragments. -/
structure FragmentsWritten (libs : CompressionLibs) (bitmap : Bytes) (base bmapBytes size k : Nat)
    (st : BlkbmapState) : Prop where
  size : st.buf.size = size
  stored : ∃ place, BmapFragmentsAt libs bitmap base bmapBytes st.buf.data k place ∧
    place k = base + st.writtenComprBytes
  offset : st.fragmentOffset = base + st.writtenComprBytes
  bmap : st.writtenBmapBytes = fragmentsEnd bmapBytes k
  compr : st.writtenComprBytes ≤ fragmentsEnd bmapBytes k

theorem BmapFragmentsAt.write {bitmap m : Bytes} {base bmapBytes k w : Nat} {place : Nat → Nat}
    {r : UInt8 × List UInt8} {desc : FragmentDesc}
    (h : BmapFragmentsAt libs bitmap base bmapBytes m k place) (hplace : place k = base + w)
    (hdesc : fragmentDescOffset k + 16 ≤ base) (hpos : 0 < r.2.length)
    (hdecodes : ∀ desc : FragmentDesc, desc.type = r.1 →
      desc.uncomprSize.toNat = fragmentSizeAt bmapBytes k → decodeFragment libs desc r.2 =
        .ok (slice bitmap (base + k * blkBmapFragmentSize) (fragmentSizeAt bmapBytes k)))
    (htype : desc.type = r.1) (hoffset : desc.offset.toNat = base + w)
    (hcompr : desc.comprSize.toNat = r.2.length)
    (huncompr : desc.uncomprSize.toNat = fragmentSizeAt bmapBytes k) :
    BmapFragmentsAt libs bitmap base bmapBytes
      (FragmentDesc.wire.write (storeBytes m (base + w) r.2) (fragmentDescOffset k) desc) (k + 1)
      (Function.update place (k + 1) (base + (w + r.2.length))) := by
  have hkept := h.congr
    (fun x hlo hhi => (FragmentDesc.wire.write_frame (a := desc) (.inl hhi)).trans
      (@storeBytes_frame _ _ r.2 _ (.inl (by omega))))
    (fun x hlo hhi => (FragmentDesc.wire.write_frame (a := desc)
      (.inr (by rw [FragmentDesc.wire_size]; omega))).trans
        (@storeBytes_frame _ _ r.2 _ (.inl (hplace ▸ hhi))))
  refine hkept.snoc ⟨by omega, ?_, ?_, ?_⟩
  · rw [FragmentDesc.wire.read_write, hoffset, hplace]
  · rw [FragmentDesc.wire.read_write, hcompr]
    omega
  · have hstored : slice (FragmentDesc.wire.write (storeBytes m (base + w) r.2)
        (fragmentDescOffset k) desc) (base + w) r.2.length = r.2 := by
      rw [slice_congr fun x hx => FragmentDesc.wire.write_frame (.inr (by
        rw [FragmentDesc.wire_size]; omega)), slice_storeBytes]
    have hlen : base + (w + r.2.length) - (base + w) = r.2.length := by omega
    rw [FragmentDesc.wire.read_write, hplace, hlen, hstored]
    exact hdecodes desc htype huncompr

theorem preCommitFragment_stays {bitmap : Buf} {base bmapBytes n size i : Nat} {st : BlkbmapState}
    (hlibs : libs.Lossless) (hsizes : BitmapSizes base bmapBytes n size)
    (hbitmap : bitmap.size = size) (hi : i < n)
    (h : FragmentsWritten libs bitmap.data base bmapBytes size i st) :
    Checked.Stays (preCommitFragment crc32 libs blkbmap bitmap base bmapBytes size i st)
      (FragmentsWritten libs bitmap.data base bmapBytes size (i + 1)) := by
  obtain ⟨hsize, ⟨place, hstored, hplace⟩, hoffset, hbmap, hcompr⟩ := h
  obtain ⟨hbase, hsize', hfew, hlt, hle⟩ := hsizes
  have hlti := hlt i hi
  have hend : fragmentsEnd bmapBytes i = i * blkBmapFragmentSize := Nat.min_eq_right (Nat.le_of_lt hlti)
  have hsucc := fragmentsEnd_succ bmapBytes i
  have hall : fragmentsEnd bmapBytes (i + 1) ≤ bmapBytes := Nat.min_le_left _ _
  have hfrag : fragmentSizeAt bmapBytes i ≤ 4096 := Nat.min_le_right _ _
  have hwithin : i * blkBmapFragmentSize + fragmentSizeAt bmapBytes i ≤ bmapBytes := by omega
  have hdesc : fragmentDescOffset i + 16 ≤ base := by
    rw [hbase]
    unfold fragmentDescOffset fragmentDescSize
    omega
  unfold preCommitFragment
  refine Checked.Stays.bugOn.bind fun _ _ => ?_
  simp only [hbmap, hend]
  rw [show min (bmapBytes - i * blkBmapFragmentSize) blkBmapFragmentSize = fragmentSizeAt bmapBytes i
    from rfl]
  refine Checked.Stays.bugOn.bind fun _ _ => Checked.Stays.bugOn.bind fun _ _ => ?_
  rw [Buf.bytes_ok (by omega), Checked.ok_bind]
  refine (compressFragment_stays hlibs).bind fun r hr => ?_
  obtain ⟨type, compr⟩ := r
  obtain ⟨hlen, hdecodes⟩ := hr
  rw [length_slice] at hlen hdecodes
  simp only at hlen hdecodes ⊢
  have hsmall : bmapBytes ≤ 262144 := by
    unfold blkBmapFragmentSize at hle
    unfold blkBmapFragmentsChainMax at hfew
    omega
  have hbaseLt : base ≤ 1072 := by
    rw [hbase]
    unfold fragmentDescOffset blkBmapHdrSize blkBmapFragHdrSize fragmentDescSize
    unfold blkBmapFragmentsChainMax at hfew
    omega
  rw [Buf.putBytes_ok (by omega), Checked.ok_bind, Word.u16_of_lt (show compr.length < 65536 by omega),
    Word.u16_of_lt (show fragmentSizeAt bmapBytes i < 65536 by omega),
    Word.u32_of_lt (show st.fragmentOffset + compr.length < 4294967296 by omega),
    Word.u32_of_lt (show i * blkBmapFragmentSize + fragmentSizeAt bmapBytes i < 4294967296 by omega),
    Word.u32_of_lt (show st.writtenComprBytes + compr.length < 4294967296 by omega),
    show blkBmapHdrSize + blkBmapFragHdrSize + i * fragmentDescSize = fragmentDescOffset i from rfl]
  have hfitDesc : fragmentDescOffset i + 16 ≤ st.buf.size := by omega
  have hinit := @fragmentDescriptorInitFrom_stays crc32 bitmap
    ⟨st.buf.size, storeBytes st.buf.data (base + st.writtenComprBytes) compr⟩ (fragmentDescOffset i)
    (base + i * blkBmapFragmentSize) st.fragmentOffset compr.length (fragmentSizeAt bmapBytes i)
    (Word.u8 i) type hfitDesc (by omega)
  refine hinit.bind fun buf' hbuf => ?_
  obtain ⟨hpos, checksum, rfl⟩ := hbuf
  have hoff : (UInt32.ofNat st.fragmentOffset).toNat = base + st.writtenComprBytes :=
    (UInt32.toNat_ofNat_of_lt' (show st.fragmentOffset < 4294967296 by omega)).trans hoffset
  have hcompr' : (UInt16.ofNat compr.length).toNat = compr.length :=
    UInt16.toNat_ofNat_of_lt' (show compr.length < 65536 by omega)
  have huncompr : (UInt16.ofNat (fragmentSizeAt bmapBytes i)).toNat = fragmentSizeAt bmapBytes i :=
    UInt16.toNat_ofNat_of_lt' (show fragmentSizeAt bmapBytes i < 65536 by omega)
  have hwritten := @BmapFragmentsAt.write libs bitmap.data st.buf.data base bmapBytes i
    st.writtenComprBytes place (type, compr) (bmapFragmentDesc st.fragmentOffset
      compr.length (fragmentSizeAt bmapBytes i) (Word.u8 i) type checksum) hstored hplace hdesc hpos hdecodes rfl hoff hcompr'
    huncompr
  refine Checked.Stays.ok ⟨hsize, ⟨_, hwritten, Function.update_self ..⟩, ?_, hsucc ▸ hend.symm ▸ rfl, ?_⟩
  · simp only
    omega
  · simp only
    omega

/-- The sizes that `__pre_commit_block_bitmap` computes fit together. -/
theorem bitmapSizes (layout : VolumeLayout) :
    BitmapSizes (blkBmapOffset (blkBmapFragments (blkBmapBytes layout.pagesPerPeb)))
      (blkBmapBytes layout.pagesPerPeb) (blkBmapFragments (blkBmapBytes layout.pagesPerPeb))
      (Word.u32 (blkBmapBytes layout.pagesPerPeb + blkBmapHdrSize + blkBmapFragHdrSize +
        blkBmapFragments (blkBmapBytes layout.pagesPerPeb) * fragmentDescSize)) := by
  have herase := layout.env.eraseSize.toNat_lt
  have hpage := layout.pageSize.bytes_ge
  have hpages : layout.pagesPerPeb ≤ 1048576 := by
    refine Nat.le_trans (Nat.div_le_div_left hpage (by decide)) ?_
    omega
  have hbytes : blkBmapBytes layout.pagesPerPeb = (layout.pagesPerPeb + 3) / 4 := by
    unfold blkBmapBytes
    rw [show layout.pagesPerPeb + itemsPerByte blkStateBits - 1 = layout.pagesPerPeb + 3 from rfl,
      Word.u32_of_lt (by omega)]
    rfl
  generalize blkBmapBytes layout.pagesPerPeb = bytes at hbytes
  have hfragments : blkBmapFragments bytes = (bytes + 4095) / 4096 := by
    unfold blkBmapFragments
    rw [show bytes + blkBmapFragmentSize - 1 = bytes + 4095 from rfl, Word.u32_of_lt (by omega)]
    rfl
  generalize blkBmapFragments bytes = n at hfragments
  have hbase : blkBmapOffset n = fragmentDescOffset n := by
    refine Word.u32_of_lt ?_
    unfold blkBmapHdrSize blkBmapFragHdrSize fragmentDescSize
    omega
  refine ⟨hbase, ?_, ?_, fun i hi => ?_, ?_⟩
  · rw [hbase]
    unfold fragmentDescOffset blkBmapHdrSize blkBmapFragHdrSize fragmentDescSize
    rw [Word.u32_of_lt (by omega)]
    omega
  · unfold blkBmapFragmentsChainMax
    omega
  · unfold blkBmapFragmentSize
    omega
  · unfold blkBmapFragmentSize
    omega

/-- What is read back from the block bitmap of a log is what has been marked in it, and its fragments
fill the place behind their descriptors. -/
structure BitmapDecodes (libs : CompressionLibs) (layout : VolumeLayout) (start valid blks : Nat)
    (e : BlkbmapExtent) : Prop where
  bytes : ∃ bytes, readBlockBitmap libs e.buf = .ok bytes ∧
    bytes.length = blkBmapBytes layout.pagesPerPeb ∧
    ∀ i < 4 * bytes.length, blkState (fun x => bytes.getD x 0) 0 i = markedState start valid blks i
  tiles : ∃ n, (BlockBitmapFragment.wire.read e.buf.data 16).chainHdr.fragmentsCount.toNat = n ∧
    Tiles {i | i < n} (fragmentPlace e.buf.data) (Set.Ico (fragmentDescOffset n) e.bytesCount)
  bytesCount : (BlockBitmapHeader.wire.read e.buf.data 0).bytesCount.toNat = e.bytesCount
  inside : e.bytesCount ≤ e.buf.size

/-- What `__pre_commit_block_bitmap` accepts of a PEB whose payload fills `valid` blocks. -/
structure BitmapAccepted (layout : VolumeLayout) (blkbmap : BlkbmapLayout) (extent : ExtentDesc)
    (valid blks : Nat) : Prop where
  empty : extent.buf.isSome = false
  page_le : layout.pageSize.bytes ≤ layout.env.eraseSize.toNat
  blks_le : blks ≤ layout.pagesPerPeb
  compression : blkbmap.compression ≠ .unknown
  requested : BlksRequested valid blks

theorem blkAreas_stays {layout : VolumeLayout} {bytesCount start valid blks : Nat}
    (hblks : blks < 65536) (hvalid : bytesCount / layout.pageSize.bytes = valid)
    (hlt : valid < Word.u32Max) :
    Checked.Stays (blkAreas layout bytesCount start blks) fun areas =>
      BlksRequested valid blks ∧ areas = markedAreas start valid blks where
  inside := by
    unfold blkAreas
    exact (failIf_stays.bind (R := fun _ => True) fun _ _ => Checked.Stays.ok trivial).inside
  result _ h := by
    have hexact := @blkAreas_exact layout bytesCount start valid blks hblks hvalid hlt
    exact ⟨hexact.only _ h, hexact.result h⟩

theorem blkBmapTypeOf_stays :
    Checked.Stays (blkBmapTypeOf compression) fun _ => compression ≠ .unknown := by
  cases compression
  case unknown => exact Checked.Stays.error nofun
  all_goals exact Checked.Stays.ok nofun

@[simp] theorem blkState_zero {size base i : Nat} : blkState (Buf.zero size).data base i = 0 := by
  unfold blkState stateInByte
  exact (congrArg (· &&& blkStateMask) (Nat.zero_shiftRight _)).trans (Nat.zero_and _)

theorem blkState_slice {m : Bytes} {base len i : Nat} (hi : i < 4 * len) :
    blkState (fun x => (slice m base len).getD x 0) 0 i = blkState m base i := by
  have hbyte : 0 + i / itemsPerByte blkStateBits < len := by
    rw [show itemsPerByte blkStateBits = 4 from rfl]
    omega
  have hget : (slice m base len).getD (0 + i / itemsPerByte blkStateBits) 0 =
      m (base + i / itemsPerByte blkStateBits) := by
    rw [List.getD_eq_getElem?_getD, getElem?_slice hbyte, Nat.zero_add]
    rfl
  unfold blkState
  simp only
  rw [hget]

variable {layout : VolumeLayout} {extent : ExtentDesc} {pebIndex bytesCount valid : Nat}
  {startLogicalBlk : UInt32} {blksCount : UInt16}

def withHeaders (m : Bytes) (hdr : BlockBitmapHeader) (fragHdr : BlockBitmapFragment) : Bytes :=
  BlockBitmapFragment.wire.write (BlockBitmapHeader.wire.write m 0 hdr) blkBmapHdrSize fragHdr

section

variable {m : Bytes} {hdr : BlockBitmapHeader} {fragHdr : BlockBitmapFragment}

theorem withHeaders_frame {x : Nat} (hx : 48 ≤ x) : withHeaders m hdr fragHdr x = m x := by
  unfold withHeaders
  refine (BlockBitmapFragment.wire.write_frame (.inr hx)).trans ?_
  exact BlockBitmapHeader.wire.write_frame (.inr (Nat.le_trans (by decide) hx))

theorem withHeaders_fragment :
    BlockBitmapFragment.wire.read (withHeaders m hdr fragHdr) blkBmapHdrSize = fragHdr :=
  BlockBitmapFragment.wire.read_write ..

theorem withHeaders_header : BlockBitmapHeader.wire.read (withHeaders m hdr fragHdr) 0 = hdr :=
  (BlockBitmapHeader.wire.read_write_of_disjoint BlockBitmapFragment.wire
    (.inl (Nat.le_refl _))).trans (BlockBitmapHeader.wire.read_write ..)

end

theorem preCommitFragments_stays {bitmap : Buf} {start blks base bmapBytes n size : Nat}
    {hdr : BlockBitmapHeader} {fragHdr : BlockBitmapFragment}
    (hlibs : libs.Lossless) (hsizes : BitmapSizes base bmapBytes n size)
    (hbmap : bmapBytes = blkBmapBytes layout.pagesPerPeb)
    (hcount : fragHdr.chainHdr.fragmentsCount = UInt16.ofNat n)
    (hreq : BlksRequested valid blks)
    (hmarked : Marked start valid blks base (Buf.zero size) bitmap) :
    Checked.Stays (do
      let st ← Checked.forRange n (preCommitFragment crc32 libs blkbmap bitmap base bmapBytes size)
        ⟨Buf.zero size, base, 0, 0⟩
      let buf ← st.buf.put Errno BlockBitmapHeader.wire 0
        { hdr with bytesCount := UInt32.ofNat (Word.u32 (base + st.writtenComprBytes)) }
      let buf ← buf.put Errno BlockBitmapFragment.wire blkBmapHdrSize
        { fragHdr with chainHdr.comprBytes := UInt32.ofNat st.writtenComprBytes }
      .ok ⟨buf, Word.u32 (base + st.writtenComprBytes), blkbmap.compression⟩)
      (BitmapDecodes libs layout start valid blks) := by
  have hstart : FragmentsWritten libs bitmap.data base bmapBytes size 0 ⟨Buf.zero size, base, 0, 0⟩ :=
    { size := rfl
      stored := ⟨fun _ => base, ⟨rfl, fun i hi => absurd hi (Nat.not_lt_zero i)⟩, rfl⟩
      offset := rfl
      bmap := by rw [fragmentsEnd, Nat.zero_mul, Nat.min_zero]
      compr := Nat.zero_le _ }
  have hloop := Checked.Stays.forRange (n := n) hstart fun i hi st hst =>
    @preCommitFragment_stays crc32 libs blkbmap bitmap base bmapBytes n size i st hlibs hsizes
      hmarked.size hi hst
  refine hloop.bind fun st hst => ?_
  obtain ⟨hsize, ⟨place, hstored, hplace⟩, -, -, hcompr⟩ := hst
  obtain ⟨hbase, hsize', hfew, -, hle⟩ := hsizes
  have hend : fragmentsEnd bmapBytes n ≤ bmapBytes := Nat.min_le_left _ _
  have hbase' : base = 48 + n * 16 := hbase
  have hfew' : n ≤ 64 := hfew
  have hle' : bmapBytes ≤ n * 4096 := hle
  have hwritten : Word.u32 (base + st.writtenComprBytes) = base + st.writtenComprBytes :=
    Word.u32_of_lt (by omega)
  have hfit : blkBmapHdrSize + BlockBitmapFragment.wire.size ≤ st.buf.size := by
    rw [BlockBitmapFragment.wire_size, blkBmapHdrSize]
    omega
  rw [hwritten]
  generalize hh : ({ hdr with bytesCount := UInt32.ofNat (base + st.writtenComprBytes) } :
    BlockBitmapHeader) = h
  generalize hf : ({ fragHdr with chainHdr.comprBytes := UInt32.ofNat st.writtenComprBytes } :
    BlockBitmapFragment) = f
  rw [Buf.put_ok (Nat.le_trans (by decide) hfit), Checked.ok_bind,
    show ∀ data, Buf.put Errno ⟨st.buf.size, data⟩ BlockBitmapFragment.wire blkBmapHdrSize f =
      .ok ⟨st.buf.size, BlockBitmapFragment.wire.write data blkBmapHdrSize f⟩ from fun _ =>
        Buf.put_ok hfit, Checked.ok_bind]
  refine Checked.Stays.ok ?_
  have hfinal : BmapFragmentsAt libs bitmap.data base bmapBytes (withHeaders st.buf.data h f) n place :=
    hstored.congr (fun x hx _ => withHeaders_frame hx) fun x hx _ => withHeaders_frame (by omega)
  have hfragments : (BlockBitmapFragment.wire.read (withHeaders st.buf.data h f)
      16).chainHdr.fragmentsCount.toNat = n := by
    rw [show BlockBitmapFragment.wire.read (withHeaders st.buf.data h f) 16 = f from
      withHeaders_fragment, ← hf, hcount]
    exact UInt16.toNat_ofNat_of_lt' (show n < 65536 by omega)
  have hbytesCount : h.bytesCount.toNat = base + st.writtenComprBytes := by
    rw [← hh]
    exact UInt32.toNat_ofNat_of_lt' (show base + st.writtenComprBytes < 4294967296 by omega)
  have hread := @readBlockBitmap_ok libs bitmap.data base bmapBytes
    ⟨st.buf.size, withHeaders st.buf.data h f⟩ n place hfinal hfragments hle
    (show fragmentDescOffset n ≤ st.buf.size by omega) (show place n ≤ st.buf.size by omega)
  refine
    { bytes := ⟨_, hread, length_slice.trans hbmap, fun i hi => ?_⟩
      tiles := ⟨n, hfragments, ?_⟩
      bytesCount := (congrArg (fun h => h.bytesCount.toNat) withHeaders_header).trans hbytesCount
      inside := show base + st.writtenComprBytes ≤ st.buf.size by omega }
  · rw [length_slice] at hi
    obtain ⟨hvalid, -⟩ := hreq
    rw [blkState_slice hi, hmarked.states, blkState_zero]
    unfold markedState
    split_ifs <;> first | rfl | omega
  · simp only
    rw [← hplace, ← hbase]
    exact hfinal.tiles

/-- The blocks that an accepted call marks stay inside the bitmap exactly when every access of the
call stays inside its buffer, and then the bitmap is read back as it has been marked. -/
theorem preCommitBlockBitmap_decodes_iff (hlibs : libs.Lossless)
    (hbytes : bytesCount / layout.pageSize.bytes < Word.u32Max) :
    Checked.Stays (preCommitBlockBitmap crc32 libs layout blkbmap extent pebIndex bytesCount
        startLogicalBlk blksCount)
      (BitmapDecodes libs layout startLogicalBlk.toNat (bytesCount / layout.pageSize.bytes)
        blksCount.toNat) ↔
      (BitmapAccepted layout blkbmap extent (bytesCount / layout.pageSize.bytes) blksCount.toNat →
        0 < blksCount.toNat →
          startLogicalBlk.toNat + blksCount.toNat ≤ 4 * blkBmapBytes layout.pagesPerPeb) := by
  have hsizes := bitmapSizes layout
  have hpage : layout.pageSize.bytes ≠ 0 := by
    have hge := layout.pageSize.bytes_ge
    omega
  have hfew : blkBmapFragments (blkBmapBytes layout.pagesPerPeb) ≤ 64 := hsizes.few
  have hsmall : blkBmapBytes layout.pagesPerPeb < 536870912 := by
    have hle : _ ≤ _ * 4096 := hsizes.le
    omega
  have hmarking := fun hreq => @setBlkAreas_exact startLogicalBlk.toNat
    (bytesCount / layout.pageSize.bytes) blksCount.toNat _ _ (Buf.zero _) hreq
    startLogicalBlk.toNat_lt blksCount.toNat_lt hsmall hsizes.size_eq
  have hareas := @blkAreas_exact layout bytesCount startLogicalBlk.toNat _ blksCount.toNat
    blksCount.toNat_lt rfl hbytes
  unfold preCommitBlockBitmap
  constructor
  · rintro hstays ⟨hempty, hle, hblks, hcompression, hreq⟩
    obtain ⟨areas, hrun, rfl⟩ := hareas.succeeds hreq
    have htype : ∃ type, blkBmapTypeOf blkbmap.compression = .ok type := by
      cases hc : blkbmap.compression
      case unknown => exact absurd hc hcompression
      all_goals exact ⟨_, rfl⟩
    obtain ⟨type, htype⟩ := htype
    rw [bugOn_of_not (by rw [hempty]; decide), Checked.ok_bind, bugOn_of_not hpage, Checked.ok_bind,
      bugOn_of_not (Nat.not_lt.2 hle), Checked.ok_bind, failIf_of_not (Nat.not_lt.2 hblks),
      Checked.ok_bind] at hstays
    simp only at hstays
    rw [bugOn_of_not (by unfold Word.u16Max; omega), Checked.ok_bind,
      bugOn_of_not (Nat.not_lt.2 hsizes.few), Checked.ok_bind, htype, Checked.ok_bind, hrun,
      Checked.ok_bind] at hstays
    exact setBlkAreas_strays.holds_of_stays (hmarking hreq) hstays
  · intro hinside
    refine Checked.Stays.bugOn.bind fun _ hempty => Checked.Stays.bugOn.bind fun _ _ =>
      Checked.Stays.bugOn.bind fun _ hle => failIf_stays.bind fun _ hblks =>
      Checked.Stays.bugOn.bind fun _ _ => Checked.Stays.bugOn.bind fun _ _ =>
      blkBmapTypeOf_stays.bind fun type hcompression =>
      (blkAreas_stays blksCount.toNat_lt rfl hbytes).bind fun areas hareas => ?_
    obtain ⟨hreq, rfl⟩ := hareas
    have haccepted : BitmapAccepted layout blkbmap extent (bytesCount / layout.pageSize.bytes)
        blksCount.toNat :=
      { empty := by simpa using hempty
        page_le := Nat.not_lt.1 hle
        blks_le := Nat.not_lt.1 hblks
        compression := hcompression
        requested := hreq }
    refine (Checked.Stays.of_exact (hmarking hreq) (hinside haccepted)).bind fun bitmap hmarked => ?_
    exact preCommitFragments_stays hlibs hsizes rfl rfl hreq hmarked

end

def sixteenPebSegs (segSize : UInt64) : VolumeLayout where
  needEraseDevice := false
  segSize := segSize
  pageSize := .kib4
  nandDiesCount := 1
  lebsPerPebIndex := 1
  segbmap := ⟨false, 1⟩
  maptbl := ⟨false, 1, 1, 10, 0, 0, 0, 0, 0, 0, 0, 0, 0⟩
  env := ⟨104857600, 131072, .blk⟩

/-- Libraries that are not asked: the bitmap is not compressed. -/
def noLibs : CompressionLibs where
  compress _ _ _ := .error .eopnotsupp
  decompress _ _ _ := none

theorem noLibs_lossless : noLibs.Lossless := nofun

/-- The eleventh PEB with three blocks: the last one of them is the 33rd of 32. -/
theorem preCommitBlockBitmap_strays_30 :
    BitmapAccepted (sixteenPebSegs 2097152) ⟨false, .uncompressed⟩ ⟨none, 0, 0⟩ 3 3 ∧
      noLibs.Lossless ∧
      ¬Checked.Stays (preCommitBlockBitmap (fun _ => 0) noLibs (sixteenPebSegs 2097152)
          ⟨false, .uncompressed⟩ ⟨none, 0, 0⟩ 10 12288 30 3)
        (BitmapDecodes noLibs (sixteenPebSegs 2097152) 30 3 3) := by
  refine ⟨⟨rfl, by decide, by decide, by decide, by decide, by decide⟩, noLibs_lossless, fun h => ?_⟩
  have hstray : Checked.isStray (preCommitBlockBitmap (fun _ => 0) noLibs (sixteenPebSegs 2097152)
      ⟨false, .uncompressed⟩ ⟨none, 0, 0⟩ 10 12288 30 3) = true := by decide +kernel
  exact h.inside (Checked.eq_stray hstray)

/-- The tenth PEB still fits. -/
theorem preCommitBlockBitmap_decodes_27 :
    noLibs.Lossless ∧ 12288 / (sixteenPebSegs 2097152).pageSize.bytes < Word.u32Max ∧
      (Checked.Stays (preCommitBlockBitmap (fun _ => 0) noLibs (sixteenPebSegs 2097152)
          ⟨false, .uncompressed⟩ ⟨none, 0, 0⟩ 9 12288 27 3)
        (BitmapDecodes noLibs (sixteenPebSegs 2097152) (27 : UInt32).toNat
          (12288 / (sixteenPebSegs 2097152).pageSize.bytes) (3 : UInt16).toNat) ∧
      ((preCommitBlockBitmap (fun _ => 0) noLibs (sixteenPebSegs 2097152)
          ⟨false, .uncompressed⟩ ⟨none, 0, 0⟩ 9 12288 27 3).toOption.isSome = true)) :=
  ⟨noLibs_lossless, by decide, (preCommitBlockBitmap_decodes_iff noLibs_lossless (by decide)).2
    fun _ _ => by decide, by decide +kernel⟩

end Ssdfs
