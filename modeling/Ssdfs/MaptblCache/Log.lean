import Ssdfs.Log.Header
import Ssdfs.MaptblCache.Order
import Ssdfs.OffTable.Format

namespace Ssdfs

open Memory Align

structure MaptblCacheRecord where
  magic : Signature
  sequenceId : UInt16
  flags : UInt16
  itemsCount : UInt16
  bytesCount : UInt16
  startLeb : UInt64
  endLeb : UInt64
  deriving DecidableEq

def MaptblCacheRecord.wire : Wire MaptblCacheRecord :=
  (Signature.wire.pair <| Wire.u16.pair <| Wire.u16.pair <| Wire.u16.pair <| Wire.u16.pair <|
    Wire.u64.pair Wire.u64).iso
    (fun (a, b, c, d, e, f, g) => ⟨a, b, c, d, e, f, g⟩)
    (fun r => (r.magic, r.sequenceId, r.flags, r.itemsCount, r.bytesCount, r.startLeb, r.endLeb))
    fun _ => rfl

@[simp] theorem MaptblCacheRecord.wire_size : MaptblCacheRecord.wire.size = 32 := rfl

def MaptblCacheHeader.record (hdr : MaptblCacheHeader) : MaptblCacheRecord where
  magic := ⟨superMagic, UInt16.ofNat hdr.magicKey, majorRevision, minorRevision⟩
  sequenceId := UInt16.ofNat hdr.sequenceId
  flags := UInt16.ofNat hdr.flags
  itemsCount := UInt16.ofNat hdr.itemsCount
  bytesCount := UInt16.ofNat hdr.bytesCount
  startLeb := UInt64.ofNat hdr.startLeb
  endLeb := UInt64.ofNat hdr.endLeb

def MaptblCacheFragment.page (fragment : MaptblCacheFragment) : Bytes :=
  MaptblCacheRecord.wire.write (fun i => fragment.area.data (i - maptblCacheHdrSize)) 0
    fragment.hdr.record

def MaptblCache.buffer (page : PageSize) (c : MaptblCache) : Bytes :=
  fun i => (c.fragments (i / page.bytes)).page (i % page.bytes)

def cacheUsed (page : Nat) (buf : Bytes) (i : Nat) : Nat :=
  (MaptblCacheRecord.wire.read buf (i * page)).bytesCount.toNat

def logFooterSize : Nat := 2048

/-- The extent of the cache is as long as the bytes in use, not as its pages. -/
def sbExtentSizes (c : MaptblCache) : ExtentIndex → UInt32
  | .segHeader => UInt32.ofNat segmentHeaderSize
  | .maptblCache => UInt32.ofNat c.bytesCount
  | .logFooter => UInt32.ofNat logFooterSize
  | _ => 0

def sbLog (layout : VolumeLayout) (c : MaptblCache) (lebId pebId : Nat) : PebContent :=
  let peb := sbMkfsDefineLayout layout (sbExtentSizes c) (.blank lebId pebId)
  { peb with
    extents := Function.update peb.extents .maptblCache
      { peb.extents .maptblCache with buf := some (c.buffer layout.pageSize) } }

structure MetadataCheck where
  bytes : Nat
  flags : Nat
  csum : UInt32
  deriving DecidableEq

structure MetadataDescriptor where
  offset : Nat
  size : Nat
  check : MetadataCheck
  deriving DecidableEq

def crc32Flag : Nat := 1

def ExtentDesc.contents (extent : ExtentDesc) : Mkfs Bytes :=
  match extent.buf with
  | some buf => .ok buf
  | none => .error .abort

/-- The checksum goes over the bytes in use of each page, the one after the other; `crc32`
continues a checksum. -/
def prepareMaptblCacheMetadataDescriptor (crc32 : UInt32 → List UInt8 → UInt32)
    (layout : VolumeLayout) (c : MaptblCache) (extent : ExtentDesc) : Mkfs MetadataDescriptor := do
  let eraseSize := layout.env.eraseSize.toNat
  bugOn (extent.bytesCount = 0 ∨ extent.bytesCount.toNat ≥ eraseSize)
  bugOn (extent.offset = 0 ∨ extent.offset.toNat ≥ eraseSize)
  let buf ← extent.contents
  bugOn (extent.bytesCount.toNat ≥ Word.u16Max)
  let (csum, bytesCount) := (List.range c.fragmentsCount).foldl (fun (csum, bytesCount) i =>
    let ptr := i * layout.pageSize.bytes
    let size := (MaptblCacheRecord.wire.read buf ptr).bytesCount.toNat
    (crc32 csum (slice buf ptr size), Word.u32 (bytesCount + size))) (0, 0)
  bugOn (bytesCount ≥ Word.u16Max)
  .ok ⟨extent.offset.toNat, extent.bytesCount.toNat, ⟨Word.u16 bytesCount, crc32Flag, ~~~csum⟩⟩

section

variable {page : PageSize} {layout : VolumeLayout} {c : MaptblCache} {lebId pebId : Nat}

theorem MaptblCache.buffer_page (c : MaptblCache) (i : Nat) {j : Nat} (hj : j < page.bytes) :
    c.buffer page (i * page.bytes + j) = (c.fragments i).page j := by
  unfold MaptblCache.buffer
  rw [Nat.mul_comm, Nat.mul_add_div (by omega), Nat.mul_add_mod, Nat.div_eq_of_lt hj,
    Nat.mod_eq_of_lt hj, Nat.add_zero]

@[simp] theorem MaptblCache.record_buffer (c : MaptblCache) (i : Nat) :
    MaptblCacheRecord.wire.read (c.buffer page) (i * page.bytes) = (c.fragments i).hdr.record := by
  have hpage := page.bytes_ge
  have hread : MaptblCacheRecord.wire.read (c.buffer page) (i * page.bytes) =
      MaptblCacheRecord.wire.read (c.fragments i).page 0 := by
    refine MaptblCacheRecord.wire.read_congr fun j hj => ?_
    rw [MaptblCacheRecord.wire_size] at hj
    rw [c.buffer_page i (by omega), Nat.zero_add]
  rw [hread]
  exact MaptblCacheRecord.wire.read_write ..

theorem size_sbLog (layout : VolumeLayout) (c : MaptblCache) (lebId pebId : Nat) :
    (sbLog layout c lebId pebId).size = sizesOf sbItems (sbExtentSizes c) := by
  rw [← @size_sbMkfsDefineLayout layout (sbExtentSizes c) lebId pebId]
  funext k
  unfold sbLog PebContent.size
  by_cases hk : k = .maptblCache
  · subst hk
    simp
  · simp [hk]

theorem start_sbLog (k : ExtentIndex) : (sbLog layout c lebId pebId).start k =
    (sbMkfsDefineLayout layout (sbExtentSizes c) (.blank lebId pebId)).start k := by
  unfold sbLog PebContent.start
  by_cases hk : k = .maptblCache
  · subst hk
    simp
  · simp [hk]

def sbLogBytes (cacheBytes : Nat) : Nat :=
  8192 + if cacheBytes ≤ 2048 then 0 else padTo 4096 cacheBytes

theorem logEnd_sbExtentSizes (hbytes : c.bytesCount < 4294967296) :
    logEnd 4096 (sizesOf sbItems (sbExtentSizes c)) = sbLogBytes c.bytesCount := by
  have hitems : ∀ k ∉ sbItems, sizesOf sbItems (sbExtentSizes c) k = 0 := fun k hk => if_neg hk
  have hcache : sizesOf sbItems (sbExtentSizes c) .maptblCache = c.bytesCount :=
    UInt32.toNat_ofNat_of_lt' hbytes
  have hheader : sizesOf sbItems (sbExtentSizes c) .segHeader = 2048 := rfl
  have hfooter : sizesOf sbItems (sbExtentSizes c) .logFooter = 2048 := rfl
  rw [logEnd_of_header (by decide) hitems, hfooter]
  unfold payloadStart cacheStart sbLogBytes
  rw [itemsEnd_of_header hitems, hheader, hcache]
  have hpage : padTo 4096 2048 = 4096 := by decide
  split_ifs with hbig hsmall hsmall
  · exact absurd hbig (Nat.not_lt.2 hsmall)
  · rw [hpage, padTo_add (by decide) (Nat.dvd_refl _)]
    omega
  · have hone : padTo 4096 (2048 + c.bytesCount) = 4096 := by
      unfold padTo
      omega
    rw [hone, hpage]
  · exact absurd (Nat.not_le.1 hsmall) hbig

/-- The log is counted without a wrap if the cache is not too large. -/
theorem calculateLogPages_sbLog (hbytes : c.bytesCount < Word.u16Max) :
    calculateLogPages layout .sb (sbLog layout c lebId pebId) =
      if layout.env.eraseSize.toNat < sbLogBytes c.bytesCount then .error .abort
      else .ok (sbLogBytes c.bytesCount / 4096) := by
  unfold Word.u16Max at hbytes
  have hend := @logEnd_sbExtentSizes c (by omega)
  have hle : sbLogBytes c.bytesCount ≤ 131072 := by
    unfold sbLogBytes padTo
    split <;> omega
  have hcount : logBytesCount 4096 (sizesOf sbItems (sbExtentSizes c)) = sbLogBytes c.bytesCount := by
    rw [@logBytesCount_eq 4096 131072 _ (by decide) (by decide) (hend ▸ hle), hend]
  unfold calculateLogPages
  rw [size_sbLog]
  change (do bugOn (logBytesCount 4096 _ > _); Except.ok (logBytesCount 4096 _ / 4096)) = _
  rw [hcount]
  split
  case isTrue h => rw [bugOn, Checked.bugOn, if_pos h]; rfl
  case isFalse h => rw [bugOn_of_not h, Checked.ok_bind]

end

end Ssdfs
