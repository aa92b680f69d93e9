import Ssdfs.Blkbmap.Areas
import Ssdfs.Lib.Stays
import Ssdfs.Lib.Tiling

namespace Ssdfs

open Memory

def fragmentCompressionOf (type : UInt8) : Option Compression :=
  [Compression.zlib, .lzo, .lz4, .zstd].find? fun c => fragmentBlobOf c = type

def fragmentDescOffset (i : Nat) : Nat := blkBmapHdrSize + blkBmapFragHdrSize + i * fragmentDescSize

section

variable (libs : CompressionLibs)

def decodeFragment (desc : FragmentDesc) (stored : List UInt8) : Mkfs (List UInt8) :=
  if desc.type = fragmentUncomprBlob then .ok stored
  else
    match fragmentCompressionOf desc.type with
    | none => fail .einval
    | some compression =>
      match libs.decompress compression stored desc.uncomprSize.toNat with
      | none => fail .eio
      | some data => .ok data

def readBmapFragment (buf : Buf) (i : Nat) : Mkfs (List UInt8) := do
  let desc ← buf.get Errno FragmentDesc.wire (fragmentDescOffset i)
  let stored ← buf.bytes Errno desc.offset.toNat desc.comprSize.toNat
  decodeFragment libs desc stored

def readBlockBitmap (buf : Buf) : Mkfs (List UInt8) := do
  let fragHdr ← buf.get Errno BlockBitmapFragment.wire blkBmapHdrSize
  Checked.forRange fragHdr.chainHdr.fragmentsCount.toNat (fun i bytes => do
    let fragment ← readBmapFragment libs buf i
    .ok (bytes ++ fragment)) []

end

/-- The bytes that the descriptor of fragment `i` gives it. -/
def fragmentPlace (m : Bytes) (i : Nat) : Set Nat :=
  let desc := FragmentDesc.wire.read m (fragmentDescOffset i)
  Set.Ico desc.offset.toNat (desc.offset.toNat + desc.comprSize.toNat)

/-- The size of fragment `i` of a bitmap. -/
def fragmentSizeAt (bmapBytes i : Nat) : Nat :=
  min (bmapBytes - i * blkBmapFragmentSize) blkBmapFragmentSize

/-- Fragment `i` of the bitmap at `base` in `bitmap` is stored at `lo` up to `hi`. -/
structure BmapFragmentAt (libs : CompressionLibs) (bitmap : Bytes) (base bmapBytes : Nat) (m : Bytes)
    (i lo hi : Nat) : Prop where
  lt : lo < hi
  offset : (FragmentDesc.wire.read m (fragmentDescOffset i)).offset.toNat = lo
  comprSize : (FragmentDesc.wire.read m (fragmentDescOffset i)).comprSize.toNat = hi - lo
  decodes : decodeFragment libs (FragmentDesc.wire.read m (fragmentDescOffset i))
    (slice m lo (hi - lo)) =
      .ok (slice bitmap (base + i * blkBmapFragmentSize) (fragmentSizeAt bmapBytes i))

/-- The first `k` fragments are stored one behind the other from `base` on, each at `place`. -/
structure BmapFragmentsAt (libs : CompressionLibs) (bitmap : Bytes) (base bmapBytes : Nat) (m : Bytes)
    (k : Nat) (place : Nat → Nat) : Prop where
  start : place 0 = base
  fragments : ∀ i < k, BmapFragmentAt libs bitmap base bmapBytes m i (place i) (place (i + 1))

section

variable {libs : CompressionLibs} {bitmap m m' : Bytes} {base bmapBytes i k lo hi : Nat}
  {place : Nat → Nat}

theorem BmapFragmentAt.congr (h : BmapFragmentAt libs bitmap base bmapBytes m i lo hi)
    (hdesc : ∀ x, fragmentDescOffset i ≤ x → x < fragmentDescOffset i + 16 → m' x = m x)
    (hbytes : ∀ x, lo ≤ x → x < hi → m' x = m x) :
    BmapFragmentAt libs bitmap base bmapBytes m' i lo hi := by
  have hlt := h.lt
  have hread : FragmentDesc.wire.read m' (fragmentDescOffset i) =
      FragmentDesc.wire.read m (fragmentDescOffset i) :=
    FragmentDesc.wire.read_congr fun x hx => hdesc _ (Nat.le_add_right _ _)
      (Nat.add_lt_add_left hx _)
  have hslice : slice m' lo (hi - lo) = slice m lo (hi - lo) :=
    slice_congr fun x hx => hbytes _ (Nat.le_add_right _ _) (by omega)
  exact
    { lt := hlt
      offset := hread ▸ h.offset
      comprSize := hread ▸ h.comprSize
      decodes := by rw [hread, hslice, h.decodes] }

namespace BmapFragmentsAt

theorem monotone (h : BmapFragmentsAt libs bitmap base bmapBytes m k place) {i j : Nat} (hij : i ≤ j)
    (hj : j ≤ k) : place i ≤ place j :=
  Tiles.place_le (fun i hi => Nat.le_of_lt (h.fragments i hi).lt) hij hj

theorem congr (h : BmapFragmentsAt libs bitmap base bmapBytes m k place)
    (hdescs : ∀ x, fragmentDescOffset 0 ≤ x → x < fragmentDescOffset k → m' x = m x)
    (hbytes : ∀ x, base ≤ x → x < place k → m' x = m x) :
    BmapFragmentsAt libs bitmap base bmapBytes m' k place where
  start := h.start
  fragments i hi := by
    have hlo : base ≤ place i := h.start ▸ h.monotone (Nat.zero_le i) (Nat.le_of_lt hi)
    have hhi := h.monotone (Nat.succ_le_of_lt hi) (Nat.le_refl k)
    refine (h.fragments i hi).congr (fun x hle hlt => hdescs x ?_ ?_) fun x hle hlt =>
      hbytes x (Nat.le_trans hlo hle) (Nat.lt_of_lt_of_le hlt hhi)
    · unfold fragmentDescOffset fragmentDescSize at hle ⊢
      omega
    · unfold fragmentDescOffset fragmentDescSize at hlt ⊢
      omega

theorem snoc (h : BmapFragmentsAt libs bitmap base bmapBytes m k place)
    (hnew : BmapFragmentAt libs bitmap base bmapBytes m k (place k) hi) :
    BmapFragmentsAt libs bitmap base bmapBytes m (k + 1) (Function.update place (k + 1) hi) where
  start := by rw [Function.update_of_ne (Nat.zero_ne_add_one k), h.start]
  fragments i hi := by
    rw [Function.update_of_ne (Nat.ne_of_lt hi)]
    rcases Nat.lt_succ_iff_lt_or_eq.1 hi with hlt | rfl
    · rw [Function.update_of_ne (by omega)]
      exact h.fragments i hlt
    · rw [Function.update_self]
      exact hnew

theorem tiles (h : BmapFragmentsAt libs bitmap base bmapBytes m k place) :
    Tiles {i | i < k} (fragmentPlace m) (Set.Ico base (place k)) := by
  have hplace : ∀ i < k, fragmentPlace m i = Set.Ico (place i) (place (i + 1)) := fun i hi => by
    have hat := h.fragments i hi
    unfold fragmentPlace
    simp only
    rw [hat.offset, hat.comprSize, Nat.add_sub_cancel' (Nat.le_of_lt hat.lt)]
  rw [← h.start]
  exact (Tiles.congr hplace).2 (Tiles.steps fun i hi => Nat.le_of_lt (h.fragments i hi).lt)

end BmapFragmentsAt

/-- Where the bitmap ends among the first `k` fragments. -/
def fragmentsEnd (bmapBytes k : Nat) : Nat := min bmapBytes (k * blkBmapFragmentSize)

theorem fragmentsEnd_succ (bmapBytes k : Nat) :
    fragmentsEnd bmapBytes (k + 1) = fragmentsEnd bmapBytes k + fragmentSizeAt bmapBytes k := by
  unfold fragmentsEnd fragmentSizeAt blkBmapFragmentSize
  omega

theorem readBmapFragment_ok {buf : Buf} (h : BmapFragmentAt libs bitmap base bmapBytes buf.data i lo hi)
    (hdesc : fragmentDescOffset i + 16 ≤ buf.size) (hfit : hi ≤ buf.size) :
    readBmapFragment libs buf i =
      .ok (slice bitmap (base + i * blkBmapFragmentSize) (fragmentSizeAt bmapBytes i)) := by
  have hlt := h.lt
  unfold readBmapFragment
  rw [Buf.get_ok (by rw [FragmentDesc.wire_size]; exact hdesc), Checked.ok_bind, h.offset, h.comprSize,
    Buf.bytes_ok (by omega), Checked.ok_bind, h.decodes]

theorem readBlockBitmap_ok {buf : Buf} {n : Nat} {place : Nat → Nat}
    (h : BmapFragmentsAt libs bitmap base bmapBytes buf.data n place)
    (hcount : (BlockBitmapFragment.wire.read buf.data 16).chainHdr.fragmentsCount.toNat = n)
    (hall : bmapBytes ≤ n * blkBmapFragmentSize) (hdescs : fragmentDescOffset n ≤ buf.size)
    (hfit : place n ≤ buf.size) : readBlockBitmap libs buf = .ok (slice bitmap base bmapBytes) := by
  unfold fragmentDescOffset blkBmapHdrSize blkBmapFragHdrSize fragmentDescSize at hdescs
  have hread : ∀ k ≤ n, Checked.forRange k (fun i bytes => do
      let fragment ← readBmapFragment libs buf i
      .ok (bytes ++ fragment)) [] = (.ok (slice bitmap base (fragmentsEnd bmapBytes k)) : Mkfs _) :=
    fun k hk => by
      induction k with
      | zero => rw [fragmentsEnd, Nat.zero_mul, Nat.min_zero]; rfl
      | succ k ih =>
        have hend := h.monotone hk (Nat.le_refl n)
        have hdesc : fragmentDescOffset k + 16 ≤ buf.size := by
          unfold fragmentDescOffset blkBmapHdrSize blkBmapFragHdrSize fragmentDescSize
          omega
        rw [Checked.forRange, ih (Nat.le_of_succ_le hk), Checked.ok_bind,
          readBmapFragment_ok (h.fragments k hk) hdesc (Nat.le_trans hend hfit), Checked.ok_bind,
          fragmentsEnd_succ, slice_add]
        have hstart : fragmentSizeAt bmapBytes k = 0 ∨
            fragmentsEnd bmapBytes k = k * blkBmapFragmentSize := by
          unfold fragmentSizeAt fragmentsEnd
          omega
        rcases hstart with hzero | hfull
        · rw [hzero]
          rfl
        · rw [hfull]
  unfold readBlockBitmap
  rw [Buf.get_ok (by rw [BlockBitmapFragment.wire_size, blkBmapHdrSize]; omega), Checked.ok_bind,
    blkBmapHdrSize, hcount, hread n (Nat.le_refl n), fragmentsEnd, Nat.min_eq_left hall]

end

end Ssdfs
