import Ssdfs.Lib.Checked
import Ssdfs.Lib.Word

/-! The volume layout that the phases of `mkfs.ssdfs` pass along, and the constants
of the on-disk format that they rely on. -/

namespace Ssdfs

inductive Errno
  | einval
  | erange
  | e2big
  | enodata
  | enomem
  | eio
  | eexist
  | eopnotsupp
  | enoent
  | efault
  deriving Repr, DecidableEq

inductive Compression
  | uncompressed
  | zlib
  | lzo
  | lz4
  | zstd
  | unknown
  deriving Repr, DecidableEq

abbrev Mkfs (α : Type) := Checked Errno α

def bugOn (c : Prop) [Decidable c] : Mkfs Unit := Checked.bugOn Errno c
def quot (a b : Nat) : Mkfs Nat := Checked.quot Errno a b
def rem (a b : Nat) : Mkfs Nat := Checked.rem Errno a b
def fail {α : Type} (e : Errno) : Mkfs α := .error (.code e)
def failIf (c : Prop) [Decidable c] (e : Errno) : Mkfs Unit := if c then fail e else .ok ()

section

variable {α : Type}

theorem bugOn_bind_eq_ok {c : Prop} [Decidable c] {f : Unit → Mkfs α} {b : α} :
    bugOn c >>= f = .ok b ↔ ¬c ∧ f () = .ok b := Checked.bugOn_bind_eq_ok

theorem bugOn_eq_ok {c : Prop} [Decidable c] {x : Unit} : bugOn c = .ok x ↔ ¬c :=
  Checked.bugOn_eq_ok

theorem quot_bind_eq_ok {m n : Nat} {f : Nat → Mkfs α} {b : α} :
    quot m n >>= f = .ok b ↔ n ≠ 0 ∧ f (m / n) = .ok b := by
  by_cases h : n = 0 <;> simp [quot, Checked.quot, h]

theorem rem_bind_eq_ok {m n : Nat} {f : Nat → Mkfs α} {b : α} :
    rem m n >>= f = .ok b ↔ n ≠ 0 ∧ f (m % n) = .ok b := by
  by_cases h : n = 0 <;> simp [rem, Checked.rem, h]

theorem failIf_bind_eq_ok {c : Prop} [Decidable c] {e : Errno} {f : Unit → Mkfs α} {b : α} :
    failIf c e >>= f = .ok b ↔ ¬c ∧ f () = .ok b := by
  by_cases h : c <;> simp [failIf, fail, h]

theorem bugOn_of_not {c : Prop} [Decidable c] (h : ¬c) : bugOn c = .ok () :=
  Checked.bugOn_of_not h

theorem failIf_of_not {c : Prop} [Decidable c] {e : Errno} (h : ¬c) : failIf c e = .ok () :=
  if_neg h

@[simp] theorem fail_ne_ok (e : Errno) (a : α) : (fail e : Mkfs α) ≠ .ok a := by
  simp [fail]

end

def pageCacheSize : Nat := 4096

def lebTableFragmentHeaderSize : Nat := 32
def lebDescriptorSize : Nat := 4
def pebTableFragmentHeaderSize : Nat := 288
def pebDescriptorSize : Nat := 8

def lebDescPerFragment (fragmentSize : Nat) : Nat :=
  (fragmentSize - lebTableFragmentHeaderSize) / lebDescriptorSize

def pebDescPerFragment (fragmentSize : Nat) : Nat :=
  (fragmentSize - pebTableFragmentHeaderSize) / pebDescriptorSize

@[simp] theorem lebDescPerFragment_page : lebDescPerFragment pageCacheSize = 1016 := rfl
@[simp] theorem pebDescPerFragment_page : pebDescPerFragment pageCacheSize = 476 := rfl

/-- The page sizes that the options accept. -/
inductive PageSize
  | kib4
  | kib8
  | kib16
  | kib32
  deriving Repr, DecidableEq

def PageSize.bytes : PageSize → Nat
  | .kib4 => 4096
  | .kib8 => 8192
  | .kib16 => 16384
  | .kib32 => 32768

theorem PageSize.bytes_ge (p : PageSize) : 4096 ≤ p.bytes := by
  cases p <;> decide

theorem PageSize.bytes_le (p : PageSize) : p.bytes ≤ 32768 := by
  cases p <;> decide

theorem PageSize.page_dvd_bytes (p : PageSize) : 4096 ∣ p.bytes := by
  cases p <;> decide

inductive DeviceType
  | mtd
  | blk
  | zns
  | max
  deriving Repr, DecidableEq

inductive MetaIndex
  | initialSnapshot
  | superblock
  | segbmap
  | pebMappingTable
  | userData
  deriving Repr, DecidableEq

def MetaIndex.all : List MetaIndex :=
  [.initialSnapshot, .superblock, .segbmap, .pebMappingTable, .userData]

inductive SegType
  | unknown
  | sb
  | initialSnapshot
  | segbmap
  | maptbl
  | leafNode
  | hybridNode
  | indexNode
  | userData
  deriving Repr, DecidableEq

def meta2segType : MetaIndex → SegType
  | .initialSnapshot => .initialSnapshot
  | .superblock => .sb
  | .segbmap => .segbmap
  | .pebMappingTable => .maptbl
  | .userData => .unknown

inductive ExtentIndex
  | segHeader
  | blockBitmap
  | offsetTable
  | blockDescriptors
  | maptblCache
  | logPayload
  | logFooter
  | blockBitmapBackup
  | offsetTableBackup
  deriving Repr, DecidableEq

def ExtentIndex.all : List ExtentIndex :=
  [.segHeader, .blockBitmap, .offsetTable, .blockDescriptors, .maptblCache, .logPayload,
    .logFooter, .blockBitmapBackup, .offsetTableBackup]

@[simp] theorem ExtentIndex.mem_all (i : ExtentIndex) : i ∈ ExtentIndex.all := by
  cases i <;> decide

/-- `buf` is the memory behind the extent's pointer, byte by byte. -/
structure ExtentDesc where
  buf : Option (Nat → UInt8)
  offset : UInt32
  bytesCount : UInt32

structure PebContent where
  lebId : Nat
  pebId : Nat
  extents : ExtentIndex → ExtentDesc

inductive SegState
  | dedicated
  | shared
  | max
  deriving Repr, DecidableEq

/-- `segType` is `none` until the segment is reserved for a metadata structure. -/
structure SegmentDesc where
  segType : Option MetaIndex
  segState : SegState
  segId : Nat
  pebs : Nat → PebContent
  pebsCount : Nat
  pebsCapacity : Nat

structure MetadataDesc where
  startSegIndex : Nat
  segsCount : Nat
  segState : SegState

structure SegbmapLayout where
  hasBackupCopy : Bool
  pebsPerSeg : Nat
  deriving Repr, DecidableEq

structure MaptblLayout where
  hasBackupCopy : Bool
  stripesPerPortion : Nat
  portionsPerFragment : Nat
  reservedPebsPerFragment : Nat
  maptblPebs : Nat
  lebtblPortionBytes : Nat
  lebtblPortionMempages : Nat
  pebtblPortionBytes : Nat
  pebtblPortionMempages : Nat
  lebsPerPortion : Nat
  pebsPerPortion : Nat
  portionsCount : Nat
  portionSize : Nat
  deriving Repr, DecidableEq

structure Environment where
  fsSize : UInt64
  eraseSize : UInt32
  deviceType : DeviceType
  deriving Repr, DecidableEq

/-- What the options and the allocation policies settle about the volume. -/
structure VolumeLayout where
  needEraseDevice : Bool
  segSize : UInt64
  pageSize : PageSize
  nandDiesCount : UInt32
  lebsPerPebIndex : UInt32
  segbmap : SegbmapLayout
  maptbl : MaptblLayout
  env : Environment
  deriving Repr, DecidableEq

namespace VolumeLayout

def pebsPerVolume (layout : VolumeLayout) : Nat :=
  layout.env.fsSize.toNat / layout.env.eraseSize.toNat

def pebsPerSeg (layout : VolumeLayout) : Nat :=
  Word.u32 (layout.segSize.toNat / layout.env.eraseSize.toNat)

def pagesPerPeb (layout : VolumeLayout) : Nat :=
  layout.env.eraseSize.toNat / layout.pageSize.bytes

theorem pebsPerVolume_lt (layout : VolumeLayout) :
    layout.pebsPerVolume < 18446744073709551616 :=
  Nat.lt_of_le_of_lt (Nat.div_le_self _ _) layout.env.fsSize.toNat_lt

theorem pebsPerSeg_lt (layout : VolumeLayout) : layout.pebsPerSeg < 4294967296 :=
  Word.u32_lt _

end VolumeLayout

/-- The segments of the volume under construction and the metadata they belong to. -/
structure SegsArray where
  metaArray : MetaIndex → MetadataDesc
  segs : Nat → SegmentDesc
  segsCapacity : Nat
  segsCount : Nat
  lastAllocatedSegIndex : Int

def SegsArray.setSeg (a : SegsArray) (i : Nat) (seg : SegmentDesc) : SegsArray :=
  { a with segs := Function.update a.segs i seg }

def SegsArray.setMeta (a : SegsArray) (i : MetaIndex) (desc : MetadataDesc) : SegsArray :=
  { a with metaArray := Function.update a.metaArray i desc }

def reserveSegments (metaIndex : MetaIndex) (a : SegsArray) : Mkfs SegsArray :=
  let index := a.lastAllocatedSegIndex + 1
  let desc := a.metaArray metaIndex
  if desc.segsCount = 0 then .ok a
  else if index ≥ a.segsCapacity then fail .erange
  else
    let start := index.toNat
    let a := a.setMeta metaIndex { desc with startSegIndex := start }
    Checked.forRange desc.segsCount (fun i a =>
      .ok { a.setSeg (start + i) { a.segs (start + i) with
              segType := some metaIndex, segState := desc.segState } with
            lastAllocatedSegIndex := a.lastAllocatedSegIndex + 1 }) a

end Ssdfs
