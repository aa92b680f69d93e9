import Ssdfs.Lib.Crc
import Ssdfs.MaptblCache.Log

namespace Ssdfs

open Memory

structure MetadataCheckRecord where
  bytes : UInt16
  flags : UInt16
  csum : UInt32
  deriving DecidableEq

def MetadataCheckRecord.wire : Wire MetadataCheckRecord :=
  (Wire.u16.pair <| Wire.u16.pair Wire.u32).iso (fun (a, b, c) => ⟨a, b, c⟩)
    (fun r => (r.bytes, r.flags, r.csum)) fun _ => rfl

structure MetadataDescriptorRecord where
  offset : UInt32
  size : UInt32
  check : MetadataCheckRecord
  deriving DecidableEq

def MetadataDescriptorRecord.wire : Wire MetadataDescriptorRecord :=
  (Wire.u32.pair <| Wire.u32.pair MetadataCheckRecord.wire).iso (fun (a, b, c) => ⟨a, b, c⟩)
    (fun r => (r.offset, r.size, r.check)) fun _ => rfl

@[simp] theorem MetadataCheckRecord.wire_size : MetadataCheckRecord.wire.size = 8 := rfl
@[simp] theorem MetadataDescriptorRecord.wire_size : MetadataDescriptorRecord.wire.size = 16 := rfl

def MetadataCheck.record (check : MetadataCheck) : MetadataCheckRecord :=
  ⟨UInt16.ofNat check.bytes, UInt16.ofNat check.flags, check.csum⟩

def MetadataCheckRecord.check (r : MetadataCheckRecord) : MetadataCheck :=
  ⟨r.bytes.toNat, r.flags.toNat, r.csum⟩

def MetadataDescriptor.record (desc : MetadataDescriptor) : MetadataDescriptorRecord :=
  ⟨UInt32.ofNat desc.offset, UInt32.ofNat desc.size, desc.check.record⟩

section

variable (crc32 : UInt32 → List UInt8 → UInt32)

def ssdfsCrc32Le (data : List UInt8) : UInt32 := ~~~crc32 0 data

/-- A record with the checksum of its check, which lies at `off`, left out. -/
def clearCsum (buf : Bytes) (off : Nat) : Bytes := Wire.u32.write buf (off + 4) 0

/-- The checksum for the check that lies at `off` in the record. -/
def ssdfsCalculateCsum (buf : Bytes) (off bufSize : Nat) : Mkfs UInt32 := do
  let check := MetadataCheckRecord.wire.read buf off
  failIf (check.bytes.toNat > bufSize) .einval
  failIf (check.flags.toNat % 2 = 0) .einval
  .ok (ssdfsCrc32Le crc32 (slice (clearCsum buf off) 0 check.bytes.toNat))

def isCsumValid (buf : Bytes) (off bufSize : Nat) : Bool :=
  match ssdfsCalculateCsum crc32 buf off bufSize with
  | .ok csum => csum = (MetadataCheckRecord.wire.read buf off).csum
  | .error _ => false

/-- Fills in the check at `off` for the first `len` bytes of the record. -/
def sealRecord (buf : Bytes) (off len : Nat) : Bytes :=
  let buf := MetadataCheckRecord.wire.write buf off ⟨UInt16.ofNat len, 1, 0⟩
  Wire.u32.write buf (off + 4) (ssdfsCrc32Le crc32 (slice buf 0 len))

end

section

variable {crc32 : UInt32 → List UInt8 → UInt32} {buf : Bytes} {off len : Nat}

@[simp] theorem write_check (buf : Bytes) (off : Nat) (check : MetadataCheckRecord) :
    MetadataCheckRecord.wire.write buf off check = Wire.u32.write
      (Wire.u16.write (Wire.u16.write buf off check.bytes) (off + 2) check.flags) (off + 4)
      check.csum := rfl

theorem sealRecord_eq (buf : Bytes) (off len : Nat) : sealRecord crc32 buf off len =
    MetadataCheckRecord.wire.write buf off ⟨UInt16.ofNat len, 1, ssdfsCrc32Le crc32
      (slice (MetadataCheckRecord.wire.write buf off ⟨UInt16.ofNat len, 1, 0⟩) 0 len)⟩ := by
  unfold sealRecord
  simp only [write_check]
  exact poke_poke ..

theorem check_sealRecord (buf : Bytes) (off len : Nat) :
    MetadataCheckRecord.wire.read (sealRecord crc32 buf off len) off =
      ⟨UInt16.ofNat len, 1, ssdfsCrc32Le crc32
        (slice (MetadataCheckRecord.wire.write buf off ⟨UInt16.ofNat len, 1, 0⟩) 0 len)⟩ := by
  rw [sealRecord_eq]
  exact MetadataCheckRecord.wire.read_write ..

theorem clearCsum_sealRecord (buf : Bytes) (off len : Nat) :
    clearCsum (sealRecord crc32 buf off len) off =
      MetadataCheckRecord.wire.write buf off ⟨UInt16.ofNat len, 1, 0⟩ := by
  rw [sealRecord_eq, write_check, write_check]
  exact poke_poke ..

theorem sealRecord_frame {i : Nat} (h : i < off ∨ off + 8 ≤ i) :
    sealRecord crc32 buf off len i = buf i := by
  rw [sealRecord_eq]
  exact MetadataCheckRecord.wire.write_frame h

theorem read_sealRecord {α : Type} (w : Wire α) {at_ : Nat}
    (h : at_ + w.size ≤ off ∨ off + 8 ≤ at_) :
    w.read (sealRecord crc32 buf off len) at_ = w.read buf at_ :=
  w.read_congr fun i hi => sealRecord_frame (by omega)

theorem isCsumValid_sealRecord {bufSize : Nat} (hlen : len < 65536) (h : len ≤ bufSize) :
    isCsumValid crc32 (sealRecord crc32 buf off len) off bufSize = true := by
  have hbytes : (UInt16.ofNat len).toNat = len := UInt16.toNat_ofNat_of_lt' hlen
  unfold isCsumValid ssdfsCalculateCsum
  simp only [check_sealRecord, clearCsum_sealRecord, hbytes]
  rw [failIf_of_not (Nat.not_lt.2 h), Checked.ok_bind, failIf_of_not (by decide), Checked.ok_bind]
  exact decide_eq_true rfl

end

end Ssdfs
