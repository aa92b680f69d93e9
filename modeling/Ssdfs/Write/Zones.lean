import Ssdfs.Log.Define
import Ssdfs.Write.Segments

namespace Ssdfs

structure ZoneRange where
  sector : Nat
  nrSectors : Nat
  deriving Repr, DecidableEq

inductive ZoneRequest
  | openZone (range : ZoneRange)
  | finishZone (range : ZoneRange)
  deriving Repr, DecidableEq

def zoneRange (layout : VolumeLayout) (zone : Nat) : ZoneRange where
  sector := zone * layout.env.eraseSize.toNat / 512
  nrSectors := layout.env.eraseSize.toNat / 512

def znsWrite (layout : VolumeLayout) (write : Nat × Nat) (requests : List ZoneRequest) :
    Mkfs (List ZoneRequest) :=
  let erasesize := layout.env.eraseSize.toNat
  let zoneStart := write.1 / erasesize * erasesize
  let requests :=
    if zoneStart = write.1 ∨ write.1 = reservedVbrSize then
      requests ++ [.openZone ⟨zoneStart / 512, erasesize / 512⟩]
    else requests
  if zoneStart + erasesize < write.1 + write.2 then fail .erange else .ok requests

/-- A PEB whose zone is not to be closed gets no request. -/
def znsCheckPeb (layout : VolumeLayout) (offset : Nat) (needCloseZone : Bool)
    (requests : List ZoneRequest) : List ZoneRequest :=
  if needCloseZone then
    requests ++ [.finishZone ⟨offset / 512, (layout.env.eraseSize.toNat + 512 - 1) / 512⟩]
  else requests

section

variable (layout : VolumeLayout) (fuel : Nat) (a : SegsArray)

def writePebOnZones (segIndex pebIndex : Nat) (st : WriteState × List ZoneRequest) :
    Mkfs (WriteState × List ZoneRequest) := do
  let (w, requests) := st
  let w' ← writePeb layout fuel (fun _ => .ok ()) a segIndex pebIndex w
  let requests ← Checked.forEach (znsWrite layout) (w'.writes.drop w.writes.length) requests
  let needCloseZone := decide ((a.segs segIndex).segType = some .initialSnapshot)
  let volumeOffset := Word.u64 ((a.content (segIndex, pebIndex)).pebId * layout.env.eraseSize.toNat)
  .ok (w', znsCheckPeb layout volumeOffset needCloseZone requests)

def writeSegmentsOnZones (st : WriteState × List ZoneRequest) : Mkfs (WriteState × List ZoneRequest) :=
  Checked.forRange a.segsCount (fun i =>
    Checked.forRange (a.segs i).pebsCount (writePebOnZones layout fuel a i)) st

end

def WriteState.Flushed (layout : VolumeLayout) (w w' : WriteState) : Prop :=
  ∃ writes, w'.writes = w.writes ++ writes ∧
    w'.openZones = writes.foldl (fun n r => writeOpenZones layout r.1 n) w.openZones

section Flushed

variable {layout : VolumeLayout} {fuel size offset : Nat} {buf : Nat → UInt8} {w w' w'' : WriteState}
  {st st' : PebWriter} {peb : PebContent}

namespace WriteState.Flushed

theorem refl : Flushed layout w w := ⟨[], (List.append_nil _).symm, rfl⟩

theorem trans (h : Flushed layout w w') (h' : Flushed layout w' w'') : Flushed layout w w'' := by
  obtain ⟨writes, hwrites, hzones⟩ := h
  obtain ⟨writes', hwrites', hzones'⟩ := h'
  refine ⟨writes ++ writes', ?_, ?_⟩
  · rw [hwrites', hwrites, List.append_assoc]
  · rw [hzones', hzones, List.foldl_append]

end WriteState.Flushed

theorem flushWriteBuffer_flushed (h : flushWriteBuffer layout offset size w = .ok w') :
    w.Flushed layout w' := by
  obtain ⟨-, h⟩ := failIf_bind_eq_ok.1 h
  obtain ⟨-, h⟩ := rem_bind_eq_ok.1 h
  obtain ⟨-, h⟩ := failIf_bind_eq_ok.1 h
  cases h
  exact ⟨[(offset, size)], rfl, rfl⟩

theorem prepareWriteBuffer_flushed : w.Flushed layout
    (prepareWriteBuffer layout offset buf size w).1 := by
  unfold prepareWriteBuffer
  split
  · exact .refl
  · exact ⟨[], (List.append_nil _).symm, rfl⟩

theorem writeChunk_flushed {copied : Nat} (h : writeChunk layout buf size st = .ok (st', copied)) :
    st.Flushed layout st'.toWriteState := by
  have hcopy : st.Flushed layout (prepareWriteBuffer layout
      (st.pebOffset % layout.writeBufferCapacity) buf size st.toWriteState).1 :=
    prepareWriteBuffer_flushed
  unfold writeChunk at h
  simp only at h
  generalize prepareWriteBuffer layout (st.pebOffset % layout.writeBufferCapacity) buf size
    st.toWriteState = r at *
  split at h
  · obtain ⟨v, hv, h⟩ := Checked.bind_eq_ok.1 h
    obtain ⟨-, h⟩ := failIf_bind_eq_ok.1 h
    cases h
    exact hcopy.trans (flushWriteBuffer_flushed hv)
  · obtain ⟨-, h⟩ := failIf_bind_eq_ok.1 h
    cases h
    exact hcopy

theorem writeExtent_flushed (h : writeExtent layout fuel buf size st = .ok st') :
    st.Flushed layout st'.toWriteState := by
  induction fuel generalizing buf size st with
  | zero =>
    unfold writeExtent at h
    split at h
    · cases h
    · cases h
      exact .refl
  | succ fuel ih =>
    unfold writeExtent at h
    split at h
    · obtain ⟨⟨t, copied⟩, ht, h⟩ := Checked.bind_eq_ok.1 h
      exact (writeChunk_flushed ht).trans (ih h)
    · cases h
      exact .refl

theorem writeItem_flushed {i : ExtentIndex} (h : writeItem layout fuel peb i st = .ok st') :
    st.Flushed layout st'.toWriteState := by
  unfold writeItem at h
  simp only at h
  split at h
  · cases h
    exact .refl
  · obtain ⟨-, h⟩ := failIf_bind_eq_ok.1 h
    exact @writeExtent_flushed _ _ _ _ { st with pebOffset := (peb.extents i).offset.toNat } _ h

theorem writeContent_flushed (h : writeContent layout fuel peb w = .ok w') : w.Flushed layout w' := by
  obtain ⟨st, hst, h⟩ := Checked.bind_eq_ok.1 h
  have hitems : w.Flushed layout st.toWriteState :=
    Checked.forEach_inv (fun t => w.Flushed layout t.toWriteState) hst
      ⟨[], (List.append_nil _).symm, rfl⟩ fun i t t' ht hstep => ht.trans (writeItem_flushed hstep)
  simp only at h
  split at h
  · exact hitems.trans (flushWriteBuffer_flushed h)
  · cases h
    exact hitems

end Flushed

end Ssdfs
