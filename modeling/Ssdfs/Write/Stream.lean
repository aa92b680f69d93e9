import Ssdfs.Write.Peb

namespace Ssdfs

/-- The content of a PEB up to the buffer's offset is on the device and in the buffer, the rest
of the buffer is blank, and the device has been written page by page from `base` on. -/
structure Held (layout : VolumeLayout) (base : Nat) (content : Nat → UInt8) (w : WriteState)
    (st : PebWriter) : Prop where
  pages : ∃ n, st.flushedBytes = layout.pageSize.bytes * n ∧ st.writes = w.writes ++
    (List.range n).map fun i => (base + layout.pageSize.bytes * i, layout.pageSize.bytes)
  volume : st.volumeOffset = base + st.flushedBytes
  device : ∀ x < st.flushedBytes, st.device (base + x) = content x
  buffer : ∀ i < layout.pageSize.bytes, st.buffer i =
    if i < st.bufferOffset then content (st.flushedBytes + i) else 0xFF
  frame : ∀ x, x < base ∨ base + st.flushedBytes ≤ x → st.device x = w.device x

structure Streaming (layout : VolumeLayout) (base : Nat) (content : Nat → UInt8) (w : WriteState)
    (st : PebWriter) : Prop extends Held layout base content w st where
  lower : st.flushedBytes + st.bufferOffset ≤ st.pebOffset
  upper : st.pebOffset < st.flushedBytes + st.bufferOffset + layout.pageSize.bytes
  room : st.bufferOffset < layout.pageSize.bytes
  gap : ∀ x, st.flushedBytes + st.bufferOffset ≤ x → x < st.pebOffset → content x = 0xFF

section

variable {layout : VolumeLayout} {base : Nat} {content : Nat → UInt8} {w : WriteState}
  {st : PebWriter}

theorem Held.flush (h : Held layout base content w st)
    (hbase : layout.pageSize.bytes ∣ base)
    (hpad : ∀ i, st.bufferOffset ≤ i → i < layout.pageSize.bytes →
      content (st.flushedBytes + i) = 0xFF) :
    flushWriteBuffer layout st.volumeOffset layout.pageSize.bytes st.toWriteState =
        .ok (st.flush layout st.volumeOffset layout.pageSize.bytes) ∧
      Held layout base content w { st with
        toWriteState := st.flush layout st.volumeOffset layout.pageSize.bytes
        volumeOffset := st.volumeOffset + layout.pageSize.bytes
        flushedBytes := st.flushedBytes + layout.pageSize.bytes } := by
  have hpage := layout.pageSize.bytes_ge
  obtain ⟨n, hn, hwrites⟩ := h.pages
  obtain ⟨b, hb⟩ := hbase
  have haligned : st.volumeOffset % layout.pageSize.bytes = 0 := by
    rw [h.volume, hn, hb, ← Nat.mul_add, Nat.mul_mod_right]
  have hbuffer : ∀ i < layout.pageSize.bytes, st.buffer i = content (st.flushedBytes + i) := by
    intro i hi
    rw [h.buffer i hi]
    split
    case isTrue => rfl
    case isFalse hlt => rw [hpad i (by omega) hi]
  refine ⟨?_, ⟨⟨n + 1, ?_, ?_⟩, ?_, ?_, ?_, ?_⟩⟩
  · unfold flushWriteBuffer
    rw [failIf_of_not (by unfold VolumeLayout.writeBufferCapacity; omega), Checked.ok_bind, rem,
      Checked.rem_of_ne (by omega), Checked.ok_bind, failIf_of_not (by omega), Checked.ok_bind]
  · rw [Nat.mul_succ, ← hn]
  · change st.writes ++ [_] = _
    rw [List.range_succ, List.map_append, ← List.append_assoc, ← hwrites, List.map_singleton,
      ← hn, ← h.volume]
  · simp only [h.volume]
    omega
  · intro x hx
    simp only [WriteState.flush] at hx ⊢
    by_cases hlt : x < st.flushedBytes
    · rw [if_neg (by rw [h.volume]; omega)]
      exact h.device x hlt
    · rw [if_pos (by rw [h.volume]; omega), h.volume, hbuffer _ (by omega)]
      congr 1
      omega
  · intro i _
    exact (if_neg (Nat.not_lt_zero i)).symm
  · intro x hx
    simp only [WriteState.flush] at hx ⊢
    rw [if_neg (by rw [h.volume]; omega)]
    exact h.frame x (by omega)

theorem Streaming.offset_mod (h : Streaming layout base content w st) {r k : Nat}
    (hr : r < layout.pageSize.bytes)
    (heq : st.pebOffset = st.flushedBytes + layout.pageSize.bytes * k + r) :
    st.pebOffset % layout.pageSize.bytes = r := by
  obtain ⟨n, hn, -⟩ := h.pages
  rw [heq, hn, ← Nat.mul_add, Nat.mul_add_mod, Nat.mod_eq_of_lt hr]

theorem writeChunk_copy (h : Streaming layout base content w st)
    (hbase : layout.pageSize.bytes ∣ base) {buf : Nat → UInt8} {size : Nat} (hsize : 0 < size)
    (hdata : ∀ j < size, content (st.pebOffset + j) = buf j)
    (hpage : st.pebOffset < st.flushedBytes + layout.pageSize.bytes)
    (hlimit : st.pebOffset + size < 4294967296)
    (hvol : base + st.pebOffset + size < 18446744073709551616) :
    ∃ st' copied, writeChunk layout buf size st = .ok (st', copied) ∧ 0 < copied ∧ copied ≤ size ∧
      Streaming layout base content w st' ∧ st'.pebOffset = st.pebOffset + copied ∧
      st'.flushedBytes + st'.bufferOffset = st'.pebOffset := by
  have hlower := h.lower
  have hmod := h.offset_mod (r := st.pebOffset - st.flushedBytes) (k := 0) (by omega) (by omega)
  have hin : ¬(st.pebOffset - st.flushedBytes < st.bufferOffset ∨
      st.pebOffset - st.flushedBytes ≥ layout.pageSize.bytes) := by omega
  have hheld : Held layout base content w { st with
      buffer := fun i => if st.pebOffset - st.flushedBytes ≤ i ∧ i < st.pebOffset - st.flushedBytes +
        min size (layout.pageSize.bytes - (st.pebOffset - st.flushedBytes)) then
          buf (i - (st.pebOffset - st.flushedBytes)) else st.buffer i
      bufferOffset := st.pebOffset - st.flushedBytes +
        min size (layout.pageSize.bytes - (st.pebOffset - st.flushedBytes)) } := by
    refine ⟨h.pages, h.volume, h.device, fun i hi => ?_, h.frame⟩
    simp only
    split
    case isTrue hin =>
      rw [if_pos hin.2, ← hdata _ (by omega)]
      congr 1
      omega
    case isFalse hout =>
      rw [h.buffer i hi]
      by_cases hlt : i < st.bufferOffset
      · rw [if_pos hlt, if_pos (by omega)]
      · rw [if_neg hlt]
        split
        case isTrue => exact (h.gap _ (by omega) (by omega)).symm
        case isFalse => rfl
  have hsum := Nat.min_le_left size (layout.pageSize.bytes - (st.pebOffset - st.flushedBytes))
  have hpos : 0 < min size (layout.pageSize.bytes - (st.pebOffset - st.flushedBytes)) := by omega
  have hroom : st.pebOffset - st.flushedBytes +
      min size (layout.pageSize.bytes - (st.pebOffset - st.flushedBytes)) ≤
        layout.pageSize.bytes := by omega
  have hfull : min size (layout.pageSize.bytes - (st.pebOffset - st.flushedBytes)) ≠ size →
      st.pebOffset - st.flushedBytes +
        min size (layout.pageSize.bytes - (st.pebOffset - st.flushedBytes)) =
          layout.pageSize.bytes := by omega
  unfold writeChunk prepareWriteBuffer VolumeLayout.writeBufferCapacity
  simp only [hmod, if_neg hin]
  generalize min size (layout.pageSize.bytes - (st.pebOffset - st.flushedBytes)) = copied at *
  simp only [decide_eq_true_eq]
  by_cases hend : st.pebOffset - st.flushedBytes + copied = layout.pageSize.bytes
  · obtain ⟨hflush, hheld'⟩ := hheld.flush hbase fun i hlo hhi => by
      simp only at hlo
      omega
    simp only at hflush
    have hpages : st.flushedBytes + layout.pageSize.bytes = st.pebOffset + copied := by omega
    rw [if_pos (.inr hend), hflush, Checked.ok_bind, Checked.ok_bind, failIf_of_not (by omega),
      Checked.ok_bind]
    simp only
    rw [Word.u32_of_lt (by omega), Word.u32_of_lt (by omega), Word.u64_of_lt
      (by rw [h.volume]; omega)]
    refine ⟨_, copied, rfl, hpos, hsum, ⟨⟨hheld'.pages, hheld'.volume, hheld'.device,
      hheld'.buffer, hheld'.frame⟩, ?_, ?_, ?_, ?_⟩, rfl, ?_⟩ <;> simp only [WriteState.flush]
    · omega
    · omega
    · omega
    · intro x hlo hhi
      omega
    · omega
  · rw [if_neg (by omega), Checked.ok_bind, failIf_of_not (by omega), Checked.ok_bind,
      Word.u32_of_lt (by simp only; omega)]
    refine ⟨_, copied, rfl, hpos, hsum, ⟨⟨hheld.pages, hheld.volume, hheld.device, hheld.buffer,
      hheld.frame⟩, ?_, ?_, ?_, ?_⟩, rfl, ?_⟩ <;> simp only
    · omega
    · omega
    · omega
    · intro x hlo hhi
      omega
    · omega

theorem writeChunk_skip (buf : Nat → UInt8) (size : Nat) (h : Streaming layout base content w st)
    (hbase : layout.pageSize.bytes ∣ base)
    (hpage : st.flushedBytes + layout.pageSize.bytes ≤ st.pebOffset)
    (hlimit : st.pebOffset < 4294967296) (hvol : base + st.pebOffset < 18446744073709551616) :
    ∃ st', writeChunk layout buf size st = .ok (st', 0) ∧ Streaming layout base content w st' ∧
      st'.pebOffset = st.pebOffset ∧ st'.pebOffset < st'.flushedBytes + layout.pageSize.bytes := by
  have hlower := h.lower
  have hupper := h.upper
  have hroom := h.room
  have hmod := h.offset_mod (r := st.pebOffset - st.flushedBytes - layout.pageSize.bytes) (k := 1)
    (by omega) (by omega)
  obtain ⟨hflush, hheld⟩ := h.toHeld.flush hbase fun i hlo hhi => h.gap _ (by omega) (by omega)
  unfold writeChunk prepareWriteBuffer VolumeLayout.writeBufferCapacity
  simp only [hmod, if_pos (Or.inl (show st.pebOffset - st.flushedBytes - layout.pageSize.bytes <
    st.bufferOffset by omega)), if_true, hflush, Checked.ok_bind]
  rw [failIf_of_not (by omega), Checked.ok_bind, Word.u32_of_lt (by omega),
    Word.u32_of_lt (by omega), Word.u64_of_lt (by rw [h.volume]; omega)]
  refine ⟨_, rfl, ⟨⟨hheld.pages, hheld.volume, hheld.device, hheld.buffer, hheld.frame⟩,
    ?_, ?_, ?_, ?_⟩, rfl, ?_⟩ <;> simp only [WriteState.flush]
  · omega
  · omega
  · omega
  · exact fun x hlo hhi => h.gap x (by omega) (by omega)
  · omega

theorem writeExtent_ok {fuel : Nat} {buf : Nat → UInt8} {size : Nat}
    (hbase : layout.pageSize.bytes ∣ base) (h : Streaming layout base content w st)
    (hdata : ∀ j < size, content (st.pebOffset + j) = buf j)
    (hlimit : st.pebOffset + size < 4294967296)
    (hvol : base + st.pebOffset + size < 18446744073709551616)
    (hfuel : size < fuel ∨
      size = fuel ∧ st.pebOffset < st.flushedBytes + layout.pageSize.bytes) (hsize : 0 < size) :
    ∃ st', writeExtent layout fuel buf size st = .ok st' ∧ Streaming layout base content w st' ∧
      st'.pebOffset = st.pebOffset + size ∧ st'.flushedBytes + st'.bufferOffset = st'.pebOffset := by
  induction fuel generalizing buf size st with
  | zero => omega
  | succ fuel ih =>
    unfold writeExtent
    rw [if_pos hsize]
    by_cases hpage : st.pebOffset < st.flushedBytes + layout.pageSize.bytes
    · obtain ⟨st', copied, hchunk, hpos, hle, hst', hoff, htight⟩ :=
        writeChunk_copy h hbase hsize hdata hpage hlimit hvol
      have hroom := hst'.room
      rw [hchunk, Checked.ok_bind]
      simp only
      rcases Nat.eq_or_lt_of_le hle with rfl | hlt
      · rw [Nat.sub_self]
        refine ⟨st', ?_, hst', hoff, htight⟩
        cases fuel <;> rfl
      · have hdata' : ∀ j < size - copied, content (st'.pebOffset + j) = buf (copied + j) := by
          intro j hj
          rw [hoff, Nat.add_assoc]
          exact hdata _ (by omega)
        obtain ⟨st'', hrun, hst'', hoff', htight'⟩ := ih hst' hdata' (by omega) (by omega)
          (by omega) (Nat.sub_pos_of_lt hlt)
        exact ⟨st'', hrun, hst'', by omega, htight'⟩
    · obtain ⟨st', hchunk, hst', hoff, hpage'⟩ := writeChunk_skip buf size h hbase
        (Nat.not_lt.1 hpage) (by omega) (by omega)
      rw [hchunk, Checked.ok_bind]
      simp only [Nat.zero_add, Nat.sub_zero]
      obtain ⟨st'', hrun, hst'', hoff', htight'⟩ := ih hst' (fun j hj => hoff ▸ hdata j hj)
        (by omega) (by omega) (by omega) hsize
      exact ⟨st'', hrun, hst'', by omega, htight'⟩

end

end Ssdfs
