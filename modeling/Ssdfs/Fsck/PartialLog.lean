import Ssdfs.Fsck.FoundLog

namespace Ssdfs

open Memory

section

variable (read : Nat → Nat → Search Bytes)

/-- `ssdfs_read_log_footer`, and `ssdfs_read_partial_log_footer`, into a structure of the size of a
footer: as many bytes as the descriptor says. -/
def readLogFooter (pebId pebSize areaOffset size : Nat) (footer : Bytes) : Search Bytes := do
  let bytes ← read (Word.u64 (Word.u64 (pebId * pebSize) + areaOffset)) size
  if size > logHeaderSize then .error .stray else .ok (blit footer 0 bytes 0 size)

def readPartialLogHeader (pebId pebSize logOffset : Nat) : Search Bytes :=
  read (Word.u64 (Word.u64 (pebId * pebSize) + logOffset)) logHeaderSize

def readFullLogFooter (eraseSize : Nat) (plHdr footer : Bytes) (log : FoundLog) :
    Search (Bytes × Nat) := do
  let areaOffset := SegHdr.footerOffset log.header
  let areaSize := SegHdr.footerSize log.header
  let segFlags := SegHdr.segFlags log.header
  if segFlags.testBit plhInsteadFooterBit then do
    let plHdr ← readLogFooter read log.pebId eraseSize areaOffset areaSize plHdr
    .ok (plHdr, PlHdr.logBytes plHdr)
  else if segFlags.testBit logHasFooterBit then do
    let footer ← readLogFooter read log.pebId eraseSize areaOffset areaSize footer
    .ok (footer, LogFooter.logBytes footer)
  else Search.failure

def readPartialLogFooter (eraseSize : Nat) (log : FoundLog) : Search FoundLog :=
  if (PlHdr.plFlags log.header).testBit logHasFooterBit then
    match readLogFooter read log.pebId eraseSize (PlHdr.footerOffset log.header)
      (PlHdr.footerSize log.header) log.footer with
    | .ok footer => .ok { log with footer }
    | .error (.code _) => .ok log
    | .error e => .error e
  else .ok log

def partialLogRound (eraseSize pageSize upperPage : Nat) (st : Nat × FoundLog) :
    Search (Round (Nat × FoundLog) FoundLog) := do
  let (curPage, log) := st
  let plHdr ← readPartialLogHeader read log.pebId eraseSize (Word.u32 (curPage * pageSize))
  if ¬isSsdfsPartialLogHeader plHdr then .ok (.leave log)
  else do
    let log ← readPartialLogFooter read eraseSize { log with startPage := curPage, header := plHdr }
    let logPages := PlHdr.logBytes plHdr / pageSize
    let curPage := Word.u32 (curPage + if logPages = 0 then 1 else logPages)
    if curPage < upperPage then .ok (.again (curPage, log)) else .ok (.leave log)

def findLastPartialLog (fuel eraseSize : Nat) (plHdr footer : Bytes) (log : FoundLog) :
    Search FoundLog := do
  if ¬isSsdfsSegmentHeader log.header then Search.failure
  else do
    let pageSize ← Checked.shiftOne SearchResult (SegHdr.logPagesize log.header)
    Search.bugOn (pageSize = 0)
    Search.bugOn (eraseSize / pageSize = 0)
    let fullLogPages := SegHdr.logPages log.header
    Search.bugOn (fullLogPages = 0 ∨ fullLogPages ≥ Word.u16Max)
    let (footer, logBytes) ← readFullLogFooter read eraseSize plHdr footer log
    if logBytes / pageSize ≥ fullLogPages then .ok { log with footer }
    else
      let curPage := Word.u32 (log.startPage + logBytes / pageSize)
      let upperPage := Word.u32 (log.startPage + fullLogPages)
      Checked.loop (partialLogRound read eraseSize pageSize upperPage) fuel (curPage, log)

end

/-- An erase block of a volume whose offsets have 64 bits. -/
structure EraseBlock where
  pebId : Nat
  size : Nat
  bytes : Bytes
  size_lt : size < 4294967296
  place_lt : pebId * size + size < 18446744073709551616

namespace EraseBlock

variable (b : EraseBlock)

/-- The device, as far as the erase block goes: what lies outside of it is not to be read. -/
def read (offset size : Nat) : Search Bytes :=
  if b.pebId * b.size ≤ offset ∧ offset + size ≤ b.pebId * b.size + b.size then
    .ok fun i => b.bytes (offset - b.pebId * b.size + i)
  else .error .stray

def view (offset : Nat) : Bytes := fun i => b.bytes (offset + i)

variable {b}

theorem read_area {offset size : Nat} (hoff : offset < 4294967296) :
    b.read (Word.u64 (Word.u64 (b.pebId * b.size) + offset)) size =
      if offset + size ≤ b.size then .ok (b.view offset) else .error .stray := by
  have hplace := b.place_lt
  have hsize := b.size_lt
  rw [@Word.u64_of_lt (b.pebId * b.size) (by omega)]
  unfold read view
  generalize b.pebId * b.size = base at hplace ⊢
  by_cases hword : base + offset < 18446744073709551616
  · rw [Word.u64_of_lt hword]
    by_cases hfit : offset + size ≤ b.size
    · rw [if_pos ⟨by omega, by omega⟩, if_pos hfit, Nat.add_sub_cancel_left]
    · rw [if_neg (by omega), if_neg hfit]
  · have hwrap : Word.u64 (base + offset) = base + offset - 18446744073709551616 := by
      unfold Word.u64
      omega
    rw [hwrap, if_neg (by omega), if_neg (by omega)]

theorem readLogFooter_eq {areaOffset size : Nat} {footer : Bytes} (hoff : areaOffset < 4294967296) :
    readLogFooter b.read b.pebId b.size areaOffset size footer =
      if areaOffset + size ≤ b.size ∧ size ≤ logHeaderSize then
        .ok (blit footer 0 (b.view areaOffset) 0 size)
      else .error .stray := by
  unfold readLogFooter
  rw [read_area hoff]
  by_cases hfit : areaOffset + size ≤ b.size
  · rw [if_pos hfit, Checked.ok_bind]
    by_cases hsize : size ≤ logHeaderSize
    · rw [if_neg (by omega), if_pos ⟨hfit, hsize⟩]
    · rw [if_pos (by omega), if_neg (by omega)]
  · rw [if_neg hfit, if_neg (by omega)]
    rfl

theorem readPartialLogHeader_eq {logOffset : Nat} (hoff : logOffset < 4294967296) :
    readPartialLogHeader b.read b.pebId b.size logOffset =
      if logOffset + logHeaderSize ≤ b.size then .ok (b.view logOffset) else .error .stray :=
  read_area hoff

end EraseBlock

end Ssdfs
