import Ssdfs.Layout
import Ssdfs.Lib.Wire

namespace Ssdfs

open Memory

inductive PebCheck
  | erasureOk
  | isBad
  | recovering
  deriving Repr, DecidableEq

namespace PebTblHdr

def flagsOffset : Nat := 0x2
def startPebOffset : Nat := 0x8
def pebsCountOffset : Nat := 0x10
def bmapsOffset : Nat := 0x20

def bmapSize : Nat := pageCacheSize / pebDescriptorSize / 8

def usedBmap : Nat := 0
def recoverBmap : Nat := 2
def badblkBmap : Nat := 3

def underRecovering : UInt8 := 0x4
def badblkExist : UInt8 := 0x8

end PebTblHdr

def pebStateOffset : Nat := 5
def maptblBadPebState : UInt8 := 0x1
def maptblRecoveringState : UInt8 := 0x13

/-- One check: what the device is asked for, and the places of the header, of the descriptor and of
the bit that take the answer. -/
structure PebVisit where
  offset : Nat
  hdr : Nat
  desc : Nat
  bit : Nat
  deriving Repr, DecidableEq

structure PebChecks where
  buf : Buf
  visits : List PebVisit

/-- A bit in an array of 64-bit words. -/
def setBit (addr nr : Nat) (buf : Buf) : Mkfs Buf := do
  let p := addr + 8 * (nr / 64)
  let word ← buf.get Errno Wire.u64 p
  buf.put Errno Wire.u64 p (word ||| 1 <<< UInt64.ofNat (nr % 64))

def markPeb (hdr bmap bit : Nat) (flag : UInt8) (buf : Buf) : Mkfs Buf := do
  let flags ← buf.get Errno Wire.u8 (hdr + PebTblHdr.flagsOffset)
  let buf ← buf.put Errno Wire.u8 (hdr + PebTblHdr.flagsOffset) (flags ||| flag)
  let bmaps := hdr + PebTblHdr.bmapsOffset
  let buf ← setBit (bmaps + PebTblHdr.usedBmap * PebTblHdr.bmapSize) bit buf
  setBit (bmaps + bmap * PebTblHdr.bmapSize) bit buf

def recordPeb (visit : PebVisit) (res : PebCheck) (buf : Buf) : Mkfs Buf :=
  match res with
  | .erasureOk => buf.put Errno Wire.u32 visit.desc 1
  | .isBad => do
    let buf ← buf.put Errno Wire.u32 visit.desc 0xFFFFFFFF
    let buf ← buf.put Errno Wire.u8 (visit.desc + pebStateOffset) maptblBadPebState
    markPeb visit.hdr PebTblHdr.badblkBmap visit.bit PebTblHdr.badblkExist buf
  | .recovering => do
    let buf ← buf.put Errno Wire.u32 visit.desc 1
    let buf ← buf.put Errno Wire.u8 (visit.desc + pebStateOffset) maptblRecoveringState
    markPeb visit.hdr PebTblHdr.recoverBmap visit.bit PebTblHdr.underRecovering buf

def checkPeb (dev : Nat → Mkfs PebCheck) (visit : PebVisit) (st : PebChecks) : Mkfs PebChecks := do
  let res ← dev visit.offset
  let buf ← recordPeb visit res st.buf
  .ok ⟨buf, st.visits ++ [visit]⟩

def checkFragmentPebs (dev : Nat → Mkfs PebCheck) (pebSize pebtbl : Nat) (st : PebChecks) :
    Mkfs PebChecks := do
  let pebsCount ← st.buf.get Errno Wire.u16 (pebtbl + PebTblHdr.pebsCountOffset)
  let startPeb ← st.buf.get Errno Wire.u64 (pebtbl + PebTblHdr.startPebOffset)
  let descArray := pebtbl + pebTableFragmentHeaderSize
  Checked.forRange pebsCount.toNat (fun i st =>
    let pebId := Word.u64 (startPeb.toNat + i)
    checkPeb dev
      { offset := Word.u64 (pebId * pebSize)
        hdr := pebtbl
        desc := descArray + Word.u64 (pebId * pebDescriptorSize)
        bit := i } st) st

def checkPortionPebsValidity (dev : Nat → Mkfs PebCheck) (layout : VolumeLayout) (portion : Nat)
    (st : PebChecks) : Mkfs PebChecks := do
  let (_, st) ← Checked.forRange layout.maptbl.stripesPerPortion (fun stripeId (pebtbl, st) => do
    let pebtbl := pebtbl + stripeId * layout.pageSize.bytes
    let st ← checkFragmentPebs dev layout.env.eraseSize.toNat pebtbl st
    .ok (pebtbl, st)) (portion + layout.maptbl.lebtblPortionBytes, st)
  .ok st

section

variable {dev : Nat → Mkfs PebCheck} {region : Nat → Prop} {b : Buf} {visit : PebVisit}
  {st st' : PebChecks} {visits : List PebVisit} {bmap bit hdr : Nat} {flag : UInt8} {res : PebCheck}

theorem setBit_keeps {addr nr : Nat} (hnr : nr < 512) (hfit : addr + 64 ≤ b.size)
    (hout : ∀ x, region x → x < addr ∨ addr + 64 ≤ x) :
    ∃ b', setBit addr nr b = .ok b' ∧ b.Keeps region b' := by
  have hword : addr + 8 * (nr / 64) + 8 ≤ b.size := by omega
  unfold setBit
  simp only
  rw [Buf.get_ok hword, Checked.ok_bind]
  refine Buf.put_keeps hword fun x hx => ?_
  have hx := hout x hx
  change x < addr + 8 * (nr / 64) ∨ addr + 8 * (nr / 64) + 8 ≤ x
  omega

theorem markPeb_keeps (hbmap : bmap < 4) (hbit : bit < 512)
    (hfit : hdr + pebTableFragmentHeaderSize ≤ b.size)
    (hout : ∀ x, region x → x ≠ hdr + 2 ∧ (x < hdr + 32 ∨ hdr + 288 ≤ x)) :
    ∃ b', markPeb hdr bmap bit flag b = .ok b' ∧ b.Keeps region b' := by
  have hfit : hdr + 288 ≤ b.size := hfit
  have hflags : hdr + 2 + 1 ≤ b.size := by omega
  obtain ⟨b₁, h₁, hkeeps₁⟩ := @Buf.put_keeps Errno _ b Wire.u8 (hdr + 2)
    (Wire.u8.read b.data (hdr + 2) ||| flag) region hflags fun x hx => by
      have hx := hout x hx
      change x < hdr + 2 ∨ hdr + 2 + 1 ≤ x
      omega
  have hsize₁ := hkeeps₁.size
  obtain ⟨b₂, h₂, hkeeps₂⟩ := @setBit_keeps region b₁ (hdr + 32 + 0 * 64) bit hbit (by omega)
    fun x hx => by
      have hx := hout x hx
      omega
  have hsize₂ := hkeeps₂.size
  obtain ⟨b₃, h₃, hkeeps₃⟩ := @setBit_keeps region b₂ (hdr + 32 + bmap * 64) bit hbit (by omega)
    fun x hx => by
      have hx := hout x hx
      omega
  refine ⟨b₃, ?_, hkeeps₁.trans (hkeeps₂.trans hkeeps₃)⟩
  unfold markPeb
  rw [Buf.get_ok hflags, Checked.ok_bind]
  exact Checked.bind_eq_ok.2 ⟨b₁, h₁, Checked.bind_eq_ok.2 ⟨b₂, h₂, h₃⟩⟩

theorem recordPeb_keeps (hbit : visit.bit < 512)
    (hhdr : visit.hdr + pebTableFragmentHeaderSize ≤ b.size)
    (hdesc : visit.desc + pebDescriptorSize ≤ b.size)
    (hout : ∀ x, region x → x ≠ visit.hdr + 2 ∧ (x < visit.hdr + 32 ∨ visit.hdr + 288 ≤ x))
    (hrest : ∀ x, region x → x < visit.desc ∨ visit.desc + 8 ≤ x) :
    ∃ b', recordPeb visit res b = .ok b' ∧ b.Keeps region b' := by
  have hdesc : visit.desc + 8 ≤ b.size := hdesc
  have hcycles : ∀ cycles, ∃ b', b.put Errno Wire.u32 visit.desc cycles = .ok b' ∧
      b.Keeps region b' := fun cycles =>
    Buf.put_keeps (by change visit.desc + 4 ≤ b.size; omega) fun x hx => by
      have hx := hrest x hx
      change x < visit.desc ∨ visit.desc + 4 ≤ x
      omega
  have hmark : ∀ cycles state bmap flag, bmap < 4 → ∃ b', (do
      let b ← b.put Errno Wire.u32 visit.desc cycles
      let b ← b.put Errno Wire.u8 (visit.desc + pebStateOffset) state
      markPeb visit.hdr bmap visit.bit flag b) = .ok b' ∧ b.Keeps region b' := by
    intro cycles state bmap flag hbmap
    obtain ⟨b₁, h₁, hkeeps₁⟩ := hcycles cycles
    have hsize₁ := hkeeps₁.size
    obtain ⟨b₂, h₂, hkeeps₂⟩ := @Buf.put_keeps Errno _ b₁ Wire.u8 (visit.desc + pebStateOffset) state
      region (by change visit.desc + 5 + 1 ≤ b₁.size; omega) fun x hx => by
        have hx := hrest x hx
        change x < visit.desc + 5 ∨ visit.desc + 5 + 1 ≤ x
        omega
    have hsize₂ := hkeeps₂.size
    obtain ⟨b₃, h₃, hkeeps₃⟩ := @markPeb_keeps region b₂ bmap visit.bit visit.hdr flag hbmap hbit
      (by omega) hout
    exact ⟨b₃, Checked.bind_eq_ok.2 ⟨b₁, h₁, Checked.bind_eq_ok.2 ⟨b₂, h₂, h₃⟩⟩,
      hkeeps₁.trans (hkeeps₂.trans hkeeps₃)⟩
  cases res with
  | erasureOk => exact hcycles 1
  | isBad => exact hmark _ _ _ _ (by decide)
  | recovering => exact hmark _ _ _ _ (by decide)

theorem checkPeb_visits (h : checkPeb dev visit st = .ok st') : st'.visits = st.visits ++ [visit] := by
  obtain ⟨_, -, h⟩ := Checked.bind_eq_ok.1 h
  obtain ⟨_, -, h⟩ := Checked.bind_eq_ok.1 h
  cases h
  rfl

theorem forEach_checkPeb_visits (h : Checked.forEach (checkPeb dev) visits st = .ok st') :
    st'.visits = st.visits ++ visits :=
  @Checked.forEach_ind Errno PebVisit PebChecks (checkPeb dev)
    (fun done t => t.visits = st.visits ++ done) [] visits st st' h (List.append_nil _).symm
    fun done visit t t' ht hstep => by rw [checkPeb_visits hstep, ht, List.append_assoc]

end

end Ssdfs
