import Ssdfs.Layout

namespace Ssdfs

def lebTableMagic : Nat := 0x4C74
def pebTableMagic : Nat := 0x5074

inductive PebType
  | unknown
  | data
  | lnode
  | hnode
  | idxnode
  | initSnap
  | sbseg
  | segbmap
  | maptbl
  | max
  deriving Repr, DecidableEq

def seg2pebType : SegType → PebType
  | .userData => .data
  | .leafNode => .lnode
  | .hybridNode => .hnode
  | .indexNode => .idxnode
  | .initialSnapshot => .initSnap
  | .sb => .sbseg
  | .segbmap => .segbmap
  | .maptbl => .maptbl
  | .unknown => .max

inductive PebState
  | unknown
  | bad
  | clean
  | using
  | used
  | preDirty
  | dirty
  | migrationSrcUsing
  | migrationSrcUsed
  | migrationSrcPreDirty
  | migrationSrcDirty
  | migrationDstClean
  | migrationDstUsing
  | migrationDstUsed
  | migrationDstPreDirty
  | migrationDstDirty
  | preErase
  | underErase
  | snapshot
  | recovering
  | usingInvalidated
  | migrationSrcUsingInvalidated
  | migrationDstUsingInvalidated
  deriving Repr, DecidableEq

structure LebDescriptor where
  physicalIndex : Nat
  relationIndex : Nat
  deriving Repr, DecidableEq

structure LebTableFragment where
  magic : Nat
  flags : Nat
  startLeb : Nat
  lebsCount : Nat
  mappedLebs : Nat
  migratingLebs : Nat
  portionId : Nat
  fragmentId : Nat
  bytesCount : Nat
  desc : Nat → LebDescriptor

structure PebDescriptor where
  eraseCycles : Nat
  type : PebType
  state : PebState
  deriving Repr, DecidableEq

structure PebTableFragment where
  magic : Nat
  flags : Nat
  recoverMonths : Nat
  recoverThreshold : Nat
  startPeb : Nat
  pebsCount : Nat
  lastSelectedPeb : Nat
  reservedPebs : Nat
  stripeId : Nat
  portionId : Nat
  fragmentId : Nat
  bytesCount : Nat
  usedBmap : Nat → Bool
  dirtyBmap : Nat → Bool
  recoverBmap : Nat → Bool
  badblkBmap : Nat → Bool
  desc : Nat → PebDescriptor

@[ext]
structure PortionTables where
  lebtbl : Nat → LebTableFragment
  pebtbl : Nat → PebTableFragment

abbrev Tables := Nat → Nat → PortionTables

def LebTableFragment.zero : LebTableFragment where
  magic := 0
  flags := 0
  startLeb := 0
  lebsCount := 0
  mappedLebs := 0
  migratingLebs := 0
  portionId := 0
  fragmentId := 0
  bytesCount := 0
  desc := fun _ => ⟨0, 0⟩

def PebTableFragment.zero : PebTableFragment where
  magic := 0
  flags := 0
  recoverMonths := 0
  recoverThreshold := 0
  startPeb := 0
  pebsCount := 0
  lastSelectedPeb := 0
  reservedPebs := 0
  stripeId := 0
  portionId := 0
  fragmentId := 0
  bytesCount := 0
  usedBmap := fun _ => false
  dirtyBmap := fun _ => false
  recoverBmap := fun _ => false
  badblkBmap := fun _ => false
  desc := fun _ => ⟨0, .unknown, .unknown⟩

def PortionTables.zero : PortionTables := ⟨fun _ => .zero, fun _ => .zero⟩

namespace Tables

def set (t : Tables) (fragment portion : Nat) (x : PortionTables) : Tables :=
  Function.update t fragment (Function.update (t fragment) portion x)

def setLebtbl (t : Tables) (fragment portion page : Nat) (x : LebTableFragment) : Tables :=
  t.set fragment portion
    { t fragment portion with lebtbl := Function.update (t fragment portion).lebtbl page x }

def setPebtbl (t : Tables) (fragment portion stripe : Nat) (x : PebTableFragment) : Tables :=
  t.set fragment portion
    { t fragment portion with pebtbl := Function.update (t fragment portion).pebtbl stripe x }

variable (t : Tables) (f p : Nat)

@[simp] theorem set_self (x : PortionTables) : t.set f p x f p = x := by
  simp [set]

theorem set_of_ne (x : PortionTables) {f' p' : Nat} (h : (f', p') ≠ (f, p)) :
    t.set f p x f' p' = t f' p' := by
  unfold set
  by_cases hf : f' = f
  · subst hf
    have hp : p' ≠ p := fun hp => h (by rw [hp])
    rw [Function.update_self, Function.update_of_ne hp]
  · rw [Function.update_of_ne hf]

@[simp] theorem setLebtbl_pebtbl (m : Nat) (x : LebTableFragment) (f' p' : Nat) :
    (t.setLebtbl f p m x f' p').pebtbl = (t f' p').pebtbl := by
  by_cases h : (f', p') = (f, p)
  · cases h
    simp [setLebtbl]
  · rw [setLebtbl, set_of_ne _ _ _ _ h]

@[simp] theorem setPebtbl_lebtbl (j : Nat) (x : PebTableFragment) (f' p' : Nat) :
    (t.setPebtbl f p j x f' p').lebtbl = (t f' p').lebtbl := by
  by_cases h : (f', p') = (f, p)
  · cases h
    simp [setPebtbl]
  · rw [setPebtbl, set_of_ne _ _ _ _ h]

@[simp] theorem setLebtbl_self (m : Nat) (x : LebTableFragment) :
    (t.setLebtbl f p m x f p).lebtbl m = x := by
  simp [setLebtbl]

@[simp] theorem setPebtbl_self (j : Nat) (x : PebTableFragment) :
    (t.setPebtbl f p j x f p).pebtbl j = x := by
  simp [setPebtbl]

theorem setLebtbl_of_ne (m : Nat) (x : LebTableFragment) {f' p' m' : Nat}
    (h : (f', p', m') ≠ (f, p, m)) :
    (t.setLebtbl f p m x f' p').lebtbl m' = (t f' p').lebtbl m' := by
  by_cases hk : (f', p') = (f, p)
  · cases hk
    have hm : m' ≠ m := fun hm => h (by rw [hm])
    simp [setLebtbl, Function.update_of_ne hm]
  · rw [setLebtbl, set_of_ne _ _ _ _ hk]

theorem setPebtbl_of_ne (j : Nat) (x : PebTableFragment) {f' p' j' : Nat}
    (h : (f', p', j') ≠ (f, p, j)) :
    (t.setPebtbl f p j x f' p').pebtbl j' = (t f' p').pebtbl j' := by
  by_cases hk : (f', p') = (f, p)
  · cases hk
    have hj : j' ≠ j := fun hj => h (by rw [hj])
    simp [setPebtbl, Function.update_of_ne hj]
  · rw [setPebtbl, set_of_ne _ _ _ _ hk]

end Tables

end Ssdfs
