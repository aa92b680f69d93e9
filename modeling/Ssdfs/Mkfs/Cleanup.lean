import Mathlib.Data.List.Basic
import Ssdfs.Layout

namespace Ssdfs

structure Pool (β : Type) where
  slots : Nat → Option β
  requestedJobs : Nat
  released : List (Nat × Option β)

def Pool.empty {β : Type} : Pool β := ⟨fun _ => none, 0, []⟩

section

variable {β σ : Type}

/-- `for (i--; i >= 0; i--)` with an `int`, which has been decremented once. -/
def countDownInt (release : Nat → σ → Mkfs σ) : Nat → Int → σ → Mkfs σ
  | 0, _, _ => .error .fuel
  | fuel + 1, i, s =>
    if i ≥ 0 then release i.toNat s >>= countDownInt release fuel (i - 1) else .ok s

/-- The same loop with a `u32`, which always passes the test. -/
def countDownU32 (release : Nat → σ → Mkfs σ) : Nat → Nat → σ → Mkfs σ
  | 0, _, _ => .error .fuel
  | fuel + 1, i, s => release i s >>= countDownU32 release fuel (Word.sub32 i 1)

def storeBuffer (i : Nat) (buf : β) (pool : Pool β) : Pool β :=
  { pool with slots := Function.update pool.slots i (some buf) }

def freeBuffer (count i : Nat) (pool : Pool β) : Mkfs (Pool β) :=
  if i < count then
    .ok { pool with
      slots := Function.update pool.slots i none
      released := pool.released ++ [(i, pool.slots i)] }
  else .error .stray

def storeThread (i : Nat) (thread : β) (pool : Pool β) : Pool β :=
  { pool with
    slots := Function.update pool.slots i (some thread)
    requestedJobs := pool.requestedJobs + 1 }

def joinThread (count i : Nat) (pool : Pool β) : Mkfs (Pool β) :=
  if i < count then
    .ok { pool with
      requestedJobs := pool.requestedJobs - 1
      released := pool.released ++ [(i, pool.slots i)] }
  else .error .stray

/-- Creates the items from `i` on, until one fails; the result tells whether none has. -/
def createEach (create : Nat → Option β) (store : Nat → β → Pool β → Pool β)
    (cleanup : Nat → Pool β → Mkfs (Pool β)) : Nat → Nat → Pool β → Mkfs (Pool β × Bool)
  | 0, _, pool => .ok (pool, true)
  | n + 1, i, pool =>
    match create i with
    | some item => createEach create store cleanup n (i + 1) (store i item pool)
    | none => do
      let pool ← cleanup i pool
      .ok (pool, false)

variable (fuel : Nat)

namespace CreatedArray

def maptblCreateFragmentsArray (maptblPebs : UInt32) (calloc : Nat → Option β) : Mkfs (Pool β × Bool) :=
  createEach calloc storeBuffer
    (fun i => countDownU32 (freeBuffer maptblPebs.toNat) fuel (Word.sub32 i 1)) maptblPebs.toNat 0 .empty

def maptblCacheCreateFragmentsArray (fragmentsCount : UInt32) (calloc : Nat → Option β) :
    Mkfs (Pool β × Bool) :=
  createEach calloc storeBuffer
    (fun i => countDownU32 (freeBuffer fragmentsCount.toNat) fuel (Word.sub32 i 1))
    fragmentsCount.toNat 0 .empty

def segbmapCreateFragmentsArray (segsPerChain pebsPerSeg : UInt16) (calloc : Nat → Option β) :
    Mkfs (Pool β × Bool) :=
  let buffersCount := segsPerChain.toNat * pebsPerSeg.toNat
  createEach calloc storeBuffer
    (fun i => countDownInt (freeBuffer buffersCount) fuel ((i : Int) - 1)) buffersCount 0 .empty

/-- The part of `erase_device` that starts the threads. -/
def startEraseThreads (capacity : UInt32) (pthreadCreate : Nat → Option β) : Mkfs (Pool β × Bool) :=
  createEach pthreadCreate storeThread
    (fun i => countDownU32 (joinThread capacity.toNat) fuel (Word.sub32 i 1)) capacity.toNat 0 .empty

end CreatedArray

end

/-- The functions with a cleanup of this kind, and how many items each creates. -/
inductive CreatedArray
  | maptbl (maptblPebs : UInt32)
  | maptblCache (fragmentsCount : UInt32)
  | segbmap (segsPerChain pebsPerSeg : UInt16)
  | eraseThreads (capacity : UInt32)
  deriving Repr, DecidableEq

namespace CreatedArray

def count : CreatedArray → Nat
  | maptbl maptblPebs => maptblPebs.toNat
  | maptblCache fragmentsCount => fragmentsCount.toNat
  | segbmap segsPerChain pebsPerSeg => segsPerChain.toNat * pebsPerSeg.toNat
  | eraseThreads capacity => capacity.toNat

def signedCounter : CreatedArray → Prop
  | segbmap _ _ => True
  | _ => False

variable {β : Type}

def create (fuel : Nat) (create : Nat → Option β) : CreatedArray → Mkfs (Pool β × Bool)
  | maptbl maptblPebs => maptblCreateFragmentsArray fuel maptblPebs create
  | maptblCache fragmentsCount => maptblCacheCreateFragmentsArray fuel fragmentsCount create
  | segbmap segsPerChain pebsPerSeg => segbmapCreateFragmentsArray fuel segsPerChain pebsPerSeg create
  | eraseThreads capacity => startEraseThreads fuel capacity create

/-- After the failure of item `k` those before it, and nothing else, are given back. -/
def CleansUp (array : CreatedArray) (create : Nat → Option β) (k : Nat) : Prop :=
  ∃ fuel pool, array.create fuel create = .ok (pool, false) ∧
    pool.released = (List.range k).reverse.map fun i => (i, create i)

end CreatedArray

section

variable {β σ : Type} {create : Nat → Option β} {store : Nat → β → Pool β → Pool β}
  {cleanup : Nat → Pool β → Mkfs (Pool β)} {release : Nat → σ → Mkfs σ} {pool pool' : Pool β}
  {count i k n fuel : Nat}

theorem countDownU32_ne_ok (s t : σ) : countDownU32 release fuel i s ≠ .ok t := by
  induction fuel generalizing i s with
  | zero => exact fun h => nomatch h
  | succ fuel ih =>
    intro h
    obtain ⟨u, -, h⟩ := Checked.bind_eq_ok.1 h
    exact ih u h

theorem countDownInt_frees (hk : k ≤ count) : ∃ pool',
    countDownInt (freeBuffer count) (k + 1) ((k : Int) - 1) pool = .ok pool' ∧
      pool'.released = pool.released ++ (List.range k).reverse.map fun i => (i, pool.slots i) := by
  induction k generalizing pool with
  | zero => exact ⟨pool, rfl, (List.append_nil _).symm⟩
  | succ k ih =>
    obtain ⟨pool', hrest, hreleased⟩ := @ih { pool with
      slots := Function.update pool.slots k none
      released := pool.released ++ [(k, pool.slots k)] } (Nat.le_of_succ_le hk)
    have hcounter : ((k + 1 : Nat) : Int) - 1 = k := by omega
    refine ⟨pool', ?_, ?_⟩
    · rw [hcounter]
      unfold countDownInt
      rw [if_pos (Int.natCast_nonneg k), Int.toNat_natCast]
      have hfree : freeBuffer count k pool = .ok _ := if_pos hk
      rw [hfree, Checked.ok_bind]
      exact hrest
    · rw [hreleased, List.range_succ, List.reverse_append, List.map_append, List.append_assoc]
      refine congrArg _ (congrArg _ (List.map_congr_left fun i hi => ?_))
      have hne : i ≠ k := Nat.ne_of_lt (List.mem_range.1 (List.mem_reverse.1 hi))
      simp only [Function.update_of_ne hne]

/-- The items that have been created before the one at `k`. -/
structure CreatedTo (create : Nat → Option β) (k : Nat) (pool : Pool β) : Prop where
  slots : ∀ i < k, pool.slots i = create i
  released : pool.released = []

theorem createEach_fails (hle : i ≤ k) (hk : k < i + n) (hok : ∀ j < k, (create j).isSome)
    (hfail : create k = none)
    (hstore : ∀ j item p, create j = some item → CreatedTo create j p →
      CreatedTo create (j + 1) (store j item p)) (hpool : CreatedTo create i pool) :
    ∃ p, CreatedTo create k p ∧ createEach create store cleanup n i pool =
      cleanup k p >>= fun p => .ok (p, false) := by
  induction n generalizing i pool with
  | zero => omega
  | succ n ih =>
    unfold createEach
    rcases Nat.eq_or_lt_of_le hle with rfl | hlt
    · rw [hfail]
      exact ⟨pool, hpool, rfl⟩
    · obtain ⟨item, hitem⟩ := Option.isSome_iff_exists.1 (hok i hlt)
      rw [hitem]
      exact ih hlt (by omega) (hstore i item pool hitem hpool)

theorem CreatedTo.update {item : β} {jobs : Nat} (hitem : create i = some item)
    (h : CreatedTo create i pool) :
    CreatedTo create (i + 1) ⟨Function.update pool.slots i (some item), jobs, pool.released⟩ where
  slots j hj := by
    rcases Nat.lt_succ_iff_lt_or_eq.1 hj with hlt | rfl
    · exact (Function.update_of_ne (Nat.ne_of_lt hlt) _ _).trans (h.slots j hlt)
    · exact (Function.update_self _ _ _).trans hitem.symm
  released := h.released

theorem createEach_unsigned (hok : ∀ j < k, (create j).isSome) (hfail : create k = none) (hk : k < n)
    (hstore : ∀ j item p, create j = some item → CreatedTo create j p →
      CreatedTo create (j + 1) (store j item p)) {release : Nat → Pool β → Mkfs (Pool β)} :
    createEach create store (fun i => countDownU32 release fuel (Word.sub32 i 1)) n 0 .empty ≠
      .ok (pool', false) := by
  obtain ⟨p, -, heq⟩ := createEach_fails (Nat.zero_le k) (show k < 0 + n by omega) hok hfail hstore
    (⟨fun i hi => absurd hi (Nat.not_lt_zero i), rfl⟩ : CreatedTo create 0 Pool.empty)
  intro h
  rw [heq] at h
  obtain ⟨t, ht, -⟩ := Checked.bind_eq_ok.1 h
  exact countDownU32_ne_ok p t ht

namespace CreatedArray

/-- The cleanup gives back what has been created, and stops, where its counter has a sign. -/
theorem cleansUp_iff (array : CreatedArray) (hk : k < array.count) (hok : ∀ j < k, (create j).isSome)
    (hfail : create k = none) : array.CleansUp create k ↔ array.signedCounter := by
  cases array with
  | maptbl maptblPebs =>
    exact iff_of_false (fun ⟨_, _, h, _⟩ =>
      createEach_unsigned hok hfail hk (fun _ _ _ hitem h => h.update hitem) h) id
  | maptblCache fragmentsCount =>
    exact iff_of_false (fun ⟨_, _, h, _⟩ =>
      createEach_unsigned hok hfail hk (fun _ _ _ hitem h => h.update hitem) h) id
  | eraseThreads capacity =>
    exact iff_of_false (fun ⟨_, _, h, _⟩ =>
      createEach_unsigned hok hfail hk (fun _ _ _ hitem h => h.update hitem) h) id
  | segbmap segsPerChain pebsPerSeg =>
    refine iff_of_true ?_ trivial
    obtain ⟨p, hp, heq⟩ := createEach_fails (Nat.zero_le k)
      (by rw [Nat.zero_add]; exact hk) hok hfail (fun _ _ _ hitem h => h.update hitem)
      (⟨fun i hi => absurd hi (Nat.not_lt_zero i), rfl⟩ : CreatedTo create 0 Pool.empty)
    obtain ⟨pool', hrun, hreleased⟩ := @countDownInt_frees β p
      (segsPerChain.toNat * pebsPerSeg.toNat) k (Nat.le_of_lt hk)
    refine ⟨k + 1, pool', ?_, ?_⟩
    · refine heq.trans ?_
      rw [hrun, Checked.ok_bind]
    · rw [hreleased, hp.released, List.nil_append]
      exact List.map_congr_left fun i hi => by
        rw [hp.slots i (List.mem_range.1 (List.mem_reverse.1 hi))]

end CreatedArray

end

def twoBuffers (i : Nat) : Option Nat := if i < 2 then some i else none

theorem cleansUp_segbmap : (CreatedArray.segbmap 2 4).CleansUp twoBuffers 2 :=
  (CreatedArray.cleansUp_iff (.segbmap 2 4) (by decide) (by decide) rfl).2 trivial

/-- Behind the first slot the cleanup goes on with the slot of the greatest number. -/
theorem cleansUp_maptbl_strays : (∀ fuel, 4 ≤ fuel →
    CreatedArray.maptblCreateFragmentsArray fuel 8 twoBuffers = .error .stray) ∧
      ¬(CreatedArray.maptbl 8).CleansUp twoBuffers 2 := by
  have hstray : ∀ fuel, 4 ≤ fuel →
      CreatedArray.maptblCreateFragmentsArray fuel 8 twoBuffers = .error .stray := by
    intro fuel hfuel
    obtain ⟨m, rfl⟩ := Nat.exists_eq_add_of_le' hfuel
    rfl
  refine ⟨hstray, ?_⟩
  rintro ⟨fuel, pool, h, -⟩
  exact createEach_unsigned (k := 2) (by decide) rfl (by decide)
    (fun _ _ _ hitem h => h.update hitem) h

end Ssdfs
