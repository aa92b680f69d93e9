import Mathlib.Data.List.Dedup
import Mathlib.Data.List.Induction
import Mathlib.Logic.Function.Basic

namespace Ssdfs

def mainLog : Nat := 0

def copyLog : Nat := 1

def logsNumberMax : Nat := 2

structure LogSlot where
  pair : Nat
  copyIndex : Nat
  deriving Repr, DecidableEq

/-- A log is known by its PEB. `found` is the trace of the logs that have been found, each with the
slot that it went to. -/
structure LogsArray where
  pairs : Nat → Nat → Nat
  capacity : Nat
  count : Nat
  found : List (LogSlot × Nat)

namespace LogsArray

def allocate (capacity : Nat) : LogsArray := ⟨fun _ _ => 0, capacity, 0, []⟩

def store (a : LogsArray) (copyIndex pebId : Nat) : LogsArray :=
  { a with
    pairs := Function.update a.pairs a.count (Function.update (a.pairs a.count) copyIndex pebId)
    found := a.found ++ [(⟨a.count, copyIndex⟩, pebId)] }

def countPair (a : LogsArray) : LogsArray := { a with count := a.count + 1 }

def slots (a : LogsArray) : List LogSlot := a.found.map Prod.fst

/-- Each log that has been found is in a slot of its own, and the pairs in use are counted. -/
structure OwnSlots (a : LogsArray) : Prop where
  apart : a.slots.Nodup
  inside : ∀ slot ∈ a.slots, slot.pair < a.capacity
  kept : ∀ log ∈ a.found, a.pairs log.1.pair log.1.copyIndex = log.2
  count : a.count = (a.slots.map LogSlot.pair).dedup.length

section

variable {a : LogsArray} {capacity copyIndex pebId : Nat} {pebIds : List Nat}

/-- Logs are lost to later ones of their slots only. -/
def Keeps (a : LogsArray) : Prop :=
  a.slots.Nodup → ∀ log ∈ a.found, a.pairs log.1.pair log.1.copyIndex = log.2

theorem keeps_allocate : (allocate capacity).Keeps := fun _ _ h => by cases h

theorem Keeps.countPair (h : a.Keeps) : a.countPair.Keeps := h

theorem Keeps.store (h : a.Keeps) : (a.store copyIndex pebId).Keeps := by
  intro hnodup log hlog
  have hslots : (a.store copyIndex pebId).slots = a.slots ++ [⟨a.count, copyIndex⟩] :=
    List.map_append ..
  rw [hslots] at hnodup
  obtain ⟨hbefore, -, hnew⟩ := List.nodup_append.1 hnodup
  change Function.update a.pairs a.count (Function.update (a.pairs a.count) copyIndex pebId)
    log.1.pair log.1.copyIndex = log.2
  rcases List.mem_append.1 hlog with hold | hlast
  · have hne : log.1 ≠ ⟨a.count, copyIndex⟩ :=
      hnew _ (List.mem_map_of_mem hold) _ (List.mem_singleton_self _)
    by_cases hpair : log.1.pair = a.count
    · have hcopy : log.1.copyIndex ≠ copyIndex := fun hcopy => hne (by
        rw [← hpair, ← hcopy])
      rw [hpair, Function.update_self, Function.update_of_ne hcopy, ← hpair]
      exact h hbefore log hold
    · rw [Function.update_of_ne hpair]
      exact h hbefore log hold
  · rw [List.mem_singleton.1 hlast, Function.update_self, Function.update_self]

def storeAll (a : LogsArray) (copyIndex : Nat) (pebIds : List Nat) : LogsArray :=
  pebIds.foldl (fun a => a.store copyIndex) a

theorem storeAll_snoc : a.storeAll copyIndex (pebIds ++ [pebId]) =
    (a.storeAll copyIndex pebIds).store copyIndex pebId := List.foldl_append ..

theorem Keeps.storeAll (h : a.Keeps) : (a.storeAll copyIndex pebIds).Keeps := by
  induction pebIds using List.reverseRecOn with
  | nil => exact h
  | append_singleton pebIds pebId ih =>
    rw [storeAll_snoc]
    exact ih.store

@[simp] theorem storeAll_count : (a.storeAll copyIndex pebIds).count = a.count := by
  induction pebIds using List.reverseRecOn with
  | nil => rfl
  | append_singleton pebIds pebId ih =>
    rw [storeAll_snoc]
    exact ih

@[simp] theorem storeAll_capacity : (a.storeAll copyIndex pebIds).capacity = a.capacity := by
  induction pebIds using List.reverseRecOn with
  | nil => rfl
  | append_singleton pebIds pebId ih =>
    rw [storeAll_snoc]
    exact ih

theorem storeAll_slots : (a.storeAll copyIndex pebIds).slots =
    a.slots ++ List.replicate pebIds.length ⟨a.count, copyIndex⟩ := by
  induction pebIds using List.reverseRecOn with
  | nil => exact (List.append_nil _).symm
  | append_singleton pebIds pebId ih =>
    have hslots : ((a.storeAll copyIndex pebIds).store copyIndex pebId).slots =
        (a.storeAll copyIndex pebIds).slots ++ [⟨(a.storeAll copyIndex pebIds).count, copyIndex⟩] :=
      List.map_append ..
    rw [storeAll_snoc, hslots, ih, storeAll_count, List.length_append, List.length_singleton,
      List.replicate_succ', List.append_assoc]

theorem OwnSlots.count_pos (h : a.OwnSlots) (hfound : a.found ≠ []) : 0 < a.count := by
  rw [h.count]
  obtain ⟨log, hlog⟩ := List.exists_mem_of_ne_nil _ hfound
  exact List.length_pos_of_mem (List.mem_dedup.2 (List.mem_map_of_mem (List.mem_map_of_mem hlog)))

end

end LogsArray

end Ssdfs
