import Mathlib.Algebra.GroupWithZero.Nat
import Mathlib.Tactic.Common

/-! Unsigned machine arithmetic on natural numbers. A stored word is a number below
its modulus; every store and every operation that can wrap truncates. -/

namespace Word

def u16Max : Nat := 65535
def u32Max : Nat := 4294967295
def u64Max : Nat := 18446744073709551615

def u8 (n : Nat) : Nat := n % 256
def u16 (n : Nat) : Nat := n % 65536
def u32 (n : Nat) : Nat := n % 4294967296
def u64 (n : Nat) : Nat := n % 18446744073709551616

def sub32 (a b : Nat) : Nat := (a + (4294967296 - b % 4294967296)) % 4294967296
def sub64 (a b : Nat) : Nat := (a + (18446744073709551616 - b % 18446744073709551616)) %
  18446744073709551616

/-- A 32-bit signed value widened to 64 bits. -/
def sext32 (n : Nat) : Nat :=
  if n < 2147483648 then n else n + (18446744073709551616 - 4294967296)

theorem u16_lt (n : Nat) : u16 n < 65536 := Nat.mod_lt _ (by decide)
theorem u32_lt (n : Nat) : u32 n < 4294967296 := Nat.mod_lt _ (by decide)
theorem u64_lt (n : Nat) : u64 n < 18446744073709551616 := Nat.mod_lt _ (by decide)

theorem u8_of_lt {n : Nat} (h : n < 256) : u8 n = n := Nat.mod_eq_of_lt h
theorem u16_of_lt {n : Nat} (h : n < 65536) : u16 n = n := Nat.mod_eq_of_lt h
theorem u32_of_lt {n : Nat} (h : n < 4294967296) : u32 n = n := Nat.mod_eq_of_lt h
theorem u64_of_lt {n : Nat} (h : n < 18446744073709551616) : u64 n = n := Nat.mod_eq_of_lt h

theorem u16_le (n : Nat) : u16 n ≤ n := Nat.mod_le _ _
theorem u32_le (n : Nat) : u32 n ≤ n := Nat.mod_le _ _
theorem u64_le (n : Nat) : u64 n ≤ n := Nat.mod_le _ _

theorem sub32_of_le {a b : Nat} (h : b ≤ a) (ha : a < 4294967296) : sub32 a b = a - b := by
  unfold sub32
  omega

theorem sub64_of_le {a b : Nat} (h : b ≤ a) (ha : a < 18446744073709551616) :
    sub64 a b = a - b := by
  unfold sub64
  omega

theorem sub64_of_lt {a b : Nat} (h : a < b) (hb : b < 18446744073709551616) :
    sub64 a b = a + 18446744073709551616 - b := by
  unfold sub64
  omega

end Word
