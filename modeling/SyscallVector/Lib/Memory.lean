import Mathlib.Algebra.Group.Nat.Defs
import Mathlib.Data.List.Range

/-!
# Byte memory

A memory maps every 64-bit address to a byte. A range is given by its first address and a
length; offsets are taken modulo 2^64, so a range may wrap around. Ranges of at most 2^64
bytes do not meet themselves.
-/
namespace SyscallVector.Lib

set_option autoImplicit false

abbrev Memory := UInt64 → UInt8

namespace Memory

/-- The `n` bytes from an address on. -/
def read (m : Memory) (a : UInt64) (n : Nat) : List UInt8 :=
  (List.range n).map fun i => m (a + UInt64.ofNat i)

/-- Store bytes from an address on. -/
def write (m : Memory) (a : UInt64) (bytes : List UInt8) : Memory :=
  fun x => (bytes[(x - a).toNat]?).getD (m x)

variable {m : Memory} {a x : UInt64} {n : Nat} {bytes : List UInt8}

@[simp] theorem length_read (m : Memory) (a : UInt64) (n : Nat) : (m.read a n).length = n := by
  rw [read, List.length_map, List.length_range]

theorem getElem_read {i : Nat} (h : i < (m.read a n).length) :
    (m.read a n)[i] = m (a + UInt64.ofNat i) := by
  simp only [read, List.getElem_map, List.getElem_range]

theorem toNat_add_ofNat_sub {i : Nat} (a : UInt64) (hi : i < 2 ^ 64) :
    (a + UInt64.ofNat i - a).toNat = i := by
  rw [UInt64.add_comm, UInt64.add_sub_cancel, UInt64.toNat_ofNat', Nat.mod_eq_of_lt hi]

/-- Every address lies at its own offset. -/
theorem add_ofNat_toNat_sub (x a : UInt64) : a + UInt64.ofNat (x - a).toNat = x := by
  rw [UInt64.ofNat_toNat, UInt64.add_comm, UInt64.sub_add_cancel]

theorem write_inside (h : (x - a).toNat < bytes.length) :
    m.write a bytes x = bytes[(x - a).toNat] := by
  rw [write, List.getElem?_eq_getElem h, Option.getD_some]

theorem write_outside (h : bytes.length ≤ (x - a).toNat) : m.write a bytes x = m x := by
  rw [write, List.getElem?_eq_none h, Option.getD_none]

theorem write_at {i : Nat} (hi : i < bytes.length) (hbytes : bytes.length ≤ 2 ^ 64) :
    m.write a bytes (a + UInt64.ofNat i) = bytes[i] := by
  have hoff := toNat_add_ofNat_sub a (hi.trans_le hbytes)
  rw [write, hoff, List.getElem?_eq_getElem hi, Option.getD_some]

/-- A range that was written holds the bytes that were written. -/
theorem read_write (m : Memory) (a : UInt64) (hbytes : bytes.length ≤ 2 ^ 64) :
    (m.write a bytes).read a bytes.length = bytes := by
  apply List.ext_getElem (length_read ..)
  intro i _ hi
  rw [getElem_read, write_at hi hbytes]

/-- Saved bytes that are written back are the old ones; what was written in between stays
behind them. -/
theorem restore_apply (m : Memory) (a x : UInt64) (n : Nat) (bytes : List UInt8) :
    (m.write a bytes).write a (m.read a n) x =
      if (x - a).toNat < n then m x else m.write a bytes x := by
  split
  · rename_i hin
    have hlength : (x - a).toNat < (m.read a n).length := by rwa [length_read]
    rw [write_inside hlength, getElem_read, add_ofNat_toNat_sub]
  · rename_i hout
    rw [write_outside (by rw [length_read]; exact Nat.not_lt.mp hout)]

/-- Saving a range, overwriting memory from its start on and restoring the range changes
nothing if and only if the bytes written past the range were there before. -/
theorem restore_eq_iff (m : Memory) (a : UInt64) (n : Nat) (hbytes : bytes.length ≤ 2 ^ 64) :
    (m.write a bytes).write a (m.read a n) = m ↔
      ∀ i (h : i < bytes.length), n ≤ i → m (a + UInt64.ofNat i) = bytes[i] := by
  constructor
  · intro hsame i hi hn
    have hat := congrFun hsame (a + UInt64.ofNat i)
    rw [restore_apply, toNat_add_ofNat_sub a (hi.trans_le hbytes), if_neg (Nat.not_lt.mpr hn),
      write_at hi hbytes] at hat
    exact hat.symm
  · intro hrest
    funext x
    rw [restore_apply]
    by_cases hin : (x - a).toNat < n
    · rw [if_pos hin]
    · rw [if_neg hin]
      by_cases hover : (x - a).toNat < bytes.length
      · have hbyte := hrest _ hover (Nat.not_lt.mp hin)
        rw [write_inside hover, ← hbyte, add_ofNat_toNat_sub]
      · exact write_outside (Nat.not_lt.mp hover)

end Memory

end SyscallVector.Lib
