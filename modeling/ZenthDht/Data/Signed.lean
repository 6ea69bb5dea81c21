import Mathlib.Algebra.Group.Int.Defs
import Mathlib.Algebra.Group.Nat.Defs
import Mathlib.Logic.Basic

/-!
# Unsigned numbers cast to signed ones

The cast `x as i64` of a `u64` keeps the bits.  It is the number itself below `2 ^ 63`, and
`2 ^ 64` less from there on, so it keeps the order on each side of `2 ^ 63` and reverses it across.
-/

namespace ZenthDht

variable {x y : UInt64}

theorem toInt_toInt64 (x : UInt64) :
    x.toInt64.toInt = if x.toNat < 2 ^ 63 then (x.toNat : Int) else x.toNat - 2 ^ 64 := by
  have hbits : x.toInt64.toInt = x.toBitVec.toInt := rfl
  have hnat : x.toBitVec.toNat = x.toNat := rfl
  rw [hbits, BitVec.toInt_eq_toNat_cond, hnat]
  split <;> split <;> simp <;> omega

/-- The cast is the number itself exactly below `2 ^ 63`. -/
theorem toInt_toInt64_eq : x.toInt64.toInt = x.toNat ↔ x.toNat < 2 ^ 63 := by
  rw [toInt_toInt64]
  split <;> omega

/-- The cast keeps the order of two numbers unless `2 ^ 63` lies between them. -/
theorem toInt64_le (h : x ≤ y) :
    x.toInt64 ≤ y.toInt64 ↔ y.toNat < 2 ^ 63 ∨ 2 ^ 63 ≤ x.toNat := by
  have hle : x.toNat ≤ y.toNat := UInt64.le_iff_toNat_le.mp h
  have hy : y.toNat < 2 ^ 64 := y.toNat_lt
  rw [Int64.le_iff_toInt_le, toInt_toInt64, toInt_toInt64]
  split <;> split <;> omega

end ZenthDht
