import Mathlib.Algebra.Group.Int.Defs
import Mathlib.Algebra.Group.Nat.Defs
import Mathlib.Data.List.Basic

/-!
# Byte strings and little-endian integers

The fixed-width encodings that signed byte strings are built from.
-/

namespace ZenthDht

/-- A byte string, `Vec<u8>`. -/
abbrev Bytes : Type := List UInt8

/-- The little-endian encoding of `n` in `w` bytes; higher digits are dropped. -/
def leBytes : Nat → Nat → Bytes
  | 0, _ => []
  | w + 1, n => UInt8.ofNat n :: leBytes w (n / 256)

@[simp] theorem length_leBytes (w n : Nat) : (leBytes w n).length = w := by
  induction w generalizing n with
  | zero => rfl
  | succ w ih => simp [leBytes, ih]

/-- A number that fits is determined by its encoding. -/
theorem leBytes_inj {w m n : Nat} (hm : m < 256 ^ w) (hn : n < 256 ^ w)
    (h : leBytes w m = leBytes w n) : m = n := by
  induction w generalizing m n with
  | zero => omega
  | succ w ih =>
      obtain ⟨hlow, hhigh⟩ := List.cons.inj h
      have hdigit : m % 256 = n % 256 := by simpa using congrArg UInt8.toNat hlow
      have hrest : m / 256 = n / 256 := ih (by omega) (by omega) hhigh
      omega

/-- `u64::to_le_bytes`. -/
def le64 (x : UInt64) : Bytes := leBytes 8 x.toNat

/-- `u32::to_le_bytes`. -/
def le32 (x : UInt32) : Bytes := leBytes 4 x.toNat

/-- `i64::to_le_bytes`. -/
def leI64 (x : Int64) : Bytes := le64 x.toUInt64

@[simp] theorem length_le64 (x : UInt64) : (le64 x).length = 8 := length_leBytes 8 _

@[simp] theorem length_le32 (x : UInt32) : (le32 x).length = 4 := length_leBytes 4 _

@[simp] theorem length_leI64 (x : Int64) : (leI64 x).length = 8 := length_leBytes 8 _

theorem le64_inj {x y : UInt64} (h : le64 x = le64 y) : x = y :=
  UInt64.toNat_inj.mp (leBytes_inj x.toNat_lt y.toNat_lt h)

end ZenthDht
