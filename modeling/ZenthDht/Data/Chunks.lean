import Mathlib.Data.List.Basic

/-!
# Files in chunks

A file is read in ranges of positions, both ends included.  `Tiles file a ps b` says that the
pieces `ps`, one after another, are what the file has from `a` up to `b`: then they are together
what stands there, there are no more of them than positions, and the pieces from 0 to the end are
the file.
-/

namespace ZenthDht

variable {α : Type} {file : List α} {a b c : Nat} {p : List α} {ps qs : List (List α)}

/-! ## Ranges -/

/-- The elements at the positions from `a` to `b`, as far as there are any. -/
def slice (file : List α) (a b : Nat) : List α := (file.drop a).take (b + 1 - a)

theorem slice_prefix (file : List α) (a b : Nat) : slice file a b <+: file.drop a :=
  List.take_prefix _ _

@[simp] theorem length_slice (file : List α) (a b : Nat) :
    (slice file a b).length = min (b + 1 - a) (file.length - a) := by
  rw [slice, List.length_take, List.length_drop]

/-- What a store sends for a range: the whole file if the range ends before it starts, `error` if
it starts after the end of the file. -/
def serve (file error : List α) (a b : Nat) : List α :=
  if b < a then file else if file.length ≤ a then error else slice file a b

theorem serve_eq_slice {error : List α} (hab : a ≤ b) (ha : a < file.length) :
    serve file error a b = slice file a b := by
  rw [serve, if_neg (Nat.not_lt.mpr hab), if_neg (Nat.not_le.mpr ha)]

/-! ## Pieces -/

/-- What follows a piece of the file follows it in the file. -/
theorem append_prefix_drop {q : List α} (hp : p <+: file.drop a)
    (hq : q <+: file.drop (a + p.length)) : p ++ q <+: file.drop a := by
  obtain ⟨rest, hrest⟩ := hp
  have hdrop : file.drop (a + p.length) = rest := by
    rw [← List.drop_drop, ← hrest, List.drop_left]
  rw [← hrest, List.prefix_append_right_inj, ← hdrop]
  exact hq

/-- The pieces are what the file has from `a` to `b`; none of them is empty. -/
inductive Tiles (file : List α) : Nat → List (List α) → Nat → Prop
  | nil (a : Nat) : Tiles file a [] a
  | cons {a b : Nat} {p : List α} {ps : List (List α)} (hne : p ≠ []) (hp : p <+: file.drop a)
      (hps : Tiles file (a + p.length) ps b) : Tiles file a (p :: ps) b

namespace Tiles

theorem append (h : Tiles file a ps b) (h' : Tiles file b qs c) : Tiles file a (ps ++ qs) c := by
  induction h with
  | nil a => exact h'
  | cons hne hp _ ih => exact .cons hne hp (ih h')

/-- The pieces together. -/
theorem flatten (h : Tiles file a ps b) :
    ps.flatten <+: file.drop a ∧ b = a + ps.flatten.length := by
  induction h with
  | nil a => exact ⟨List.nil_prefix, rfl⟩
  | @cons a b p ps hne hp _ ih =>
      obtain ⟨hfront, hend⟩ := ih
      refine ⟨append_prefix_drop hp hfront, ?_⟩
      rw [hend, List.flatten_cons, List.length_append, Nat.add_assoc]

/-- Each piece takes at least one position. -/
theorem length_le (h : Tiles file a ps b) : a + ps.length ≤ b := by
  induction h with
  | nil a => exact Nat.le_refl a
  | @cons a b p ps hne hp _ ih =>
      have hpos := List.length_pos_of_ne_nil hne
      rw [List.length_cons]
      omega

theorem le_length (h : Tiles file a ps b) (ha : a ≤ file.length) : b ≤ file.length := by
  obtain ⟨hfront, rfl⟩ := h.flatten
  have hle := hfront.length_le
  rw [List.length_drop] at hle
  omega

/-- The pieces from the start to the end. -/
theorem whole (h : Tiles file 0 ps file.length) : ps.flatten = file := by
  obtain ⟨hfront, hend⟩ := h.flatten
  rw [List.drop_zero] at hfront
  exact hfront.eq_of_length (by omega)

end Tiles

end ZenthDht
