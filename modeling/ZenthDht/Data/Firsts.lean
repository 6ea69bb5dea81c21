import Mathlib.Data.List.Nodup

/-!
# The first of every key

Appending to a list without repeating a key: of the elements of one key only the first is kept.
This is what a unique constraint does to a batch of inserts that ignores conflicts.
-/

namespace ZenthDht

variable {α κ : Type} [DecidableEq κ] {key : α → κ}

/-- Append `a`, unless its key is there already. -/
def addFirst (key : α → κ) (l : List α) (a : α) : List α :=
  if l.any fun x ↦ key x = key a then l else l ++ [a]

/-- Append the elements of `as`, of each key only the first. -/
def addFirsts (key : α → κ) (l as : List α) : List α := as.foldl (addFirst key) l

/-- The elements whose key does not occur earlier. -/
def firsts (key : α → κ) (as : List α) : List α := addFirsts key [] as

@[simp] theorem addFirsts_nil (l : List α) : addFirsts key l [] = l := rfl

@[simp] theorem addFirsts_cons (l as : List α) (a : α) :
    addFirsts key l (a :: as) = addFirsts key (addFirst key l a) as := rfl

theorem firsts_append (as bs : List α) :
    firsts key (as ++ bs) = addFirsts key (firsts key as) bs := List.foldl_append

theorem nodup_addFirst {l : List α} (h : (l.map key).Nodup) (a : α) :
    ((addFirst key l a).map key).Nodup := by
  unfold addFirst
  split
  · exact h
  next hnew =>
    rw [List.map_append, List.nodup_append]
    refine ⟨h, List.nodup_singleton _, ?_⟩
    rintro k hk k' hk' rfl
    obtain ⟨x, hx, hxk⟩ := List.mem_map.mp hk
    obtain rfl := List.mem_singleton.mp hk'
    exact hnew (List.any_eq_true.mpr ⟨x, hx, decide_eq_true hxk⟩)

/-- No key is repeated. -/
theorem nodup_addFirsts {l : List α} (h : (l.map key).Nodup) (as : List α) :
    ((addFirsts key l as).map key).Nodup := by
  induction as generalizing l with
  | nil => exact h
  | cons a as ih => exact ih (nodup_addFirst h a)

theorem nodup_firsts (as : List α) : ((firsts key as).map key).Nodup :=
  nodup_addFirsts (l := []) List.nodup_nil as

end ZenthDht
