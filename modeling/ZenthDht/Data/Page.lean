import Mathlib.Data.List.Perm.Subperm
import Mathlib.Data.List.Sort
import Mathlib.Order.Defs.LinearOrder

/-!
# Pages of a sorted query

`SELECT … WHERE p ORDER BY key LIMIT n`: the rows that satisfy a condition, in the order of a
key, and of these the first `n`.  `IsPage` says what such a list contains without saying how
it is computed: a row that satisfies the condition and is not on the page comes no earlier
than any row that is, and there is such a row only if the page is full.
-/

namespace ZenthDht

variable {α κ : Type} [LinearOrder κ]

/-- `page` is a page of at most `limit` of the rows that satisfy `p`, in the order of `key`. -/
structure IsPage (key : α → κ) (p : α → Prop) (limit : Nat) (page : List α) : Prop where
  sorted : page.Pairwise fun x y ↦ key x ≤ key y
  nodup : page.Nodup
  sound : ∀ x ∈ page, p x
  length_le : page.length ≤ limit
  rest : ∀ x, p x → x ∈ page ∨ page.length = limit ∧ ∀ y ∈ page, key y ≤ key x

namespace IsPage

variable {key : α → κ} {p : α → Prop} {limit : Nat} {page : List α}

theorem congr {q : α → Prop} (h : IsPage key p limit page) (hpq : ∀ x, p x ↔ q x) :
    IsPage key q limit page := by
  obtain rfl : p = q := funext fun x ↦ propext (hpq x)
  exact h

/-- A page that is not full has all the rows. -/
theorem mem_of_short (h : IsPage key p limit page) (hlen : page.length < limit) {x : α}
    (hx : p x) : x ∈ page :=
  (h.rest x hx).resolve_right fun hfull ↦ hlen.ne hfull.1

/-- The number of rows on a page of the list `l`. -/
theorem length_eq {l : List α} (h : IsPage key (· ∈ l) limit page) (hl : l.Nodup) :
    page.length = min limit l.length := by
  have hsub : page.length ≤ l.length := (List.Nodup.subperm h.nodup h.sound).length_le
  have hle := h.length_le
  by_cases hfull : page.length = limit
  · omega
  · have hall : l.length ≤ page.length :=
      (List.Nodup.subperm hl fun x hx ↦
        h.mem_of_short (Nat.lt_of_le_of_ne hle hfull) hx).length_le
    omega

/-- A page as long as the list has all its rows. -/
theorem mem_of_length {l : List α} (h : IsPage key (· ∈ l) limit page)
    (hlen : l.length ≤ page.length) {x : α} (hx : x ∈ l) : x ∈ page :=
  ((List.Nodup.subperm h.nodup h.sound).perm_of_length_le hlen).mem_iff.mpr hx

/-- The query computes a page. -/
theorem of_take {rows : List α} {q : α → Bool} (hrows : rows.Nodup) :
    IsPage key (fun x ↦ x ∈ rows ∧ q x = true) limit
      (((rows.filter q).insertionSort fun x y ↦ key x ≤ key y).take limit) := by
  have : Std.Total fun x y : α ↦ key x ≤ key y := ⟨fun x y ↦ le_total (key x) (key y)⟩
  have : IsTrans α fun x y ↦ key x ≤ key y := ⟨fun _ _ _ ↦ le_trans⟩
  generalize hs : (rows.filter q).insertionSort (fun x y ↦ key x ≤ key y) = sorted
  have hperm : sorted.Perm (rows.filter q) := hs ▸ List.perm_insertionSort _ _
  have hsorted : sorted.Pairwise fun x y ↦ key x ≤ key y := hs ▸ List.pairwise_insertionSort _ _
  have hmem : ∀ x, x ∈ sorted ↔ x ∈ rows ∧ q x = true := fun x ↦
    hperm.mem_iff.trans List.mem_filter
  refine ⟨hsorted.sublist (List.take_sublist _ _),
    (hperm.nodup_iff.mpr (hrows.filter q)).sublist (List.take_sublist _ _),
    fun x hx ↦ (hmem x).mp (List.mem_of_mem_take hx), List.length_take_le _ _, fun x hx ↦ ?_⟩
  -- a row beyond the page is in the rest of the sorted list
  have hx := (hmem x).mpr hx
  rw [← List.take_append_drop limit sorted] at hx hsorted
  refine (List.mem_append.mp hx).imp_right fun hx ↦ ⟨?_, fun y hy ↦ ?_⟩
  · have hlen := List.length_pos_of_mem hx
    rw [List.length_drop] at hlen
    exact List.length_take_of_le (by omega)
  · exact (List.pairwise_append.mp hsorted).2.2 y hy x hx

end IsPage

end ZenthDht
