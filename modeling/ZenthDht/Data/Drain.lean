import Mathlib.Data.Set.Basic
import Mathlib.Data.List.Nodup

/-!
# Draining a set

A set is emptied in rounds: each takes a page of elements out of it and says whether it was done,
and nothing is put in meanwhile, though elements that do not last may leave by themselves.  The
pages do not overlap; once a round is done every lasting element has been on a page; and there are
no more rounds that are not done than elements.
-/

namespace ZenthDht

variable {α : Type} {L M M' : Set α} {rounds : List (List α × Bool)} {x : α}

/-- The rounds that lead from one set to another, of which the elements of `L` last. -/
inductive Drains (L : Set α) : Set α → List (List α × Bool) → Set α → Prop
  | nil (M : Set α) : Drains L M [] M
  | idle {M M₁ M' : Set α} {rounds : List (List α × Bool)} (hsub : M₁ ⊆ M)
      (hkeep : ∀ x ∈ M, x ∈ L → x ∈ M₁) (hrest : Drains L M₁ rounds M') : Drains L M rounds M'
  | round {M M' : Set α} {page : List α} {done : Bool} {rounds : List (List α × Bool)}
      (hnodup : page.Nodup) (hmem : ∀ x ∈ page, x ∈ M) (hmore : done = false → page ≠ [])
      (hdone : done = true → ∀ x ∈ M, x ∈ L → x ∈ page)
      (hrest : Drains L {x ∈ M | x ∉ page} rounds M') : Drains L M ((page, done) :: rounds) M'

/-- What the rounds have taken out. -/
def drained (rounds : List (List α × Bool)) : List α := rounds.flatMap Prod.fst

@[simp] theorem drained_cons (page : List α) (done : Bool) (rounds : List (List α × Bool)) :
    drained ((page, done) :: rounds) = page ++ drained rounds := List.flatMap_cons

namespace Drains

theorem mem_of_drained (h : Drains L M rounds M') (hx : x ∈ drained rounds) : x ∈ M := by
  induction h with
  | nil M => exact nomatch hx
  | idle hsub _ _ ih => exact hsub (ih hx)
  | round _ hmem _ _ _ ih =>
      rw [drained_cons] at hx
      rcases List.mem_append.mp hx with hx | hx
      · exact hmem x hx
      · exact (ih hx).1

/-- Nothing is taken out twice. -/
theorem nodup (h : Drains L M rounds M') : (drained rounds).Nodup := by
  induction h with
  | nil M => exact List.nodup_nil
  | idle _ _ _ ih => exact ih
  | round hnodup _ _ _ hrest ih =>
      rw [drained_cons, List.nodup_append]
      refine ⟨hnodup, ih, fun x hx y hy hxy ↦ ?_⟩
      exact (hrest.mem_of_drained hy).2 (hxy ▸ hx)

/-- When a round is done, everything that lasts has been taken out. -/
theorem complete (h : Drains L M rounds M') (hdone : ∃ r ∈ rounds, r.2 = true) (hx : x ∈ M)
    (hlasts : x ∈ L) : x ∈ drained rounds := by
  induction h with
  | nil M =>
      obtain ⟨r, hr, -⟩ := hdone
      exact nomatch hr
  | idle _ hkeep _ ih => exact ih hdone (hkeep x hx hlasts)
  | @round M M' page done rounds _ _ _ hall _ ih =>
      rw [drained_cons, List.mem_append]
      by_cases hpage : x ∈ page
      · exact .inl hpage
      refine .inr (ih ?_ ⟨hx, hpage⟩)
      obtain ⟨r, hr, hd⟩ := hdone
      rcases List.mem_cons.mp hr with rfl | hr
      · exact absurd (hall hd x hx hlasts) hpage
      · exact ⟨r, hr, hd⟩

/-- Every round that is not done takes something out. -/
theorem length_le (h : Drains L M rounds M') (hmore : ∀ r ∈ rounds, r.2 = false) :
    rounds.length ≤ (drained rounds).length := by
  induction h with
  | nil M => exact Nat.le_refl 0
  | idle _ _ _ ih => exact ih hmore
  | @round M M' page done rounds _ _ hpage _ _ ih =>
      have hne := hpage (hmore _ List.mem_cons_self)
      have hpos := List.length_pos_of_ne_nil hne
      have hrest := ih fun r hr ↦ hmore r (List.mem_cons_of_mem _ hr)
      rw [drained_cons, List.length_append, List.length_cons]
      omega

end Drains

end ZenthDht
