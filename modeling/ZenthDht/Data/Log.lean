import Mathlib.Data.List.Basic

/-!
# A reader of a growing log

A log only grows at its end.  A reader that started at position `start` has got the entries `got`
and reads the entry at `next` next; when more than `cap` entries are waiting it may skip some, but
it never goes back.  So what it has got, followed by what it has yet to read, is a sublist of what
was written since it started (`Follows`), and all of it if nothing was skipped (`Caught`).
-/

namespace ZenthDht

variable {α : Type*} {log ext got got' : List α} {start next next' cap : Nat} {x : α}

/-- What a reader does: it reads one entry, or it skips entries when too many are waiting. -/
inductive Advances (cap : Nat) (log : List α) : Nat → List α → Nat → List α → Prop
  | read {next : Nat} {got : List α} {x : α} (hx : log[next]? = some x) :
      Advances cap log next got (next + 1) (got ++ [x])
  | skip {next next' : Nat} {got : List α} (hle : next ≤ next') (hle' : next' ≤ log.length)
      (hcap : cap < (log.drop next).length) : Advances cap log next got next' got

/-- What a reader has got, with what it has yet to read, is a sublist of the log since `start`. -/
structure Follows (log : List α) (start next : Nat) (got : List α) : Prop where
  start_le : start ≤ log.length
  next_le : next ≤ log.length
  sublist : (got ++ log.drop next).Sublist (log.drop start)

/-- The reader has skipped nothing. -/
def Caught (log : List α) (start next : Nat) (got : List α) : Prop :=
  got ++ log.drop next = log.drop start

namespace Follows

theorem refl (log : List α) : Follows log log.length log.length [] :=
  ⟨Nat.le_refl _, Nat.le_refl _, List.Sublist.refl _⟩

theorem append (h : Follows log start next got) (ext : List α) :
    Follows (log ++ ext) start next got := by
  have hlen : log.length ≤ (log ++ ext).length := by simp
  refine ⟨Nat.le_trans h.start_le hlen, Nat.le_trans h.next_le hlen, ?_⟩
  rw [List.drop_append_of_le_length h.next_le, List.drop_append_of_le_length h.start_le,
    ← List.append_assoc]
  exact h.sublist.append_right ext

theorem advance (h : Follows log start next got) (hr : Advances cap log next got next' got') :
    Follows log start next' got' := by
  cases hr with
  | read hx =>
      obtain ⟨hlt, rfl⟩ := List.getElem?_eq_some_iff.mp hx
      refine ⟨h.start_le, hlt, ?_⟩
      rw [List.append_assoc, List.singleton_append, ← List.drop_eq_getElem_cons hlt]
      exact h.sublist
  | skip hle hle' _ =>
      refine ⟨h.start_le, hle', List.Sublist.trans ?_ h.sublist⟩
      exact (List.drop_sublist_drop_left log hle).append_left got

end Follows

namespace Caught

theorem refl (log : List α) : Caught log log.length log.length [] := rfl

theorem append (h : Caught log start next got) (hf : Follows log start next got) (ext : List α) :
    Caught (log ++ ext) start next got := by
  unfold Caught at h ⊢
  rw [List.drop_append_of_le_length hf.next_le, List.drop_append_of_le_length hf.start_le,
    ← List.append_assoc, h]

/-- A reader that is not too far behind skips nothing. -/
theorem advance (h : Caught log start next got) (hr : Advances cap log next got next' got')
    (hcap : (log.drop next).length ≤ cap) : Caught log start next' got' := by
  cases hr with
  | read hx =>
      obtain ⟨hlt, rfl⟩ := List.getElem?_eq_some_iff.mp hx
      unfold Caught at h ⊢
      rw [List.append_assoc, List.singleton_append, ← List.drop_eq_getElem_cons hlt, h]
  | skip _ _ hlag => exact absurd hlag (Nat.not_lt.mpr hcap)

end Caught

end ZenthDht
