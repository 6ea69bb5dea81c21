import Mathlib.Data.List.Perm.Basic
import Mathlib.Logic.Function.Basic

/-!
# Lists without some of their entries

`Trims q l l'` says that `l` is `l'` without some entries, all of which satisfy `q`.  What does not
select entries that satisfy `q` does not notice the difference, and what changes the two lists in
the same way keeps it.  `Thins` is the same for lists that have one entry for each key, whatever
their order, and `Fades` for one optional entry.
-/

namespace ZenthDht

variable {α β : Type} {q q' : α → Prop} {l l' : List α}

/-- The first list is the second one without some entries that satisfy `q`. -/
inductive Trims (q : α → Prop) : List α → List α → Prop
  | nil : Trims q [] []
  | keep (x : α) {l l' : List α} (h : Trims q l l') : Trims q (x :: l) (x :: l')
  | drop {x : α} {l l' : List α} (hx : q x) (h : Trims q l l') : Trims q l (x :: l')

namespace Trims

theorem refl (l : List α) : Trims q l l := by
  induction l with
  | nil => exact .nil
  | cons x l ih => exact .keep x ih

theorem all {l : List α} (h : ∀ x ∈ l, q x) : Trims q [] l := by
  induction l with
  | nil => exact .nil
  | cons x l ih =>
      exact .drop (h x List.mem_cons_self) (ih fun y hy ↦ h y (List.mem_cons_of_mem _ hy))

theorem mono (h : Trims q l l') (hq : ∀ x ∈ l', q x → q' x) : Trims q' l l' := by
  induction h with
  | nil => exact .nil
  | keep x _ ih => exact .keep x (ih fun y hy ↦ hq y (List.mem_cons_of_mem _ hy))
  | drop hx _ ih =>
      exact .drop (hq _ List.mem_cons_self hx) (ih fun y hy ↦ hq y (List.mem_cons_of_mem _ hy))

theorem append {k k' : List α} (h : Trims q l l') (hk : Trims q k k') :
    Trims q (l ++ k) (l' ++ k') := by
  induction h with
  | nil => exact hk
  | keep x _ ih => exact .keep x ih
  | drop hx _ ih => exact .drop hx ih

theorem filter (h : Trims q l l') (p : α → Bool) : Trims q (l.filter p) (l'.filter p) := by
  induction h with
  | nil => exact .nil
  | @keep x l l' _ ih =>
      by_cases hp : p x = true
      · rw [List.filter_cons_of_pos hp, List.filter_cons_of_pos hp]
        exact .keep x ih
      · rw [List.filter_cons_of_neg hp, List.filter_cons_of_neg hp]
        exact ih
  | @drop x l l' hx _ ih =>
      by_cases hp : p x = true
      · rw [List.filter_cons_of_pos hp]
        exact .drop hx ih
      · rw [List.filter_cons_of_neg hp]
        exact ih

/-- Entries that satisfy `q` are removed. -/
theorem trim (h : Trims q l l') {p : α → Bool} (hp : ∀ x ∈ l, p x = false → q x) :
    Trims q (l.filter p) l' := by
  induction h with
  | nil => exact .nil
  | @keep x l l' _ ih =>
      have ih := ih fun y hy ↦ hp y (List.mem_cons_of_mem _ hy)
      cases hx : p x with
      | true =>
          rw [List.filter_cons_of_pos hx]
          exact .keep x ih
      | false =>
          rw [List.filter_cons_of_neg (Bool.eq_false_iff.mp hx)]
          exact .drop (hp x List.mem_cons_self hx) ih
  | drop hx _ ih => exact .drop hx (ih hp)

/-- What is not selected is not missed. -/
theorem filter_eq (h : Trims q l l') {p : α → Bool} (hp : ∀ x, q x → p x = false) :
    l.filter p = l'.filter p := by
  induction h with
  | nil => rfl
  | keep x _ ih => rw [List.filter_cons, List.filter_cons, ih]
  | drop hx _ ih => rw [ih, List.filter_cons_of_neg (Bool.eq_false_iff.mp (hp _ hx))]

theorem countP_eq (h : Trims q l l') {p : α → Bool} (hp : ∀ x, q x → p x = false) :
    l.countP p = l'.countP p := by
  rw [List.countP_eq_length_filter, List.countP_eq_length_filter, h.filter_eq hp]

theorem any_eq (h : Trims q l l') {p : α → Bool} (hp : ∀ x, q x → p x = false) :
    l.any p = l'.any p := by
  induction h with
  | nil => rfl
  | keep x _ ih => rw [List.any_cons, List.any_cons, ih]
  | drop hx _ ih => rw [List.any_cons, ih, hp _ hx, Bool.false_or]

/-- When the first list is reordered, so can be the second one. -/
theorem perm {k : List α} (h : Trims q l l') (hk : l.Perm k) : ∃ k', l'.Perm k' ∧ Trims q k k' := by
  have hrest : ∃ rest, l'.Perm (l ++ rest) ∧ ∀ x ∈ rest, q x := by
    induction h generalizing k with
    | nil => exact ⟨[], .refl _, nofun⟩
    | keep x _ ih =>
        obtain ⟨rest, hperm, hrest⟩ := ih (.refl _)
        exact ⟨rest, hperm.cons x, hrest⟩
    | @drop x l l' hx _ ih =>
        obtain ⟨rest, hperm, hrest⟩ := ih hk
        refine ⟨x :: rest, (hperm.cons x).trans List.perm_middle.symm, ?_⟩
        exact List.forall_mem_cons.mpr ⟨hx, hrest⟩
  obtain ⟨rest, hperm, hrest⟩ := hrest
  refine ⟨k ++ rest, hperm.trans (hk.append_right rest), ?_⟩
  simpa only [List.append_nil] using (refl k).append (all hrest)

end Trims

/-- The first list has the entries of the second one, in any order, without some that satisfy `q`;
both have one entry for each key. -/
structure Thins {κ : Type} (key : α → κ) (q : α → Prop) (l l' : List α) : Prop where
  sub : ∀ x ∈ l, x ∈ l'
  rest : ∀ x ∈ l', x ∈ l ∨ q x
  nodup : (l.map key).Nodup
  nodup' : (l'.map key).Nodup

namespace Thins

variable {κ : Type} {key : α → κ}

theorem refl (h : (l.map key).Nodup) : Thins key q l l :=
  ⟨fun _ hx ↦ hx, fun _ hx ↦ .inl hx, h, h⟩

theorem mono (h : Thins key q l l') (hq : ∀ x ∈ l', q x → q' x) : Thins key q' l l' :=
  { h with rest := fun x hx ↦ (h.rest x hx).imp_right (hq x hx) }

theorem filter (h : Thins key q l l') (p : α → Bool) :
    Thins key q (l.filter p) (l'.filter p) where
  sub x hx := List.mem_filter.mpr ((List.mem_filter.mp hx).imp_left (h.sub x))
  rest x hx := by
    obtain ⟨hx, hp⟩ := List.mem_filter.mp hx
    exact (h.rest x hx).imp_left fun hl ↦ List.mem_filter.mpr ⟨hl, hp⟩
  nodup := h.nodup.sublist (List.filter_sublist.map key)
  nodup' := h.nodup'.sublist (List.filter_sublist.map key)

/-- Entries that satisfy `q` are removed. -/
theorem trim (h : Thins key q l l') {p : α → Bool} (hp : ∀ x ∈ l, p x = false → q x) :
    Thins key q (l.filter p) l' where
  sub x hx := h.sub x (List.mem_of_mem_filter hx)
  rest x hx := by
    rcases h.rest x hx with hl | hq
    · cases hx : p x with
      | true => exact .inl (List.mem_filter.mpr ⟨hl, hx⟩)
      | false => exact .inr (hp x hl hx)
    · exact .inr hq
  nodup := h.nodup.sublist (List.filter_sublist.map key)
  nodup' := h.nodup'

theorem perm {k : List α} (h : Thins key q l l') (hk : l.Perm k) : Thins key q k l' where
  sub x hx := h.sub x (hk.mem_iff.mpr hx)
  rest x hx := (h.rest x hx).imp_left hk.mem_iff.mp
  nodup := (hk.map key).nodup_iff.mp h.nodup
  nodup' := h.nodup'

/-- The entry of a key is the only one. -/
theorem eq_singleton {d : κ} {x : α} (hnodup : (l.map key).Nodup) (hd : ∀ y ∈ l, key y = d)
    (hx : x ∈ l) : l = [x] := by
  cases l with
  | nil => exact absurd hx List.not_mem_nil
  | cons y l =>
      cases l with
      | nil => rw [List.mem_singleton.mp hx]
      | cons z l =>
          refine absurd ?_ (List.nodup_cons.mp hnodup).1
          rw [hd y List.mem_cons_self, ← hd z (List.mem_cons_of_mem _ List.mem_cons_self)]
          exact List.mem_cons_self

/-- What is looked up under a key and not missing is found. -/
theorem filter_eq (h : Thins key q l l') {p : α → Bool} {d : κ} (hp : ∀ x, q x → p x = false)
    (hd : ∀ x, p x = true → key x = d) : l.filter p = l'.filter p := by
  have hmem (x : α) : x ∈ l.filter p ↔ x ∈ l'.filter p := by
    refine ⟨fun hx ↦ List.mem_filter.mpr ((List.mem_filter.mp hx).imp_left (h.sub x)), ?_⟩
    intro hx
    obtain ⟨hx, hpx⟩ := List.mem_filter.mp hx
    refine List.mem_filter.mpr ⟨(h.rest x hx).resolve_right fun hq ↦ ?_, hpx⟩
    exact absurd hpx (by rw [hp x hq]; exact Bool.false_ne_true)
  have hkey (k : List α) : ∀ x ∈ k.filter p, key x = d :=
    fun x hx ↦ hd x (List.mem_filter.mp hx).2
  cases hl : l.filter p with
  | nil =>
      symm
      refine List.eq_nil_iff_forall_not_mem.mpr fun x hx ↦ ?_
      exact List.not_mem_nil (hl ▸ (hmem x).mpr hx)
  | cons x k =>
      have hx : x ∈ l.filter p := hl ▸ List.mem_cons_self
      rw [← hl, eq_singleton (h.filter p).nodup (hkey l) hx,
        eq_singleton (h.filter p).nodup' (hkey l') ((hmem x).mp hx)]

end Thins

/-- An entry that is the same on both sides, or missing on the left and with the property `q` on the
right. -/
def Fades (q : α → Prop) (a b : Option α) : Prop := a = b ∨ a = none ∧ ∃ x, b = some x ∧ q x

namespace Fades

variable {a b : Option α}

theorem refl (a : Option α) : Fades q a a := .inl rfl

theorem mono (h : Fades q a b) (hq : ∀ x, q x → q' x) : Fades q' a b :=
  h.imp_right fun ⟨ha, x, hb, hx⟩ ↦ ⟨ha, x, hb, hq x hx⟩

theorem filter (h : Fades q a b) (p : α → Bool) : Fades q (a.filter p) (b.filter p) := by
  rcases h with rfl | ⟨rfl, x, rfl, hx⟩
  · exact refl _
  rw [Option.filter_none, Option.filter_some]
  split
  · exact .inr ⟨rfl, x, rfl, hx⟩
  · exact refl _

theorem trim (h : Fades q a b) {p : α → Bool} (hp : ∀ x, p x = false → q x) :
    Fades q (a.filter p) b := by
  rcases h with rfl | ⟨rfl, x, rfl, hx⟩
  · cases a with
    | none => exact refl _
    | some x =>
        cases hx : p x with
        | true => rw [Option.filter_some, if_pos hx]; exact refl _
        | false =>
            rw [Option.filter_some, if_neg (Bool.eq_false_iff.mp hx)]
            exact .inr ⟨rfl, x, rfl, hp x hx⟩
  · exact .inr ⟨Option.filter_none _, x, rfl, hx⟩

theorem filter_eq (h : Fades q a b) {p : α → Bool} (hp : ∀ x, q x → p x = false) :
    a.filter p = b.filter p := by
  rcases h with rfl | ⟨rfl, x, rfl, hx⟩
  · rfl
  · rw [Option.filter_none, Option.filter_some, if_neg (Bool.eq_false_iff.mp (hp x hx))]

/-- The same entry is put into both maps. -/
theorem update {κ : Type} [DecidableEq κ] {m m' : κ → Option α} (h : ∀ k, Fades q (m k) (m' k))
    (i : κ) (v : Option α) (k : κ) :
    Fades q (Function.update m i v k) (Function.update m' i v k) := by
  by_cases hk : k = i
  · subst hk
    rw [Function.update_self, Function.update_self]
    exact refl v
  · rw [Function.update_of_ne hk, Function.update_of_ne hk]
    exact h k

end Fades

end ZenthDht
