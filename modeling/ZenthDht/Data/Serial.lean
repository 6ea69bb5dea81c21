import Mathlib.Data.List.Nodup
import Mathlib.Data.List.Perm.Subperm

/-!
# Rows numbered by a sequence

A table whose key column is filled from a sequence: keys are distinct, and below the next
value of the sequence.  Deleting, updating and reordering rows keeps this, and so does
inserting a row with the next value; a key is never used again.
-/

namespace ZenthDht

variable {α : Type}

/-- The keys of `rows` are distinct and below `next`. -/
structure Serial (key : α → Nat) (rows : List α) (next : Nat) : Prop where
  nodup : (rows.map key).Nodup
  below : ∀ x ∈ rows, key x < next

/-- Where keys are distinct, the key of a row is that of no other. -/
theorem filter_key_eq {β : Type} [DecidableEq β] {key : α → β} {rows : List α}
    (h : (rows.map key).Nodup) {x : α} (hx : x ∈ rows) :
    rows.filter (fun y ↦ key y = key x) = [x] := by
  induction rows with
  | nil => exact nomatch hx
  | cons y rows ih =>
      obtain ⟨hy, hrows⟩ := List.nodup_cons.mp h
      rcases List.mem_cons.mp hx with rfl | hx
      · have hrest : rows.filter (fun y ↦ key y = key x) = [] := by
          simp only [List.filter_eq_nil_iff, decide_eq_true_eq]
          exact fun z hz heq ↦ hy (heq ▸ List.mem_map_of_mem hz)
        simp [hrest]
      · have hne : key y ≠ key x := fun heq ↦ hy (heq ▸ List.mem_map_of_mem hx)
        simp [hne, ih hrows hx]

namespace Serial

variable {key : α → Nat} {rows rows' : List α} {next : Nat}

theorem nil : Serial key [] next := ⟨List.nodup_nil, by simp⟩

theorem eq_of_key (h : Serial key rows next) {x y : α} (hx : x ∈ rows) (hy : y ∈ rows)
    (hk : key x = key y) : x = y := List.inj_on_of_nodup_map h.nodup hx hy hk

/-- There are no more rows than values drawn from the sequence. -/
theorem length_le (h : Serial key rows next) : rows.length ≤ next := by
  have hsub : rows.map key ⊆ List.range next := by
    intro k hk
    obtain ⟨x, hx, rfl⟩ := List.mem_map.mp hk
    exact List.mem_range.mpr (h.below x hx)
  simpa using (List.subperm_of_subset h.nodup hsub).length_le

theorem sublist (h : Serial key rows next) (hs : rows'.Sublist rows) : Serial key rows' next :=
  ⟨h.nodup.sublist (hs.map key), fun x hx ↦ h.below x (hs.subset hx)⟩

theorem perm (h : Serial key rows next) (hp : rows.Perm rows') : Serial key rows' next :=
  ⟨(hp.map key).nodup_iff.mp h.nodup, fun x hx ↦ h.below x (hp.mem_iff.mpr hx)⟩

theorem le (h : Serial key rows next) {next' : Nat} (hle : next ≤ next') :
    Serial key rows next' := ⟨h.nodup, fun x hx ↦ Nat.lt_of_lt_of_le (h.below x hx) hle⟩

theorem map (h : Serial key rows next) {f : α → α} (hf : ∀ x, key (f x) = key x) :
    Serial key (rows.map f) next := by
  have hkeys : (rows.map f).map key = rows.map key := by simp [hf]
  refine ⟨hkeys ▸ h.nodup, fun x hx ↦ ?_⟩
  obtain ⟨y, hy, rfl⟩ := List.mem_map.mp hx
  rw [hf]
  exact h.below y hy

theorem snoc (h : Serial key rows next) {x : α} (hx : key x = next) :
    Serial key (rows ++ [x]) (next + 1) := by
  refine ⟨?_, fun y hy ↦ ?_⟩
  · rw [List.map_append, List.nodup_append]
    refine ⟨h.nodup, by simp, fun a ha b hb ↦ ?_⟩
    obtain ⟨y, hy, rfl⟩ := List.mem_map.mp ha
    obtain rfl := List.mem_singleton.mp hb
    rw [hx]
    exact Nat.ne_of_lt (h.below y hy)
  · rcases List.mem_append.mp hy with hy | hy
    · exact Nat.lt_succ_of_lt (h.below y hy)
    · obtain rfl := List.mem_singleton.mp hy
      omega

end Serial

end ZenthDht
