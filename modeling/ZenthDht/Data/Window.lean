import Mathlib.Data.List.Basic
import Mathlib.Data.List.Count

/-!
# Fixed windows that open on demand

A fixed window admits at most `max` requests.  It opens with the first request it admits, at the
instant `s`, and stays open until `s + length`; the next request after that opens a new one.  The
windows are not aligned, so two of them can meet in an interval of the same length.  But a window
that reaches into the interval of another has opened before that interval begins, with a request
of its own; so no half-open interval of the length of a window has more than `2 * max - 1` admitted
requests (`Sparse`).

`Metered` is the invariant that carries this from one request to the next, for a log of the
instants of the admitted requests and the state of the current window, `none` if there is none.
-/

namespace ZenthDht

variable {max length now now' s n : Nat} {log : List Nat} {window : Option (Nat × Nat)}

/-- In every interval of the length of a window at most `2 * max - 1` requests were admitted. -/
def Sparse (max length : Nat) (log : List Nat) : Prop :=
  ∀ a, (log.countP fun t ↦ a ≤ t ∧ t < a + length) ≤ 2 * max - 1

/-- No window is open: an interval that reaches beyond `now` has room for another window. -/
structure Rested (max length : Nat) (log : List Nat) (now : Nat) : Prop where
  past : ∀ t ∈ log, t < now
  room : ∀ a, now < a + length → (log.countP fun t ↦ a ≤ t) < max

/-- A window has been open since `s` and has admitted `n` requests, the first of them at `s`. -/
structure OpenSince (max length : Nat) (log : List Nat) (s n : Nat) : Prop where
  past : ∀ t ∈ log, t < s + length
  count : (log.countP fun t ↦ s ≤ t) ≤ n
  first : (log.countP fun t ↦ s < t) < n
  le_max : n ≤ max
  before : ∀ a, s < a + length → (log.countP fun t ↦ a ≤ t ∧ t < s) < max

/-- The log and the window belong together, at the instant `now`. -/
structure Metered (max length : Nat) (log : List Nat) (now : Nat)
    (window : Option (Nat × Nat)) : Prop where
  sparse : Sparse max length log
  rested : window = none → Rested max length log now
  opened : ∀ s n, window = some (s, n) → s ≤ now ∧ OpenSince max length log s n

theorem Rested.later (h : Rested max length log now) (hle : now ≤ now') :
    Rested max length log now' := by
  refine ⟨fun t ht ↦ ?_, fun a ha ↦ h.room a (by omega)⟩
  exact Nat.lt_of_lt_of_le (h.past t ht) hle

/-- A window whose time is over leaves room. -/
theorem OpenSince.rested (h : OpenSince max length log s n) (hover : s + length ≤ now) :
    Rested max length log now := by
  constructor
  · intro t ht
    exact Nat.lt_of_lt_of_le (h.past t ht) hover
  · intro a ha
    have hsub : (log.countP fun t ↦ a ≤ t) ≤ log.countP fun t ↦ s < t := by
      refine List.countP_mono_left fun t _ hat ↦ ?_
      simp only [decide_eq_true_eq] at hat ⊢
      omega
    have hfirst := h.first
    have hmax := h.le_max
    omega

/-- The first request of a new window. -/
theorem Rested.opens (h : Rested max length log now) (hlen : 0 < length) (hmax : 0 < max) :
    OpenSince max length (log ++ [now]) now 1 := by
  have hnone : (log.countP fun t ↦ now ≤ t) = 0 := by
    refine List.countP_eq_zero.mpr fun t ht ↦ ?_
    simpa using h.past t ht
  have hnone' : (log.countP fun t ↦ now < t) = 0 := by
    refine List.countP_eq_zero.mpr fun t ht ↦ ?_
    simpa using Nat.le_of_lt (h.past t ht)
  refine ⟨fun t ht ↦ ?_, ?_, ?_, hmax, fun a ha ↦ ?_⟩
  · rcases List.mem_append.mp ht with ht | ht
    · have := h.past t ht
      omega
    · obtain rfl := List.mem_singleton.mp ht
      omega
  · simp [hnone]
  · simp [hnone']
  · have hsub : (log.countP fun t ↦ a ≤ t ∧ t < now) ≤ log.countP fun t ↦ a ≤ t := by
      refine List.countP_mono_left fun t _ hat ↦ ?_
      simp only [decide_eq_true_eq] at hat ⊢
      exact hat.1
    have hroom := h.room a ha
    simp only [List.countP_append, List.countP_singleton, Nat.lt_irrefl, and_false, decide_false,
      Bool.false_eq_true, if_false, Nat.add_zero]
    omega

/-- Another request in an open window. -/
theorem OpenSince.admits (h : OpenSince max length log s n) (hn : n < max) (hs : s ≤ now)
    (hnow : now < s + length) : OpenSince max length (log ++ [now]) s (n + 1) := by
  have hcount := h.count
  have hfirst := h.first
  refine ⟨fun t ht ↦ ?_, ?_, ?_, hn, fun a ha ↦ ?_⟩
  · rcases List.mem_append.mp ht with ht | ht
    · exact h.past t ht
    · obtain rfl := List.mem_singleton.mp ht
      exact hnow
  · rw [List.countP_append, List.countP_singleton]
    split <;> omega
  · rw [List.countP_append, List.countP_singleton]
    split <;> omega
  · have hbefore := h.before a ha
    have hnot : ¬ (a ≤ now ∧ now < s) := by omega
    simp only [List.countP_append, List.countP_singleton, hnot, decide_false, Bool.false_eq_true,
      if_false]
    omega

/-- One more request does not crowd an interval it does not lie in. -/
theorem Sparse.snoc (h : Sparse max length log)
    (hnow : ∀ a, a ≤ now → now < a + length →
      (log.countP fun t ↦ a ≤ t ∧ t < a + length) + 1 ≤ 2 * max - 1) :
    Sparse max length (log ++ [now]) := by
  intro a
  rw [List.countP_append, List.countP_singleton]
  split
  next hin =>
    obtain ⟨ha, hlt⟩ := of_decide_eq_true hin
    exact hnow a ha hlt
  · exact h a

namespace Metered

theorem start (hmax : 0 < max) : Metered max length [] now none :=
  ⟨fun _ ↦ Nat.zero_le _, fun _ ↦ ⟨nofun, fun _ _ ↦ hmax⟩, nofun⟩

theorem later (h : Metered max length log now window) (hle : now ≤ now') :
    Metered max length log now' window := by
  refine ⟨h.sparse, fun hw ↦ (h.rested hw).later hle, fun s n hw ↦ ?_⟩
  obtain ⟨hs, hopen⟩ := h.opened s n hw
  exact ⟨Nat.le_trans hs hle, hopen⟩

/-- The window is forgotten when its time is over. -/
theorem forget (h : Metered max length log now (some (s, n))) (hover : s + length ≤ now) :
    Metered max length log now none :=
  ⟨h.sparse, fun _ ↦ (h.opened s n rfl).2.rested hover, nofun⟩

/-- A request opens a window. -/
theorem opens (h : Metered max length log now none) (hlen : 0 < length) (hmax : 0 < max) :
    Metered max length (log ++ [now]) now (some (now, 1)) := by
  have hrested := h.rested rfl
  refine ⟨h.sparse.snoc fun a _ hlt ↦ ?_, nofun, ?_⟩
  · have hsub : (log.countP fun t ↦ a ≤ t ∧ t < a + length) ≤ log.countP fun t ↦ a ≤ t := by
      refine List.countP_mono_left fun t _ hat ↦ ?_
      simp only [decide_eq_true_eq] at hat ⊢
      exact hat.1
    have hroom := hrested.room a hlt
    omega
  · rintro _ _ ⟨⟩
    exact ⟨Nat.le_refl _, hrested.opens hlen hmax⟩

/-- A request is admitted by the open window. -/
theorem admits (h : Metered max length log now (some (s, n))) (hn : n < max)
    (hnow : now < s + length) : Metered max length (log ++ [now]) now (some (s, n + 1)) := by
  obtain ⟨hs, hopen⟩ := h.opened s n rfl
  refine ⟨h.sparse.snoc fun a _ hlt ↦ ?_, nofun, ?_⟩
  · -- what is in the interval came before the window, or from the window
    have hsplit : (log.countP fun t ↦ a ≤ t ∧ t < a + length) ≤
        (log.countP fun t ↦ a ≤ t ∧ t < s) + log.countP fun t ↦ s ≤ t := by
      clear h hopen
      induction log with
      | nil => exact Nat.le_refl _
      | cons t log ih =>
          simp only [List.countP_cons, decide_eq_true_eq]
          split <;> split <;> split <;> omega
    have hbefore := hopen.before a (by omega)
    have hcount := hopen.count
    omega
  · rintro _ _ ⟨⟩
    exact ⟨hs, hopen.admits hn hs hnow⟩

end Metered

end ZenthDht
