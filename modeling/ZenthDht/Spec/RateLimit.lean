import ZenthDht.Data.Window
import ZenthDht.Model.RateLimit

/-!
# What a rate limiter does

A limiter is one fixed window for each slot, the first 32 bytes of a key: a call changes the slot
of its key only (`isAllowed_map_of_ne`), and in its slot it either admits the request, in the open
window or in a new one, or leaves everything as it is (`isAllowed_cases`).
-/

namespace ZenthDht

/-- Nanoseconds of a number of seconds. -/
def nanos (secs : Nat) : Nat := secs * 1000000000

theorem le_elapsedSecs {secs since now : Nat} (hsecs : 0 < secs) :
    secs ≤ elapsedSecs since now ↔ since + nanos secs ≤ now := by
  rw [elapsedSecs, Nat.le_div_iff_mul_le (by decide), nanos]
  omega

namespace KeyRateLimiter

variable {l : KeyRateLimiter} {now : Nat} {key k : Bytes} {log : List Nat}

/-- The length of a window. -/
def length (l : KeyRateLimiter) : Nat := nanos l.windowSecs.toNat

@[simp] theorem new_map (max : Nat) (window : UInt64) : (new max window).map k = none := rfl

@[simp] theorem new_maxRequests (max : Nat) (window : UInt64) :
    (new max window).maxRequests = max := rfl

@[simp] theorem new_windowSecs (max : Nat) (window : UInt64) :
    (new max window).windowSecs = window := rfl

@[simp] theorem new_length (max : Nat) (window : UInt64) :
    (new max window).length = nanos window.toNat := rfl

@[simp] theorem isAllowed_maxRequests : (l.isAllowed now key).2.maxRequests = l.maxRequests := by
  unfold isAllowed
  dsimp only
  repeat' split
  all_goals rfl

@[simp] theorem isAllowed_windowSecs : (l.isAllowed now key).2.windowSecs = l.windowSecs := by
  unfold isAllowed
  dsimp only
  repeat' split
  all_goals rfl

theorem isAllowed_map_of_ne (hk : slot key ≠ k) : (l.isAllowed now key).2.map k = l.map k := by
  unfold isAllowed
  dsimp only
  repeat' split
  · rfl
  all_goals exact Function.update_of_ne (Ne.symm hk) _ _

/-- What a call does in its own slot. -/
inductive Asked (l : KeyRateLimiter) (now : Nat) (key : Bytes) :
    Bool → Option (Nat × Nat) → Prop
  | refused : Asked l now key false (l.map (slot key))
  | first (hnone : l.map (slot key) = none) : Asked l now key true (some (now, 1))
  | opens (s n : Nat) (hsome : l.map (slot key) = some (s, n)) (hover : s + l.length ≤ now) :
      Asked l now key true (some (now, 1))
  | admits (s n : Nat) (hsome : l.map (slot key) = some (s, n)) (hn : n < l.maxRequests)
      (hopen : now < s + l.length) : Asked l now key true (some (s, n + 1))

theorem isAllowed_cases (now : Nat) (key : Bytes) (hmax : 0 < l.maxRequests)
    (hw : 0 < l.windowSecs.toNat) :
    Asked l now key (l.isAllowed now key).1 ((l.isAllowed now key).2.map (slot key)) := by
  by_cases hkey : key = []
  · rw [isAllowed, if_pos hkey]
    exact .refused
  cases hl : l.map (slot key) with
  | none =>
      have hfirst : ¬ l.windowSecs.toNat ≤ elapsedSecs now now := by
        simp only [elapsedSecs, Nat.sub_self, Nat.zero_div]
        omega
      simp only [isAllowed, if_neg hkey, hl, Option.getD_none, if_neg hfirst, if_pos hmax,
        Function.update_self]
      exact .first hl
  | some e =>
      obtain ⟨s, n⟩ := e
      simp only [isAllowed, if_neg hkey, hl, Option.getD_some, le_elapsedSecs hw]
      split
      next hover =>
        simp only [Function.update_self]
        exact .opens s n hl hover
      next hover =>
      split
      next hn =>
        simp only [Function.update_self]
        exact .admits s n hl hn (Nat.lt_of_not_le hover)
      · simp only [Function.update_self, ← hl]
        exact .refused

/-- Without a window, or after it is over, a request opens one. -/
theorem isAllowed_of_over (hkey : key ≠ []) (hmax : 0 < l.maxRequests)
    (hw : 0 < l.windowSecs.toNat)
    (hover : ∀ s n, l.map (slot key) = some (s, n) → s + l.length ≤ now) :
    l.isAllowed now key =
      (true, { l with map := Function.update l.map (slot key) (some (now, 1)) }) := by
  cases hl : l.map (slot key) with
  | none =>
      have hfirst : ¬ l.windowSecs.toNat ≤ elapsedSecs now now := by
        simp only [elapsedSecs, Nat.sub_self, Nat.zero_div]
        omega
      simp only [isAllowed, if_neg hkey, hl, Option.getD_none, if_neg hfirst, if_pos hmax,
        Nat.zero_add]
  | some e =>
      have hle := (le_elapsedSecs hw).mpr (hover e.1 e.2 hl)
      simp only [isAllowed, if_neg hkey, hl, Option.getD_some, if_pos hle]

/-- An open window admits requests while it has room. -/
theorem isAllowed_of_open (hkey : key ≠ []) (hw : 0 < l.windowSecs.toNat) {s n : Nat}
    (hl : l.map (slot key) = some (s, n)) (hn : n < l.maxRequests) (hopen : now < s + l.length) :
    l.isAllowed now key =
      (true, { l with map := Function.update l.map (slot key) (some (s, n + 1)) }) := by
  have hlt : ¬ l.windowSecs.toNat ≤ elapsedSecs s now := by
    rw [le_elapsedSecs hw]
    exact Nat.not_le.mpr hopen
  simp only [isAllowed, if_neg hkey, hl, Option.getD_some, if_neg hlt, if_pos hn]

/-- A call that is refused changes nothing. -/
theorem isAllowed_map_of_refused (hmax : 0 < l.maxRequests) (hw : 0 < l.windowSecs.toNat)
    (hno : (l.isAllowed now key).1 = false) : (l.isAllowed now key).2.map k = l.map k := by
  by_cases hk : slot key = k
  · subst hk
    have hcases := isAllowed_cases now key hmax hw
    generalize (l.isAllowed now key).2.map (slot key) = e at hcases ⊢
    rw [hno] at hcases
    cases hcases with
    | refused => rfl
  · exact isAllowed_map_of_ne hk

/-- A call and its answer, in the terms of a window. -/
theorem metered_isAllowed (key : Bytes) (hmax : 0 < l.maxRequests) (hw : 0 < l.windowSecs.toNat)
    (h : Metered l.maxRequests l.length log now (l.map k)) :
    Metered l.maxRequests l.length
      (log ++ if (l.isAllowed now key).1 = true ∧ slot key = k then [now] else []) now
      ((l.isAllowed now key).2.map k) := by
  have hlen : 0 < l.length := Nat.mul_pos hw (by decide)
  by_cases hk : slot key = k
  · subst hk
    have hcases := isAllowed_cases now key hmax hw
    generalize (l.isAllowed now key).2.map (slot key) = e at hcases ⊢
    generalize (l.isAllowed now key).1 = b at hcases ⊢
    cases hcases with
    | refused => simpa using h
    | first hnone =>
        rw [hnone] at h
        simpa using h.opens hlen hmax
    | opens s n hsome hover =>
        rw [hsome] at h
        simpa using (h.forget hover).opens hlen hmax
    | admits s n hsome hn hopen =>
        rw [hsome] at h
        simpa using h.admits hn hopen
  · rw [isAllowed_map_of_ne hk, if_neg fun h ↦ hk h.2, List.append_nil]
    exact h

/-- Twice the window does not overflow. -/
theorem toNat_mul_two (hfit : l.windowSecs.toNat < 2 ^ 63) :
    (l.windowSecs * 2).toNat = l.windowSecs.toNat * 2 := by
  rw [UInt64.toNat_mul]
  exact Nat.mod_eq_of_lt (by simp only [UInt64.reduceToNat]; omega)

/-- A cleanup forgets only windows whose time is over. -/
theorem metered_cleanup (hfit : l.windowSecs.toNat < 2 ^ 63) (hw : 0 < l.windowSecs.toNat)
    (h : Metered l.maxRequests l.length log now (l.map k)) :
    Metered l.maxRequests l.length log now ((l.cleanup now).map k) := by
  unfold cleanup
  dsimp only
  cases hl : l.map k with
  | none =>
      rw [Option.filter_none, ← hl]
      exact h
  | some e =>
      obtain ⟨s, n⟩ := e
      rw [Option.filter_some]
      split
      · rw [← hl]
        exact h
      next hold =>
        rw [hl] at h
        refine h.forget ((le_elapsedSecs hw).mp ?_)
        simp only [decide_eq_true_eq, toNat_mul_two hfit] at hold
        omega

end KeyRateLimiter

end ZenthDht
