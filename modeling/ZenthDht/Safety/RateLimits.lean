import ZenthDht.Spec.Memory
import ZenthDht.Spec.RateLimit
import Mathlib.Data.UInt

/-!
# How much a rate limiter admits

In every half-open interval of the length of its window a limiter admits at most
`2 * max_requests - 1` requests of a slot, it can be made to admit that many, and the requests of
other slots do not matter.  For the limiters of messages this is one request, so the large
messages of one sender are admitted a window apart.

The cleanup removes the entries that are older than two windows, and in a release build the
product that says so wraps.  From `2 ^ 63` seconds on it removes entries of windows that are still
open; below, all of this holds (`limiter_bound_iff`).
-/

namespace ZenthDht

open Conc

/-! ## Sequences of calls -/

inductive LimiterCall
  | isAllowed (key : Bytes)
  | cleanup
deriving DecidableEq

namespace KeyRateLimiter

/-- A call, with its instant. -/
abbrev Calls : Type := List (Nat × LimiterCall)

def step (l : KeyRateLimiter) : Nat × LimiterCall → KeyRateLimiter
  | (now, .isAllowed key) => (l.isAllowed now key).2
  | (now, .cleanup) => l.cleanup now

/-- The limiter after a sequence of calls. -/
def after (l : KeyRateLimiter) (calls : Calls) : KeyRateLimiter := calls.foldl step l

/-- What a limiter answers to a call: the instant, the key and the answer. -/
def answer (l : KeyRateLimiter) : Nat × LimiterCall → List (Nat × Bytes × Bool)
  | (now, .isAllowed key) => [(now, key, (l.isAllowed now key).1)]
  | (_, .cleanup) => []

/-- What a limiter answers to a sequence of calls. -/
def answers : KeyRateLimiter → Calls → List (Nat × Bytes × Bool)
  | _, [] => []
  | l, call :: calls => l.answer call ++ (l.step call).answers calls

/-- The instants at which requests of the slot `k` were admitted. -/
def admitted (k : Bytes) (answers : List (Nat × Bytes × Bool)) : List Nat :=
  (answers.filter fun x ↦ x.2.2 && slot x.2.1 = k).map Prod.fst

/-- The instants do not decrease. -/
def Ordered (calls : Calls) : Prop := calls.Pairwise fun x y ↦ x.1 ≤ y.1

/-- At most `2 * max - 1` requests of a slot are admitted in any interval of the window. -/
def Bounded (max : Nat) (window : UInt64) : Prop :=
  ∀ calls k, Ordered calls →
    Sparse max (nanos window.toNat) (admitted k ((new max window).answers calls))

/-- That many can be admitted. -/
def Attained (max : Nat) (window : UInt64) : Prop :=
  ∃ calls k a, Ordered calls ∧ ((admitted k ((new max window).answers calls)).countP fun t ↦
    a ≤ t ∧ t < a + nanos window.toNat) = 2 * max - 1

/-- A call that can change the slot `k`, or asks for it. -/
def concerns (k : Bytes) : Nat × LimiterCall → Bool
  | (_, .isAllowed key) => slot key = k
  | (_, .cleanup) => true

/-- Without the calls of other slots the answers are the same. -/
def Independent (max : Nat) (window : UInt64) : Prop :=
  ∀ calls k, ((new max window).answers calls).filter (fun x ↦ slot x.2.1 = k) =
    (new max window).answers (calls.filter (concerns k))

variable {l l' : KeyRateLimiter} {calls calls' : Calls} {key k : Bytes} {now : Nat}
variable {log : List Nat}

theorem answers_append : l.answers (calls ++ calls') =
    l.answers calls ++ (l.after calls).answers calls' := by
  induction calls generalizing l with
  | nil => rfl
  | cons call calls ih =>
      simp only [List.cons_append, answers, ih, List.append_assoc]
      rfl

theorem admitted_append (xs ys : List (Nat × Bytes × Bool)) :
    admitted k (xs ++ ys) = admitted k xs ++ admitted k ys := by
  simp [admitted]

@[simp] theorem step_maxRequests (call : Nat × LimiterCall) :
    (l.step call).maxRequests = l.maxRequests := by
  obtain ⟨now, key | -⟩ := call
  · exact isAllowed_maxRequests
  · rfl

@[simp] theorem step_windowSecs (call : Nat × LimiterCall) :
    (l.step call).windowSecs = l.windowSecs := by
  obtain ⟨now, key | -⟩ := call
  · exact isAllowed_windowSecs
  · rfl

@[simp] theorem after_maxRequests : (l.after calls).maxRequests = l.maxRequests := by
  induction calls generalizing l with
  | nil => rfl
  | cons call calls ih => exact ih.trans (step_maxRequests call)

@[simp] theorem after_windowSecs : (l.after calls).windowSecs = l.windowSecs := by
  induction calls generalizing l with
  | nil => rfl
  | cons call calls ih => exact ih.trans (step_windowSecs call)

@[simp] theorem after_length : (l.after calls).length = l.length := by simp [length]

/-! ## The bound -/

/-- One call, in the terms of a window. -/
theorem metered_step (hmax : 0 < l.maxRequests) (hw : 0 < l.windowSecs.toNat)
    (hfit : l.windowSecs.toNat < 2 ^ 63) {call : Nat × LimiterCall} (hnow : now ≤ call.1)
    (h : Metered l.maxRequests l.length log now (l.map k)) :
    Metered l.maxRequests l.length (log ++ admitted k (l.answer call)) call.1
      ((l.step call).map k) := by
  obtain ⟨now', key | -⟩ := call
  · have hstep := metered_isAllowed key hmax hw (h.later hnow)
    simp only [answer, admitted, List.filter_cons, List.filter_nil, Bool.and_eq_true,
      decide_eq_true_eq]
    split at hstep
    next hyes => rwa [if_pos hyes]
    next hno => rwa [if_neg hno]
  · rw [answer, admitted, List.filter_nil, List.map_nil, List.append_nil]
    exact metered_cleanup hfit hw (h.later hnow)

/-- All calls, from any state of the window. -/
theorem sparse_answers (hmax : 0 < l.maxRequests) (hw : 0 < l.windowSecs.toNat)
    (hfit : l.windowSecs.toNat < 2 ^ 63) (hord : Ordered calls) (hnow : ∀ x ∈ calls, now ≤ x.1)
    (h : Metered l.maxRequests l.length log now (l.map k)) :
    Sparse l.maxRequests l.length (log ++ admitted k (l.answers calls)) := by
  induction calls generalizing l log now with
  | nil => simpa [answers, admitted] using h.sparse
  | cons call calls ih =>
      obtain ⟨hfirst, hrest⟩ := List.pairwise_cons.mp hord
      have hstep := metered_step hmax hw hfit (hnow call List.mem_cons_self) h
      have hlen : (l.step call).length = l.length := by simp [length]
      rw [answers, admitted_append, ← List.append_assoc]
      have hall := @ih (l.step call) call.1 (log ++ admitted k (l.answer call))
        (by simpa using hmax) (by simpa using hw) (by simpa using hfit) hrest hfirst
        (by simpa [hlen] using hstep)
      simpa [hlen] using hall

theorem bounded {max : Nat} {window : UInt64} (hmax : 0 < max) (hw : 0 < window.toNat)
    (hfit : window.toNat < 2 ^ 63) : Bounded max window := by
  intro calls k hord
  have hstart : Metered max (nanos window.toNat) [] 0 none := .start hmax
  exact sparse_answers (l := new max window) hmax hw hfit hord (fun _ _ ↦ Nat.zero_le _) hstart

/-! ## Filling a window -/

/-- As many requests of one key, at one instant. -/
def asks (key : Bytes) (j now : Nat) : Calls := List.replicate j (now, .isAllowed key)

theorem answers_open (now : Nat) {s n j : Nat} (hkey : key ≠ []) (hw : 0 < l.windowSecs.toNat)
    (hl : l.map (slot key) = some (s, n)) (hn : n + j ≤ l.maxRequests)
    (hopen : now < s + l.length) :
    l.answers (asks key j now) = List.replicate j (now, key, true) ∧
      (l.after (asks key j now)).map (slot key) = some (s, n + j) := by
  induction j generalizing l n with
  | zero => exact ⟨rfl, hl⟩
  | succ j ih =>
      have hstep := isAllowed_of_open hkey hw hl (by omega) hopen
      have hrest := ih (l := l.step (now, .isAllowed key)) (n := n + 1) (by simpa using hw)
        (by simp [step, hstep]) (by simp; omega) (by simpa [length] using hopen)
      rw [asks, List.replicate_succ, answers, after, List.foldl_cons, ← asks, hrest.1]
      refine ⟨?_, ?_⟩
      · simp [answer, hstep, List.replicate_succ]
      · rw [show n + (j + 1) = n + 1 + j by omega]
        exact hrest.2

/-- A new window is filled with `max_requests` requests. -/
theorem answers_full (now : Nat) {j : Nat} (hkey : key ≠ []) (hw : 0 < l.windowSecs.toNat)
    (hj : 0 < j) (hle : j ≤ l.maxRequests)
    (hover : ∀ s n, l.map (slot key) = some (s, n) → s + l.length ≤ now) :
    l.answers (asks key j now) = List.replicate j (now, key, true) ∧
      (l.after (asks key j now)).map (slot key) = some (now, j) := by
  obtain ⟨i, rfl⟩ := Nat.exists_eq_add_one_of_ne_zero hj.ne'
  have hstep := isAllowed_of_over hkey (by omega) hw hover
  have hpos : 0 < l.length := Nat.mul_pos hw (by decide)
  have hrest := answers_open now (l := l.step (now, .isAllowed key)) (s := now) (n := 1)
    (j := i) hkey (by simpa using hw) (by simp [step, hstep]) (by simp; omega)
    (by simpa [length] using hpos)
  rw [asks, List.replicate_succ, answers, after, List.foldl_cons, ← asks, hrest.1]
  refine ⟨?_, ?_⟩
  · simp [answer, hstep, List.replicate_succ]
  · rw [Nat.add_comm i 1]
    exact hrest.2

theorem admitted_replicate (j : Nat) :
    admitted (slot key) (List.replicate j (now, key, true)) = List.replicate j now := by
  simp [admitted]

theorem ordered_replicate (j : Nat) (call : LimiterCall) :
    Ordered (List.replicate j (now, call)) :=
  List.pairwise_replicate.mpr (.inr (Nat.le_refl _))

theorem countP_replicate_within {a b j : Nat} (ha : a ≤ now) (hb : now < b) :
    ((List.replicate j now).countP fun t ↦ a ≤ t ∧ t < b) = j := by
  simp [List.countP_replicate, ha, hb]

/-- One request opens a window, the rest of the window is used up just before it is over, and the
next one is filled right away. -/
theorem attained {max : Nat} {window : UInt64} (hmax : 0 < max) (hw : 0 < window.toNat) :
    Attained max window := by
  have hkey : ([1] : Bytes) ≠ [] := nofun
  have hlong : 1 < nanos window.toNat :=
    Nat.lt_of_lt_of_le (by decide) (Nat.le_mul_of_pos_left _ hw)
  obtain ⟨hans₁, hmap₁⟩ := answers_full 0 (l := new max window) hkey hw Nat.one_pos hmax
    nofun
  obtain ⟨hans₂, hmap₂⟩ := answers_open (nanos window.toNat - 1) (j := max - 1) hkey
    (by simpa using hw) hmap₁ (by simp; omega) (by simp; omega)
  obtain ⟨hans₃, -⟩ := answers_full (nanos window.toNat) (j := max)
    (l := ((new max window).after (asks [1] 1 0)).after
      (asks [1] (max - 1) (nanos window.toNat - 1))) hkey (by simpa using hw) hmax (by simp)
    fun s n hs ↦ by
      obtain ⟨rfl, -⟩ := Prod.mk.inj (Option.some.inj (hs.symm.trans hmap₂))
      simp
  refine ⟨asks [1] 1 0 ++ (asks [1] (max - 1) (nanos window.toNat - 1) ++
    asks [1] max (nanos window.toNat)), slot [1], nanos window.toNat - 1, ?_, ?_⟩
  · refine List.pairwise_append.mpr ⟨ordered_replicate _ _, List.pairwise_append.mpr
      ⟨ordered_replicate _ _, ordered_replicate _ _, ?_⟩, ?_⟩
    · intro x hx y hy
      obtain rfl := List.eq_of_mem_replicate hx
      obtain rfl := List.eq_of_mem_replicate hy
      exact Nat.sub_le _ _
    · intro x hx y _
      obtain rfl := List.eq_of_mem_replicate hx
      exact Nat.zero_le _
  · have hfirst : ((List.replicate 1 0).countP fun t ↦ nanos window.toNat - 1 ≤ t ∧
        t < nanos window.toNat - 1 + nanos window.toNat) = 0 := by
      simp
      omega
    simp only [answers_append, hans₁, hans₂, hans₃, admitted_append, admitted_replicate,
      List.countP_append, hfirst]
    rw [countP_replicate_within (by omega) (by omega), countP_replicate_within (by omega) (by omega)]
    omega

/-! ## The cleanup -/

/-- A cleanup of a window that has outlived the wrapped product forgets it while it is open. -/
theorem not_bounded {max : Nat} {window : UInt64} (hmax : 0 < max)
    (hfit : 2 ^ 63 ≤ window.toNat) : ¬ Bounded max window := by
  intro hbounded
  have hkey : ([1] : Bytes) ≠ [] := (by simp)
  have hw : 0 < window.toNat := Nat.lt_of_lt_of_le (by decide) hfit
  let early : Nat := (window * 2).toNat
  have hearly : early < window.toNat := by
    have hlt := window.toNat_lt
    simp only [early, UInt64.toNat_mul, UInt64.reduceToNat]
    omega
  have hwithin : nanos early < nanos window.toNat := Nat.mul_lt_mul_of_pos_right hearly (by decide)
  obtain ⟨hans₁, hmap₁⟩ := answers_full 0 (l := new max window) hkey hw hmax
    (Nat.le_refl _) (by simp)
  have hgone : (((new max window).after (asks [1] max 0)).cleanup (nanos early)).map (slot [1]) =
      none := by
    have helapsed : elapsedSecs 0 (nanos early) = early := by
      rw [elapsedSecs, Nat.sub_zero, nanos, Nat.mul_div_cancel _ (by decide)]
    simp only [cleanup, hmap₁, Option.filter_some, after_windowSecs, new_windowSecs, helapsed]
    simp [early]
  obtain ⟨hans₂, -⟩ := answers_full (nanos early) (j := max)
    (l := ((new max window).after (asks [1] max 0)).cleanup (nanos early)) hkey
    (by simpa [cleanup] using hw) hmax (by simp [cleanup]) fun s n hs ↦ by
      rw [hgone] at hs
      cases hs
  have hsparse := hbounded (asks [1] max 0 ++ ((nanos early, .cleanup) ::
    asks [1] max (nanos early))) (slot [1]) ?_ 0
  · simp only [answers_append, answers, answer, step, hans₁, hans₂, List.nil_append,
      admitted_append, admitted_replicate, List.countP_append] at hsparse
    rw [countP_replicate_within (by omega) (by omega),
      countP_replicate_within (by omega) (by omega)] at hsparse
    omega
  · refine List.pairwise_append.mpr ⟨ordered_replicate _ _, List.pairwise_cons.mpr
      ⟨fun y hy ↦ ?_, ordered_replicate _ _⟩, fun x hx y _ ↦ ?_⟩
    · obtain rfl := List.eq_of_mem_replicate hy
      exact Nat.le_refl _
    · obtain rfl := List.eq_of_mem_replicate hx
      exact Nat.zero_le _

/-- The bound holds as long as twice the window fits into 64 bits. -/
theorem bounded_iff {max : Nat} {window : UInt64} (hmax : 0 < max) (hw : 0 < window.toNat) :
    Bounded max window ↔ window.toNat < 2 ^ 63 := by
  constructor
  · intro h
    by_contra hfit
    exact not_bounded hmax (Nat.le_of_not_lt hfit) h
  · exact bounded hmax hw

/-! ## Other slots -/

/-- Limiters that agree on a slot answer its calls alike, and agree on it afterwards. -/
theorem answers_agree (hk : l.map k = l'.map k) (hmax : l.maxRequests = l'.maxRequests)
    (hw : l.windowSecs = l'.windowSecs) :
    (l.answers calls).filter (fun x ↦ slot x.2.1 = k) =
      l'.answers (calls.filter (concerns k)) := by
  induction calls generalizing l l' with
  | nil => rfl
  | cons call calls ih =>
      obtain ⟨now, key | -⟩ := call
      · by_cases hkey : slot key = k
        · -- both limiters see the call, and the same window
          subst hkey
          have hans : (l.isAllowed now key).1 = (l'.isAllowed now key).1 ∧
              (l.isAllowed now key).2.map (slot key) = (l'.isAllowed now key).2.map (slot key) := by
            simp only [isAllowed, hk, hmax, hw]
            repeat' split
            all_goals simp [hk]
          have hrest := @ih (l.isAllowed now key).2 (l'.isAllowed now key).2 hans.2
            (by simpa using hmax) (by simpa using hw)
          simp only [answers, answer, step, concerns, List.singleton_append, List.filter_cons,
            decide_true, if_true, hans.1, hrest]
        · have hrest := @ih (l.isAllowed now key).2 l'
            ((isAllowed_map_of_ne hkey).trans hk) (by simpa using hmax) (by simpa using hw)
          simp only [answers, answer, step, concerns, List.singleton_append, List.filter_cons, hkey,
            decide_false, Bool.false_eq_true, if_false, hrest]
      · have hrest := @ih (l.cleanup now) (l'.cleanup now)
          (by simp only [cleanup, hk, hw]) hmax hw
        simp only [answers, answer, step, concerns, List.nil_append, List.filter_cons, if_true,
          hrest]

theorem independent (max : Nat) (window : UInt64) : Independent max window :=
  fun _ _ ↦ answers_agree rfl rfl rfl

end KeyRateLimiter

/-! ## The limiters of the server -/

/-- The instant at which a move admits a request of the slot `k` to the limiter `l`. -/
def admits (l : LimiterId) (k : Bytes) (c : State) : Move Job Oracle Act → Option Nat
  | .step t _ =>
    match c.performs t with
    | some (_, .limiter l' key) =>
      if l' = l ∧ KeyRateLimiter.slot key = k ∧
          ((c.world.limiters l).isAllowed c.world.instant key).1 = true then
        some c.world.instant
      else none
    | _ => none
  | _ => none

/-- The limiter `l` has the limits it was created with, and its slot `k` belongs to the requests
that were admitted. -/
structure Limits (l : LimiterId) (k : Bytes) (log : List Nat) (w : World) : Prop where
  max : (w.limiters l).maxRequests = (initLimiters l).maxRequests
  window : (w.limiters l).windowSecs = (initLimiters l).windowSecs
  metered : Metered (initLimiters l).maxRequests (initLimiters l).length log w.instant
    ((w.limiters l).map k)

theorem initLimiters_pos (l : LimiterId) :
    0 < (initLimiters l).maxRequests ∧ 0 < (initLimiters l).windowSecs.toNat ∧
      (initLimiters l).windowSecs.toNat < 2 ^ 63 := by
  cases l <;> decide

section Run

variable {codec : Codec} {verifyDetached : Bytes → Bytes → Bytes → Bool}
variable {c c' : State} {m : Move Job Oracle Act} {ms : Moves} {t : Nat} {l : LimiterId}
variable {k : Bytes} {log : List Nat} {clock instant : Nat}

theorem Limits.step (h : Limits l k log c.world) (hs : (server codec verifyDetached).Step c m c') :
    Limits l k (log ++ (admits l k c m).toList) c'.world := by
  obtain ⟨hmax, hw, hfit⟩ := initLimiters_pos l
  have hlen : (c.world.limiters l).length = (initLimiters l).length := by
    simp only [KeyRateLimiter.length, h.window]
  have hmetered := h.metered
  rw [← h.max, ← hlen] at hmetered
  rw [← h.max] at hmax
  rw [← h.window] at hw hfit
  cases hs with
  | spawn j => simpa [admits] using h
  | @act a w ha =>
      obtain ⟨hlim, hle⟩ := act_limiters ha
      simp only [admits, Option.toList_none, List.append_nil]
      exact ⟨hlim ▸ h.max, hlim ▸ h.window, hlim ▸ h.metered.later hle⟩
  | @step t ω j o k' r w ht hp =>
      have hperf : c.performs t = some (j, o) := performs_iff.mpr ⟨k', ht⟩
      by_cases hcheck : ∃ l' key, o = .limiter l' key
      · obtain ⟨l', key, rfl⟩ := hcheck
        have hp : perform verifyDetached (.limiter l' key) ω c.world = some (r, w) := hp
        obtain ⟨-, hself, hother⟩ := perform_limiter hp
        have hinst := perform_instant hp
        by_cases hl : l' = l
        · subst hl
          have hstep := KeyRateLimiter.metered_isAllowed key hmax hw hmetered
          rw [h.max, hlen, ← hself, ← hinst] at hstep
          refine ⟨by rw [hself]; simpa using h.max, by rw [hself]; simpa using h.window, ?_⟩
          simp only [admits, hperf, true_and, ← hinst]
          split at hstep
          next hyes => rwa [if_pos hyes.symm]
          next hno => rwa [if_neg fun hyes ↦ hno hyes.symm]
        · have hsame := hother l (Ne.symm hl)
          simp only [admits, hperf, hl, false_and, if_false, Option.toList_none, List.append_nil]
          exact ⟨hsame ▸ h.max, hsame ▸ h.window, hsame ▸ hinst ▸ h.metered⟩
      · have hnone : admits l k c (.step t ω) = none := by
          unfold admits
          simp only [hperf]
          split
          next heq => exact absurd ⟨_, _, congrArg Prod.snd (Option.some.inj heq)⟩ hcheck
          · rfl
        rw [hnone, Option.toList_none, List.append_nil]
        by_cases hclean : o = .cleanupLimiters
        · subst hclean
          obtain ⟨-, rfl⟩ := Prod.mk.inj (Option.some.inj hp)
          have hstep := KeyRateLimiter.metered_cleanup hfit hw hmetered
          rw [h.max, hlen] at hstep
          exact ⟨h.max, h.window, hstep⟩
        · have hlim := perform_limiters (fun l' key ho ↦ hcheck ⟨l', key, ho⟩) hclean hp
          have hinst := perform_instant hp
          exact ⟨hlim ▸ h.max, hlim ▸ h.window, hlim ▸ hinst ▸ h.metered⟩

theorem limits_start (l : LimiterId) (k : Bytes) (clock instant : Nat) :
    Limits l k [] (World.initial clock instant) := by
  refine ⟨rfl, rfl, ?_⟩
  have hnone : ((World.initial clock instant).limiters l).map k = none := by
    cases l <;> rfl
  rw [hnone]
  exact .start (initLimiters_pos l).1

/-- What a limiter of the server admits in a run. -/
theorem sparse_of_run
    (h : (server codec verifyDetached).run (.start (.initial clock instant)) ms = some c) :
    Sparse (initLimiters l).maxRequests (initLimiters l).length
      ((server codec verifyDetached).seen (admits l k) (.start (.initial clock instant)) ms) := by
  have hstart := limits_start l k clock instant
  have hrun := Machine.Along.seen (S := fun _ _ ↦ True) (f := admits l k)
    (I := fun log d ↦ Limits l k log d.world) (fun hl _ hs ↦ hl.step hs)
    (Machine.along_of_forall fun _ _ _ _ _ _ ↦ trivial) h hstart
  exact hrun.metered.sparse

/-! ## Large messages -/

/-- The size above which the messages of a sender are limited. -/
def threshold : LimiterId → Option Nat
  | .midMsg => some midThreshold
  | .largeMsg => some largeThreshold
  | _ => none

theorem withinLimit_admitted {env : ZenthSignalEnvelope} {size limit : Nat} {past' : Past} :
    (withinLimit l limit env.senderHashId size).Obeys (fun _ _ ↦ True) (fun past r ↦
      past' <+: past ∧ (r = true → limit < size → Did past (.limiter l env.senderHashId) true))
      past' := by
  unfold withinLimit
  split
  · refine ⟨trivial, fun answer ↦ ⟨List.prefix_append _ _, ?_⟩⟩
    rintro rfl -
    simp [Did]
  next hsize => exact ⟨List.prefix_rfl, fun _ hlt ↦ absurd hlt hsize⟩

/-- A message that is accepted has been admitted by the limiters of its size. -/
def SizeAdmitted (env : ZenthSignalEnvelope) (size : Nat) (past' : Past) : Prop :=
  ∀ l limit, threshold l = some limit → limit < size →
    Did past' (.limiter l env.senderHashId) true

theorem checkSize_admitted (env : ZenthSignalEnvelope) (size : Nat) {past' : Past} :
    (checkSize env.senderHashId size).Obeys (fun _ _ ↦ True) (fun past r ↦
      r = none → SizeAdmitted env size past) past' := by
  unfold checkSize
  split
  · exact nofun
  refine withinLimit_admitted.bind fun past₁ r h₁ ↦ ?_
  split
  · exact nofun
  next hr₁ =>
  refine withinLimit_admitted.bind fun past₂ r' h₂ ↦ ?_
  split
  · exact nofun
  next hr₂ =>
  rintro - l limit hl hlt
  cases l with
  | midMsg =>
      obtain rfl := Option.some.inj hl
      exact h₂.2 (by simpa using hr₂) hlt
  | largeMsg =>
      obtain rfl := Option.some.inj hl
      exact (h₁.2 (by simpa using hr₁) hlt).mono fun _ he ↦ h₂.1.subset he
  | relayPush | blobPush => exact nomatch hl

theorem sendMessage_admitted (env : ZenthSignalEnvelope) :
    (processCall codec (.sendMessage env)).Obeys (fun _ _ ↦ True) (fun past r ↦
      r.success = true → SizeAdmitted env (env.contentBytes codec).length past) [] := by
  have hadmitted : (sendMessage codec env).Obeys (fun _ _ ↦ True)
      (fun past r ↦ ∀ resp : SendMessageResponse, r = .ok resp → resp.success = true →
        SizeAdmitted env (env.contentBytes codec).length past) [] := by
    unfold sendMessage
    refine obeys_sql trivial (fun e ↦ by cases e <;> rintro _ ⟨⟩ ⟨⟩) fun sender ↦ ?_
    refine obeys_call trivial fun valid ↦ ?_
    split
    · rintro _ ⟨⟩ ⟨⟩
    refine obeys_sql trivial (fun e ↦ by cases e <;> rintro _ ⟨⟩ ⟨⟩) fun recipient ↦ ?_
    refine obeys_currentMillis trivial fun now ↦ ?_
    unfold storeMessage
    refine (checkSize_admitted env _).bind fun past refusal h ↦ ?_
    cases refusal with
    | some message => rintro _ ⟨⟩ ⟨⟩
    | none =>
    refine (Program.obeys_extends _).mono (fun _ _ _ ↦ trivial) fun past' r hpast _ _ _ ↦ ?_
    exact fun l limit hl hlt ↦ (h rfl l limit hl hlt).mono fun _ he ↦ hpast.subset he
  refine hadmitted.bind fun past r h ↦ ?_
  cases r with
  | error e => exact nofun
  | ok resp => exact fun hsuccess ↦ h resp rfl hsuccess

/-- At the instant `i`, thread `t` is admitted by the limiter `l` under the key `key`. -/
def AdmittedAt (M : Machine Res World Job (Option Reply) Oracle Act) (c : State) (ms : Moves)
    (t : Nat) (l : LimiterId) (key : Bytes) (i : Nat) : Prop :=
  ∃ (ms₁ : Moves) (ω : Oracle) (ms₂ : Moves) (d : State) (job : Job),
    ms = ms₁ ++ .step t ω :: ms₂ ∧ M.run c ms₁ = some d ∧
    d.performs t = some (job, .limiter l key) ∧ d.world.instant = i ∧
    ((d.world.limiters l).isAllowed i key).1 = true

/-- The answer of a limiter was given in a state of the run. -/
theorem admittedAt_of_event {key : Bytes}
    (h : (server codec verifyDetached).run (.start (.initial clock instant)) ms = some c)
    (he : (t, ⟨.limiter l key, true⟩) ∈ c.trace) :
    ∃ i, AdmittedAt (server codec verifyDetached) (.start (.initial clock instant)) ms t l key i := by
  obtain ⟨pre, post, htr⟩ := List.append_of_mem he
  obtain ⟨ms₁, ω, ms₂, d, j, k, w, hms, hd, -, ht, hp, -⟩ :=
    Machine.event_moment h htr (Nat.zero_le _)
  have hp : perform verifyDetached (.limiter l key) ω d.world = some (true, w) := hp
  obtain ⟨hanswer, -, -⟩ := perform_limiter hp
  exact ⟨_, ms₁, ω, ms₂, d, j, hms, hd, performs_iff.mpr ⟨k, ht⟩, rfl, hanswer.symm⟩

/-- Two places of a list. -/
theorem append_cons_eq {α : Type} {a b a' b' : List α} {x y : α}
    (h : a ++ x :: b = a' ++ y :: b') (hne : x ≠ y) :
    (∃ mid, a' = a ++ x :: mid ∧ b = mid ++ y :: b') ∨
      ∃ mid, a = a' ++ y :: mid ∧ b' = mid ++ x :: b := by
  rcases List.append_eq_append_iff.mp h with ⟨mid, rfl, hb⟩ | ⟨mid, rfl, hb⟩
  · cases mid with
    | nil => exact absurd (List.cons.inj hb).1 hne
    | cons z mid =>
        obtain ⟨rfl, rfl⟩ := List.cons.inj hb
        exact .inl ⟨mid, rfl, rfl⟩
  · cases mid with
    | nil => exact absurd (List.cons.inj hb).1.symm hne
    | cons z mid =>
        obtain ⟨rfl, rfl⟩ := List.cons.inj hb
        exact .inr ⟨mid, rfl, rfl⟩

/-- Two requests admitted by a limiter for one request a window are a window apart. -/
theorem apart_of_admittedAt {key : Bytes} {t' i i' : Nat} (hone : (initLimiters l).maxRequests = 1)
    (h : (server codec verifyDetached).run (.start (.initial clock instant)) ms = some c)
    (hne : t ≠ t')
    (hi : AdmittedAt (server codec verifyDetached) (.start (.initial clock instant)) ms t l key i)
    (hi' : AdmittedAt (server codec verifyDetached) (.start (.initial clock instant)) ms t' l key
      i') : i + (initLimiters l).length ≤ i' ∨ i' + (initLimiters l).length ≤ i := by
  obtain ⟨ms₁, ω, ms₂, d, job, hms, hd, hperf, rfl, hyes⟩ := hi
  obtain ⟨ms₁', ω', ms₂', d', job', hms', hd', hperf', rfl, hyes'⟩ := hi'
  have hx : admits l (KeyRateLimiter.slot key) d (.step t ω) = some d.world.instant := by
    simp [admits, hperf, hyes]
  have hy : admits l (KeyRateLimiter.slot key) d' (.step t' ω') = some d'.world.instant := by
    simp [admits, hperf', hyes']
  have hsparse := sparse_of_run (l := l) (k := KeyRateLimiter.slot key) h
  rw [hone] at hsparse
  have hlen : 0 < (initLimiters l).length :=
    Nat.mul_pos (initLimiters_pos l).2.1 (by decide)
  -- both instants lie in the interval that begins with the earlier one
  have htwo {x y : Nat} (hsub : [x, y].Sublist ((server codec verifyDetached).seen
      (admits l (KeyRateLimiter.slot key)) (.start (.initial clock instant)) ms)) :
      x + (initLimiters l).length ≤ y ∨ y + (initLimiters l).length ≤ x := by
    by_contra hclose
    have hcount := (hsub.countP_le (p := fun t ↦ decide (min x y ≤ t ∧
      t < min x y + (initLimiters l).length))).trans (hsparse (min x y))
    have hinx : min x y ≤ x ∧ x < min x y + (initLimiters l).length := by omega
    have hiny : min x y ≤ y ∧ y < min x y + (initLimiters l).length := by omega
    simp [hinx, hiny] at hcount
  have hsteps : (Move.step t ω : Move Job Oracle Act) ≠ .step t' ω' :=
    fun heq ↦ hne (Move.step.inj heq).1
  rcases append_cons_eq (hms.symm.trans hms') hsteps with ⟨mid, rfl, rfl⟩ | ⟨mid, rfl, rfl⟩
  · rw [hms] at h htwo
    exact htwo (Machine.seen_two h hd hx hd' hy)
  · rw [hms'] at h htwo
    exact (htwo (Machine.seen_two h hd' hy hd hx)).symm

end Run

/-- Two large messages of one sender that are accepted were admitted a window apart: 10 seconds
for more than 1 MiB, 30 seconds for more than 10 MiB. -/
def MessagesApart (codec : Codec) (verifyDetached : Bytes → Bytes → Bytes → Bool) : Prop :=
  ∀ (clock instant : Nat) (ms : Moves) (c : State) (t t' : Nat) (env env' : ZenthSignalEnvelope)
    (r r' : Reply) (l : LimiterId) (limit : Nat), threshold l = some limit →
    (server codec verifyDetached).run (.start (.initial clock instant)) ms = some c → t ≠ t' →
    c.answered t = some (.request (.sendMessage env), r) → r.success = true →
    c.answered t' = some (.request (.sendMessage env'), r') → r'.success = true →
    env.senderHashId = env'.senderHashId → limit < (env.contentBytes codec).length →
    limit < (env'.contentBytes codec).length →
    ∃ i i', AdmittedAt (server codec verifyDetached) (.start (.initial clock instant)) ms t l
        env.senderHashId i ∧
      AdmittedAt (server codec verifyDetached) (.start (.initial clock instant)) ms t' l
        env.senderHashId i' ∧
      (i + nanos (initLimiters l).windowSecs.toNat ≤ i' ∨
        i' + nanos (initLimiters l).windowSecs.toNat ≤ i)

example : (initLimiters .midMsg).windowSecs = 10 ∧ (initLimiters .largeMsg).windowSecs = 30 :=
  ⟨rfl, rfl⟩

theorem messages_apart (codec : Codec) (verifyDetached : Bytes → Bytes → Bytes → Bool) :
    MessagesApart codec verifyDetached := by
  intro clock instant ms c t t' env env' r r' l limit hl h hne hans hok hans' hok' hsender hlt hlt'
  have hc : Reachable codec verifyDetached c := ⟨clock, instant, ms, h⟩
  have hone : (initLimiters l).maxRequests = 1 := by
    cases l with
    | midMsg | largeMsg => rfl
    | relayPush | blobPush => exact nomatch hl
  have hdid := hc.request_answer (sendMessage_admitted env) hans hok l limit hl hlt
  have hdid' := hc.request_answer (sendMessage_admitted env') hans' hok' l limit hl hlt'
  rw [← hsender] at hdid'
  obtain ⟨i, hi⟩ := admittedAt_of_event h (did_past.mp hdid)
  obtain ⟨i', hi'⟩ := admittedAt_of_event h (did_past.mp hdid')
  exact ⟨i, i', hi, hi', apart_of_admittedAt hone h hne hi hi'⟩

/-- What is promised of a limiter and of the messages of the server. -/
structure LimitsRate (codec : Codec) (verifyDetached : Bytes → Bytes → Bytes → Bool) (max : Nat)
    (window : UInt64) : Prop where
  bounded : KeyRateLimiter.Bounded max window
  attained : KeyRateLimiter.Attained max window
  independent : KeyRateLimiter.Independent max window
  messages : MessagesApart codec verifyDetached

/-- **Rate limits.**  A limiter keeps its promise if and only if twice its window fits into 64
bits. -/
theorem limiter_bound_iff {codec : Codec} {verifyDetached : Bytes → Bytes → Bytes → Bool}
    {max : Nat} {window : UInt64} (hmax : 1 ≤ max) (hw : 1 ≤ window.toNat) :
    LimitsRate codec verifyDetached max window ↔ window.toNat < 2 ^ 63 := by
  constructor
  · intro h
    exact (KeyRateLimiter.bounded_iff hmax hw).mp h.bounded
  · intro hfit
    exact ⟨KeyRateLimiter.bounded hmax hw hfit, KeyRateLimiter.attained hmax hw,
      KeyRateLimiter.independent max window, messages_apart codec verifyDetached⟩

theorem limiter_bound_iff_midMsg :
    LimitsRate Sample.codec (Sample.verify []) 1 10 :=
  (limiter_bound_iff (by decide) (by decide)).mpr (by decide)

/-- A limiter for one request in `2 ^ 63` seconds admits two at the same instant, if it is cleaned
up in between. -/
theorem limiter_overflow :
    (KeyRateLimiter.new 1 (2 ^ 63)).answers
        [(0, .isAllowed [1]), (0, .cleanup), (0, .isAllowed [1])] =
      [(0, [1], true), (0, [1], true)] ∧
    ¬ KeyRateLimiter.Bounded 1 (2 ^ 63) ∧
    ¬ LimitsRate Sample.codec (Sample.verify []) 1 (2 ^ 63) := by
  have hnot : ¬ KeyRateLimiter.Bounded 1 (2 ^ 63) :=
    KeyRateLimiter.not_bounded (by decide) (by decide +kernel)
  exact ⟨by decide +kernel, hnot, fun h ↦ hnot h.bounded⟩

end ZenthDht
