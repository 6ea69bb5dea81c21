import ZenthDht.Data.Signed
import ZenthDht.Safety.Durability
import Mathlib.Data.UInt

/-!
# The lifetime of a message

A message says in `sequence_number` after how many hours it expires, 0 for never.  SEND_MESSAGE
casts the number to `i64`, makes a `Duration` of it and adds that to the current time: the cast
wraps from `2 ^ 63` on, the `Duration` panics beyond `i64` milliseconds, and the sum panics beyond
the last date.  Between these limits the expiry is as asked for (`lifetime_safe`).
-/

namespace ZenthDht

open Conc

variable {codec : Codec} {verifyDetached : Bytes → Bytes → Bytes → Bool}
variable {c : State} {t now : Nat} {env : ZenthSignalEnvelope} {s : UInt64}
variable {r : Option NaiveDateTime} {done : Past}

/-! ## The arithmetic -/

/-- The expiry for a lifetime asked for at the time `now`, or `none` for a panic. -/
def expiry (now : NaiveDateTime) (s : UInt64) : Option NaiveDateTime :=
  if s = 0 then some neverExpires else addHours now s.toInt64

/-- The expiry `r` computed at `now` for the lifetime `s` is as it should be. -/
structure SafeExpiry (now : NaiveDateTime) (s : UInt64) (r : Option NaiveDateTime) : Prop where
  /-- Nothing panics. -/
  total : ∃ e, r = some e
  /-- Nothing wraps. -/
  exact : s.toInt64.toInt = s.toNat
  never : s = 0 → r = some neverExpires
  later : s ≠ 0 → ∀ e, r = some e → now < e
  /-- Shorter lifetimes end no later. -/
  monotone : ∀ s', s' ≠ 0 → s' ≤ s → ∀ e, r = some e → ∃ e', expiry now s' = some e' ∧ e' ≤ e

/-- The lifetime is 0, or it is at most `i64::MAX` milliseconds and ends by the last date. -/
def Representable (now : NaiveDateTime) (s : UInt64) : Prop :=
  s = 0 ∨ s.toNat * 3600000 < 2 ^ 63 ∧ now + hours s.toNat ≤ naiveDateTimeMax

theorem hours_nonneg (n : Nat) : 0 ≤ hours n := by
  simp only [hours, seconds]
  omega

theorem hours_mono {m n : Nat} (h : m ≤ n) : hours m ≤ hours n := by
  simp only [hours, seconds]
  omega

theorem hours_pos {n : Nat} (h : 0 < n) : 0 < hours n := by
  simp only [hours, seconds]
  omega

theorem addHours_of_representable {now : NaiveDateTime} (hnow : 0 ≤ now)
    (hms : s.toNat * 3600000 < 2 ^ 63) (hdate : now + hours s.toNat ≤ naiveDateTimeMax) :
    addHours now s.toInt64 = some (now + hours s.toNat) := by
  have hcast : s.toInt64.toInt = s.toNat := toInt_toInt64_eq.mpr (by omega)
  have hmin : naiveDateTimeMin ≤ now + hours s.toNat :=
    Int.le_trans (by decide) (Int.add_nonneg hnow (hours_nonneg _))
  have habs : ((s.toNat : Int) * 3600000).natAbs = s.toNat * 3600000 := by
    rw [Int.natAbs_mul]
    rfl
  unfold addHours
  rw [hcast, habs]
  exact if_pos ⟨hms, hdate, hmin⟩

theorem representable_of_addHours {now e : NaiveDateTime} (hcast : s.toInt64.toInt = s.toNat)
    (h : addHours now s.toInt64 = some e) : Representable now s := by
  have habs : ((s.toNat : Int) * 3600000).natAbs = s.toNat * 3600000 := by
    rw [Int.natAbs_mul]
    rfl
  unfold addHours at h
  rw [hcast, habs] at h
  split at h
  next hrange => exact .inr ⟨hrange.1, hrange.2.1⟩
  · exact nomatch h

/-- Lifetimes up to a representable one are representable. -/
theorem Representable.mono {now : NaiveDateTime} {s' : UInt64} (hs : s ≠ 0)
    (h : Representable now s) (hle : s' ≤ s) :
    s'.toNat * 3600000 < 2 ^ 63 ∧ now + hours s'.toNat ≤ now + hours s.toNat ∧
      now + hours s'.toNat ≤ naiveDateTimeMax := by
  have hle : s'.toNat ≤ s.toNat := UInt64.le_iff_toNat_le.mp hle
  obtain ⟨hms, hdate⟩ := h.resolve_left hs
  have hsum : now + hours s'.toNat ≤ now + hours s.toNat := Int.add_le_add_left (hours_mono hle) now
  have hmul : s'.toNat * 3600000 ≤ s.toNat * 3600000 := Nat.mul_le_mul_right _ hle
  exact ⟨Nat.lt_of_le_of_lt hmul hms, hsum, Int.le_trans hsum hdate⟩

/-- The arithmetic is safe exactly between the limits. -/
theorem safeExpiry_iff {now : NaiveDateTime} (hnow : 0 ≤ now) :
    SafeExpiry now s (expiry now s) ↔ Representable now s := by
  by_cases hs : s = 0
  · subst hs
    constructor
    · intro _
      exact .inl rfl
    · intro _
      refine ⟨⟨_, rfl⟩, rfl, fun _ ↦ rfl, fun h ↦ absurd rfl h, fun s' hs' hle ↦ ?_⟩
      exact absurd (UInt64.le_antisymm hle (UInt64.zero_le)) hs'
  have hexpiry : expiry now s = addHours now s.toInt64 := if_neg hs
  constructor
  · rintro ⟨⟨e, he⟩, hcast, -⟩
    exact representable_of_addHours hcast (hexpiry ▸ he)
  · intro h
    obtain ⟨hms, hdate⟩ := h.resolve_left hs
    have hsum := addHours_of_representable hnow hms hdate
    have hpos : 0 < s.toNat := Nat.pos_of_ne_zero fun h ↦ hs (UInt64.toNat_inj.mp h)
    rw [hexpiry, hsum]
    refine ⟨⟨_, rfl⟩, toInt_toInt64_eq.mpr (by omega), fun h ↦ absurd h hs, ?_, ?_⟩
    · rintro - _ ⟨⟩
      exact Int.lt_add_of_pos_right now (hours_pos hpos)
    · rintro s' hs' hle _ ⟨⟩
      obtain ⟨hms', hle', hdate'⟩ := h.mono hs hle
      exact ⟨_, (if_neg hs').trans (addHours_of_representable hnow hms' hdate'), hle'⟩

/-! ## SEND_MESSAGE -/

/-- The last reading of the clock. -/
def lastReading (done : Past) : Option Nat :=
  (done.filterMap fun
    | ⟨.clock, now⟩ => some now
    | _ => none).getLast?

@[simp] theorem lastReading_clock (done : Past) (now : Nat) :
    lastReading (done ++ [⟨.clock, now⟩]) = some now := by
  simp [lastReading]

@[simp] theorem lastReading_limiter (done : Past) (l : LimiterId) (key : Bytes) (b : Bool) :
    lastReading (done ++ [⟨.limiter l key, b⟩]) = lastReading done := by
  simp [lastReading]

/-- What a SEND_MESSAGE does with the expiry it has computed from its last reading of the clock. -/
def LifetimeOrder (env : ZenthSignalEnvelope) (done : Past) : Op → Prop
  | .panic => ∃ now, lastReading done = some now ∧ expiry now env.sequenceNumber = none
  | .sql (.insertMessage n) =>
    ∃ now, lastReading done = some now ∧ expiry now env.sequenceNumber = some n.expiresAt
  | _ => True

theorem checkSize_reads (sender : Bytes) (size : Nat) (hread : lastReading done = some now) :
    (checkSize sender size).Obeys (LifetimeOrder env) (fun done _ ↦ lastReading done = some now)
      done := by
  have hlimit (l : LimiterId) (threshold : Nat) {done : Past} (hread : lastReading done = some now) :
      (withinLimit l threshold sender size).Obeys (LifetimeOrder env)
        (fun done _ ↦ lastReading done = some now) done := by
    unfold withinLimit
    split
    · refine ⟨trivial, fun b ↦ ?_⟩
      exact (lastReading_limiter _ _ _ _).trans hread
    · exact hread
  unfold checkSize
  split
  · exact hread
  refine (hlimit _ _ hread).bind fun done large hread ↦ ?_
  split
  · exact hread
  refine (hlimit _ _ hread).bind fun done mid hread ↦ ?_
  split <;> exact hread

theorem expiryOf_reads (s : UInt64) (hs : s = env.sequenceNumber)
    (hread : lastReading done = some now) :
    (expiryOf s).Obeys (LifetimeOrder env)
      (fun done e ↦ ∃ now, lastReading done = some now ∧ expiry now s = some e) done := by
  subst hs
  unfold expiryOf
  split
  next hs => exact ⟨now, hread, if_pos hs⟩
  next hs =>
  refine obeys_utcNow trivial fun now ↦ ?_
  split
  next e he => exact ⟨now, lastReading_clock _ _, (if_neg hs).trans he⟩
  next hnone =>
    refine ⟨⟨now, lastReading_clock _ _, (if_neg hs).trans hnone⟩, fun impossible ↦ ?_⟩
    exact nomatch impossible

theorem sendMessage_expiry (env : ZenthSignalEnvelope) :
    (processCall codec (.sendMessage env)).Obeys (LifetimeOrder env) (fun _ _ ↦ True) [] := by
  have hsend : (sendMessage codec env).Obeys (LifetimeOrder env) (fun _ _ ↦ True) [] := by
    unfold sendMessage
    refine obeys_sql trivial (fun e ↦ by cases e <;> trivial) fun sender ↦ ?_
    refine obeys_call trivial fun valid ↦ ?_
    split
    · trivial
    refine obeys_sql trivial (fun e ↦ by cases e <;> trivial) fun recipient ↦ ?_
    refine obeys_currentMillis trivial fun now ↦ ?_
    unfold storeMessage
    refine (checkSize_reads  _ _ (lastReading_clock _ _)).bind
      fun done refusal hread ↦ ?_
    cases refusal with
    | some message => trivial
    | none =>
    refine (expiryOf_reads env.sequenceNumber rfl hread).bind fun done e he ↦ ?_
    refine obeys_sql he (fun e ↦ trivial) fun n ↦ ?_
    unfold pushToRecipient
    exact ⟨trivial, fun now ↦ ⟨trivial, fun _ ↦ trivial⟩⟩
  exact hsend.bind fun _ _ _ ↦ trivial

/-- Thread `t` has computed the expiry `r` of the message `env`, at its last reading `now` of the
clock: it panics, or it is about to insert the row. -/
def Computes (c : State) (t now : Nat) (env : ZenthSignalEnvelope) (r : Option NaiveDateTime) :
    Prop :=
  lastReading (past t c.trace) = some now ∧
    (r = none ∧ c.performs t = some (.request (.sendMessage env), .panic) ∨
      ∃ n, r = some n.expiresAt ∧
        c.performs t = some (.request (.sendMessage env), .sql (.insertMessage n)))

/-- What has been computed is a function of the reading and the lifetime. -/
theorem Computes.eq (h : Reachable codec verifyDetached c) (hc : Computes c t now env r) :
    r = expiry now env.sequenceNumber := by
  obtain ⟨hread, ⟨rfl, hp⟩ | ⟨n, rfl, hp⟩⟩ := hc
  all_goals
    obtain ⟨k, ht⟩ := performs_iff.mp hp
    obtain ⟨now', hread', hexpiry⟩ := h.request_guard (sendMessage_expiry env) ht
    obtain rfl := Option.some.inj (hread.symm.trans hread')
    exact hexpiry.symm

/-- SEND_MESSAGE computes the expiry of an authenticated message as it should exactly for the
lifetimes between the limits. -/
theorem lifetime_safe (h : Reachable codec verifyDetached c) (hc : Computes c t now env r) :
    SafeExpiry now env.sequenceNumber r ↔ Representable now env.sequenceNumber := by
  rw [hc.eq h]
  exact safeExpiry_iff (Int.natCast_nonneg now)

namespace Sample

/-- A message from user 1 to user 2 that expires after `s` hours. -/
def timed (s : UInt64) : ZenthSignalEnvelope := { envelope with sequenceNumber := s }

def timedSigned (s : UInt64) : List (Bytes × Bytes) :=
  [(key 1, (timed s).signedData Sample.codec)]

/-- User 1 sends the message, up to the operation that follows the computation. -/
def timedRun (s : UInt64) : Moves :=
  registers 0 1 ++ registers 1 2 ++ .spawn (.request (.sendMessage (timed s))) :: steps 2 5

/-- What thread 2 has computed. -/
def computed (c : State) : Option (Nat × ZenthSignalEnvelope × Option NaiveDateTime) :=
  match lastReading (past 2 c.trace), c.performs 2 with
  | some now, some (.request (.sendMessage env), .panic) => some (now, env, none)
  | some now, some (.request (.sendMessage env), .sql (.insertMessage n)) =>
    some (now, env, some n.expiresAt)
  | _, _ => none

theorem computes_of_computed (h : computed c = some (now, env, r)) : Computes c 2 now env r := by
  unfold computed at h
  split at h
  next hread hp =>
    obtain ⟨rfl, rfl, rfl⟩ := h
    exact ⟨hread, .inl ⟨rfl, hp⟩⟩
  next n hread hp =>
    obtain ⟨rfl, rfl, rfl⟩ := h
    exact ⟨hread, .inr ⟨n, rfl, hp⟩⟩
  next => exact nomatch h

end Sample

open Sample in
/-- After `2 ^ 64 - 1` hours a message is to expire an hour ago, after `2 ^ 62` hours the computation
panics. -/
theorem lifetime_wraps_or_panics :
    (∃ c : State, final (timedSigned (2 ^ 64 - 1)) (timedRun (2 ^ 64 - 1)) = some c ∧
      Computes c 2 0 (timed (2 ^ 64 - 1)) (some (-3600000000)) ∧
      ¬ SafeExpiry 0 (2 ^ 64 - 1) (some (-3600000000))) ∧
    ∃ c : State, final (timedSigned (2 ^ 62)) (timedRun (2 ^ 62)) = some c ∧
      Computes c 2 0 (timed (2 ^ 62)) none ∧ ¬ SafeExpiry 0 (2 ^ 62) none := by
  have hwraps : (final (timedSigned (2 ^ 64 - 1)) (timedRun (2 ^ 64 - 1))).map computed =
      some (some (0, timed (2 ^ 64 - 1), some (-3600000000))) := by decide +kernel
  have hpanics : (final (timedSigned (2 ^ 62)) (timedRun (2 ^ 62))).map computed =
      some (some (0, timed (2 ^ 62), none)) := by decide +kernel
  constructor
  · obtain ⟨c, hc, hcomputed⟩ := Option.map_eq_some_iff.mp hwraps
    refine ⟨c, hc, computes_of_computed hcomputed, fun hsafe ↦ ?_⟩
    exact absurd (hsafe.later (by decide +kernel) _ rfl) (by decide)
  · obtain ⟨c, hc, hcomputed⟩ := Option.map_eq_some_iff.mp hpanics
    refine ⟨c, hc, computes_of_computed hcomputed, fun hsafe ↦ ?_⟩
    obtain ⟨e, he⟩ := hsafe.total
    exact nomatch he

open Sample in
theorem lifetime_safe_timedRun : ∃ c : State, final (timedSigned 24) (timedRun 24) = some c ∧
    SafeExpiry 0 24 (some (hours 24)) := by
  have hrun : (final (timedSigned 24) (timedRun 24)).map computed =
      some (some (0, timed 24, some (hours 24))) := by decide +kernel
  obtain ⟨c, hc, hcomputed⟩ := Option.map_eq_some_iff.mp hrun
  refine ⟨c, hc, (lifetime_safe ⟨0, 0, _, hc⟩ (computes_of_computed hcomputed)).mpr (.inr ?_)⟩
  decide

end ZenthDht
