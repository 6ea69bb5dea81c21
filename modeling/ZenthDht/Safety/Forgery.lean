import ZenthDht.Conc.Removal
import ZenthDht.Safety.RateLimits

/-!
# Forged pushes and the quota of a key

`push_relay` and `push_blob` ask their limiter under the sender key a request names, and verify
the signature of the request after that; `send_message` verifies first.  So a request that
nobody signed takes a place in the window of the key it names, and twenty of them make the
server refuse the next push of the key holder (`forged_pushes_spend`).

A forged push is harmless when one of the checks before the limiter refuses it, or when the
window of the key it names is used up already.  A run whose forged pushes are all harmless can
do without them: every other request has the same history and the same answer
(`harmless_forgeries`).
-/

namespace ZenthDht

open Conc

/-! ## Forged pushes -/

/-- The sender key a push names, the bytes it signs and its signature. -/
def Call.push : Call → Option (Bytes × Bytes × Bytes)
  | .relayPush req => some (req.senderDilithiumPubkey, req.signedData, req.senderSignature)
  | .syncPushBlob req => some (req.senderDilithiumPubkey, req.signedData, req.authSignature)
  | _ => none

/-- A push that names `K`, or a key that begins with the same 32 bytes, and does not have a
signature that is valid under `K`. -/
def Job.forged (verifyDetached : Bytes → Bytes → Bytes → Bool) (K : Bytes) : Job → Bool
  | .request call =>
    call.push.any fun (key, message, signature) ↦
      decide (key.take 32 = K.take 32) &&
        !verifyDilithiumSignature verifyDetached K message signature
  | _ => false

/-- The window of the key is open and used up. -/
def KeyRateLimiter.Full (l : KeyRateLimiter) (now : Nat) (key : Bytes) : Prop :=
  match l.map (slot key) with
  | some (s, n) => elapsedSecs s now < l.windowSecs.toNat ∧ l.maxRequests ≤ n
  | none => False

instance (l : KeyRateLimiter) (now : Nat) (key : Bytes) : Decidable (l.Full now key) := by
  unfold KeyRateLimiter.Full
  split <;> infer_instance

/-- What has to hold of a move: a forged push comes to the limiter only when the window of the
key it names is used up. -/
def Harmless (verifyDetached : Bytes → Bytes → Bytes → Bool) (K : Bytes) (c : State) :
    Move Job Oracle Act → Prop
  | .step t _ =>
    match c.performs t with
    | some (job, .limiter l key) =>
      job.forged verifyDetached K = true → (c.world.limiters l).Full c.world.instant key
    | _ => True
  | _ => True

/-- The limiter and the key that a thread asks for next, for a forged push. -/
def State.forging (verifyDetached : Bytes → Bytes → Bytes → Bool) (K : Bytes) (c : State) (t : Nat) :
    Option (LimiterId × Bytes) :=
  match c.performs t with
  | some (job, .limiter l key) => if job.forged verifyDetached K then some (l, key) else none
  | _ => none

theorem harmless_step {verifyDetached : Bytes → Bytes → Bytes → Bool} {K : Bytes} {c : State}
    {t : Nat} {ω : Oracle} : Harmless verifyDetached K c (.step t ω) ↔
    ∀ p ∈ c.forging verifyDetached K t, (c.world.limiters p.1).Full c.world.instant p.2 := by
  dsimp only [Harmless]
  unfold State.forging
  split
  next job l key _ =>
    by_cases hforged : job.forged verifyDetached K = true
    · simp [hforged]
    · simp [hforged]
  · simp

instance (verifyDetached : Bytes → Bytes → Bytes → Bool) (K : Bytes) (c : State) :
    (m : Move Job Oracle Act) → Decidable (Harmless verifyDetached K c m)
  | .step _ _ => decidable_of_iff _ harmless_step.symm
  | .spawn _ | .act _ => inferInstanceAs (Decidable True)

/-- A limiter whose window is used up refuses, and stays as it is. -/
theorem KeyRateLimiter.Full.isAllowed {l : KeyRateLimiter} {now : Nat} {key : Bytes}
    (h : l.Full now key) : l.isAllowed now key = (false, l) := by
  unfold Full at h
  unfold KeyRateLimiter.isAllowed
  split
  · rfl
  split at h
  next s n hentry =>
    obtain ⟨hopen, hfull⟩ := h
    simp only [hentry, Option.getD_some, if_neg (Nat.not_le.mpr hopen), if_neg (Nat.not_lt.mpr hfull)]
    rw [← hentry, Function.update_eq_self]
  · exact h.elim

/-- It refuses nothing else: a push that comes to the limiter before that takes a place. -/
theorem KeyRateLimiter.isAllowed_iff {l : KeyRateLimiter} {now : Nat} {key : Bytes}
    (hkey : key ≠ []) (hmax : 0 < l.maxRequests) (hw : 0 < l.windowSecs.toNat) :
    (l.isAllowed now key).1 = true ↔ ¬ l.Full now key := by
  constructor
  · intro hallowed hfull
    rw [hfull.isAllowed] at hallowed
    exact nomatch hallowed
  · intro hroom
    unfold Full at hroom
    cases hentry : l.map (slot key) with
    | none => rw [isAllowed_of_over hkey hmax hw fun s n hs ↦ nomatch hentry.symm.trans hs]
    | some e =>
        obtain ⟨s, n⟩ := e
        simp only [hentry, not_and_or, Nat.not_lt, Nat.not_le] at hroom
        rcases Nat.lt_or_ge now (s + l.length) with hopen | hover
        · have hn : n < l.maxRequests := hroom.resolve_left
            fun hle ↦ Nat.not_le.mpr hopen ((le_elapsedSecs hw).mp hle)
          rw [isAllowed_of_open hkey hw hentry hn hopen]
        · rw [isAllowed_of_over hkey hmax hw]
          intro s' n' hs
          obtain ⟨rfl, rfl⟩ := Prod.mk.inj (Option.some.inj (hentry.symm.trans hs))
          exact hover

/-! ## The steps of a push -/

/-- Before a push is admitted it reads the clock and asks its limiter. -/
def PushOrder (past : Past) (o : Op) : Prop :=
  o = .clock ∨ (∃ l key, o = .limiter l key) ∨ ∃ l key, Did past (.limiter l key) true

variable {codec : Codec} {verifyDetached : Bytes → Bytes → Bytes → Bool}

/-- What a push does once it is admitted. -/
theorem obeys_admitted {α : Type} {past : Past} {l : LimiterId} {key : Bytes} (p : Handler α) :
    p.Obeys PushOrder (fun _ _ ↦ True) (past ++ [⟨.limiter l key, true⟩]) := by
  refine (Program.obeys_extends p).mono (fun past' o hext ↦ ?_) fun _ _ _ ↦ trivial
  exact .inr (.inr ⟨l, key, hext.subset (List.mem_append_right _ List.mem_cons_self)⟩)

theorem pushRelay_pushOrder (req : RelayPushRequest) :
    (pushRelay req).Obeys PushOrder (fun _ _ ↦ True) [] := by
  unfold pushRelay
  iterate 3
    split
    · trivial
  refine obeys_fresh (.inl rfl) (fun _ _ ↦ trivial) fun _ _ ↦ ?_
  exact obeys_limiter (.inr (.inl ⟨_, _, rfl⟩)) trivial (obeys_admitted _)

theorem pushBlob_pushOrder (req : SyncPushBlobRequest) :
    (pushBlob req).Obeys PushOrder (fun _ _ ↦ True) [] := by
  unfold pushBlob
  iterate 3
    split
    · trivial
  refine obeys_fresh (.inl rfl) (fun _ _ ↦ trivial) fun _ _ ↦ ?_
  exact obeys_limiter (.inr (.inl ⟨_, _, rfl⟩)) trivial (obeys_admitted _)

theorem processCall_pushOrder {call : Call} (hpush : call.push ≠ none) :
    (processCall codec call).Obeys PushOrder (fun _ _ ↦ True) [] := by
  cases call with
  | relayPush req => exact (pushRelay_pushOrder req).bind_any fun _ _ ↦ trivial
  | syncPushBlob req => exact (pushBlob_pushOrder req).bind_any fun _ _ ↦ trivial
  | _ => exact absurd rfl hpush

/-! ## Runs -/

variable {K : Bytes} {clock instant : Nat} {ms : Moves} {c : State} {t : Nat} {job : Job}

theorem push_of_forged (h : job.forged verifyDetached K = true) :
    ∃ call, job = .request call ∧ call.push ≠ none := by
  cases job with
  | request call =>
      refine ⟨call, rfl, fun hnone ↦ ?_⟩
      rw [Job.forged, hnone] at h
      exact nomatch h
  | _ => exact nomatch h

/-- No forged push is admitted in a run in which all of them are harmless. -/
theorem not_admitted
    (h : (server codec verifyDetached).run (.start (.initial clock instant)) ms = some c)
    (hharmless : (server codec verifyDetached).Along (Harmless verifyDetached K)
      (.start (.initial clock instant)) ms)
    (hj : Runs c t job) (hforged : job.forged verifyDetached K = true) {l : LimiterId} {key : Bytes} :
    (t, ⟨.limiter l key, true⟩) ∉ c.trace := by
  intro he
  obtain ⟨pre, post, htr⟩ := List.append_of_mem he
  obtain ⟨ms₁, ω, ms₂, d, j, k, w, rfl, hd, -, ht, hp, hrest⟩ :=
    Machine.event_moment h htr (Nat.zero_le _)
  obtain ⟨d', hd', hafter⟩ := Machine.run_append.mp h
  obtain rfl := Option.some.inj (hd.symm.trans hd')
  obtain rfl := (Runs.run ⟨_, ht⟩ hafter).unique hj
  have hfull := hharmless.at hd
  rw [Harmless, performs_iff.mpr ⟨k, ht⟩] at hfull
  have hp : perform verifyDetached (.limiter l key) ω d.world = some (true, w) := hp
  obtain ⟨hanswer, -, -⟩ := perform_limiter hp
  rw [(hfull hforged).isAllowed] at hanswer
  cases hanswer

/-- No step of a forged push changes the world in such a run. -/
theorem forged_silent
    (h : (server codec verifyDetached).run (.start (.initial clock instant)) ms = some c)
    (hharmless : (server codec verifyDetached).Along (Harmless verifyDetached K)
      (.start (.initial clock instant)) ms) :
    (server codec verifyDetached).Along
      ((server codec verifyDetached).Silent (Job.forged verifyDetached K))
      (.start (.initial clock instant)) ms := by
  refine Machine.along_of_forall fun ms₁ m ms₂ d hms hd t ω j o k r w hm ht hp hforged ↦ ?_
  subst hms hm
  obtain ⟨call, rfl, hpush⟩ := push_of_forged hforged
  have hreach : Reachable codec verifyDetached d := ⟨clock, instant, _, hd⟩
  have hp : perform verifyDetached o ω d.world = some (r, w) := hp
  rcases hreach.request_guard (processCall_pushOrder hpush) ht with
    rfl | ⟨l, key, rfl⟩ | ⟨l, key, hadmitted⟩
  · obtain ⟨-, rfl⟩ := Prod.mk.inj (Option.some.inj hp)
    rfl
  · have hfull := hharmless.at hd
    rw [Harmless, performs_iff.mpr ⟨k, ht⟩] at hfull
    rw [perform, (hfull hforged).isAllowed] at hp
    obtain ⟨-, rfl⟩ := Prod.mk.inj (Option.some.inj hp)
    rw [Function.update_eq_self]
  · exact absurd (did_past.mp hadmitted) (not_admitted hd hharmless.left ⟨_, ht⟩ hforged)

/-- **Whose quota a push spends.**  In a run whose forged pushes are all harmless, take the forged
pushes away: the moves that are left are a run, in which every other request has the same history,
the answers of the limiters included, and the same answer.  And two such runs that differ in their
forged pushes only agree on all other requests. -/
theorem harmless_forgeries (K : Bytes)
    (h : (server codec verifyDetached).run (.start (.initial clock instant)) ms = some c)
    (hharmless : (server codec verifyDetached).Along (Harmless verifyDetached K)
      (.start (.initial clock instant)) ms) :
    (∃ d : State, (server codec verifyDetached).run (.start (.initial clock instant))
        (removeJobs (Job.forged verifyDetached K) [] ms) = some d ∧
      ∀ t job, Runs c t job → job.forged verifyDetached K = false →
        past (rank (Job.forged verifyDetached K) c.jobs t) d.trace = past t c.trace ∧
        d.answered (rank (Job.forged verifyDetached K) c.jobs t) = c.answered t) ∧
    ∀ (ms' : Moves) (c' : State),
      (server codec verifyDetached).run (.start (.initial clock instant)) ms' = some c' →
      (server codec verifyDetached).Along (Harmless verifyDetached K)
        (.start (.initial clock instant)) ms' →
      removeJobs (Job.forged verifyDetached K) [] ms' =
        removeJobs (Job.forged verifyDetached K) [] ms →
      ∀ t job t' job', Runs c t job → job.forged verifyDetached K = false →
        Runs c' t' job' → job'.forged verifyDetached K = false →
        rank (Job.forged verifyDetached K) c.jobs t =
          rank (Job.forged verifyDetached K) c'.jobs t' →
        past t c.trace = past t' c'.trace ∧ c.answered t = c'.answered t' := by
  obtain ⟨d, hd, hr⟩ := removed_of_run h (forged_silent h hharmless)
  refine ⟨⟨d, hd, fun t job ⟨rest, ht⟩ hk ↦ ⟨hr.past t _ ht hk, ?_⟩⟩, ?_⟩
  · simp only [State.answered, hr.thread ht hk, ht]
  · intro ms' c' h' hharmless' hsame t job t' job' ⟨rest, ht⟩ hk ⟨rest', ht'⟩ hk' hrank
    obtain ⟨d', hd', hr'⟩ := removed_of_run h' (forged_silent h' hharmless')
    rw [hsame] at hd'
    obtain rfl := Option.some.inj (hd.symm.trans hd')
    obtain ⟨hthread, hpast⟩ := hr.agree hr' ht hk ht' hk' hrank
    refine ⟨hpast, ?_⟩
    simp only [State.answered, ht, ht', hthread]

/-- The decision of a limiter. -/
def decision : Event Res → Option Bool
  | ⟨.limiter _ _, allowed⟩ => some allowed
  | _ => none

namespace Sample

/-- A push of key 1 for the device of key 5 with the signature `s`, made at time 0. -/
def pushWith (s : Bytes) : SyncPushBlobRequest := ⟨key 5, [1], [1], key 1, s, 0, 60⟩

/-- What key 1 has signed. -/
def pushSigned : List (Bytes × Bytes) := [(key 1, (pushWith signature).signedData)]

/-- The forged pushes of key 1. -/
abbrev forgedPush : Job → Bool := Job.forged (verify pushSigned) (key 1)

/-- Twenty pushes that name key 1 with a signature of one byte, then one that key 1 has signed. -/
def forgeries : Moves :=
  (List.range 20).flatMap (fun t ↦ .spawn (.request (.syncPushBlob (pushWith [0]))) :: steps t 3) ++
    .spawn (.request (.syncPushBlob (pushWith signature))) :: steps 20 2

/-- What a push is told that its limiter refuses. -/
def fullWindow : String := "Rate limit dépassé - réessayez dans 1 minute"

/-- A forged push that is late, the twenty pushes that key 1 may make, a forged push that comes to
the full window, and one more that key 1 has signed. -/
def idleForgeries : Moves :=
  .spawn (.request (.syncPushBlob { pushWith [0] with timestamp := 1000 })) :: steps 0 1 ++
    (List.range 20).flatMap
      (fun t ↦ .spawn (.request (.syncPushBlob (pushWith signature))) :: steps (t + 1) 5) ++
    .spawn (.request (.syncPushBlob (pushWith [0]))) :: steps 21 2 ++
    .spawn (.request (.syncPushBlob (pushWith signature))) :: steps 22 2

end Sample

open Sample in
/-- Without the forged pushes key 1 is allowed to push, with them it is not. -/
theorem forged_pushes_spend : ∃ c d : State, final pushSigned forgeries = some c ∧
    final pushSigned (removeJobs forgedPush [] forgeries) = some d ∧
    Runs c 20 (.request (.syncPushBlob (pushWith signature))) ∧
    verifyDilithiumSignature (Sample.verify pushSigned) (key 1) (pushWith signature).signedData
      (pushWith signature).authSignature = true ∧
    rank forgedPush c.jobs 20 = 0 ∧
    (past 20 c.trace).filterMap decision = [false] ∧
    (past 0 d.trace).filterMap decision = [true] := by
  have hwith : ((final pushSigned forgeries).map fun c ↦
      (c.jobs[20]?, rank forgedPush c.jobs 20, (past 20 c.trace).filterMap decision)) =
      some (some (.request (.syncPushBlob (pushWith signature))), 0, [false]) := by
    decide +kernel
  have hwithout : ((final pushSigned (removeJobs forgedPush [] forgeries)).map fun d ↦
      (past 0 d.trace).filterMap decision) = some [true] := by
    decide +kernel
  obtain ⟨c, hc, hview⟩ := Option.map_eq_some_iff.mp hwith
  obtain ⟨d, hd, hallowed⟩ := Option.map_eq_some_iff.mp hwithout
  obtain ⟨hjob, hview⟩ := Prod.mk.inj hview
  obtain ⟨hrank, hrefused⟩ := Prod.mk.inj hview
  obtain ⟨⟨_, rest⟩, hth, rfl⟩ := Option.map_eq_some_iff.mp ((List.getElem?_map ..).symm.trans hjob)
  exact ⟨c, d, hc, hd, ⟨rest, hth⟩, by decide +kernel, hrank, hrefused, hallowed⟩

open Sample in
/-- One of the forged pushes never comes to the limiter and the other finds the window used up; the
last push that key 1 is allowed and the first that it is not stay as they are without the two. -/
theorem harmless_forgeries_idleForgeries : ∃ c d : State,
    final pushSigned idleForgeries = some c ∧
    final pushSigned (removeJobs forgedPush [] idleForgeries) = some d ∧
    (past 0 c.trace).filterMap decision = [] ∧
    (past 21 c.trace).filterMap decision = [false] ∧
    (past 19 d.trace = past 20 c.trace ∧ d.answered 19 = c.answered 20) ∧
    (past 20 d.trace = past 22 c.trace ∧ d.answered 20 = c.answered 22) ∧
    c.answered 20 = some (.request (.syncPushBlob (pushWith signature)),
      ⟨true, .syncPushBlob ⟨true, ""⟩, ""⟩) ∧
    c.answered 22 = some (.request (.syncPushBlob (pushWith signature)),
      ⟨false, .syncPushBlob ⟨false, fullWindow⟩, fullWindow⟩) := by
  have hallowed : ((final pushSigned idleForgeries).bind fun c ↦ c.answered 20) =
      some (.request (.syncPushBlob (pushWith signature)),
        ⟨true, .syncPushBlob ⟨true, ""⟩, ""⟩) := by decide +kernel
  have hrefused : ((final pushSigned idleForgeries).bind fun c ↦ c.answered 22) =
      some (.request (.syncPushBlob (pushWith signature)),
        ⟨false, .syncPushBlob ⟨false, fullWindow⟩, fullWindow⟩) := by decide +kernel
  have hview : ((final pushSigned idleForgeries).map fun c ↦
      (rank forgedPush c.jobs 20, rank forgedPush c.jobs 22,
        (past 0 c.trace).filterMap decision, (past 21 c.trace).filterMap decision)) =
      some (19, 20, [], [false]) := by decide +kernel
  have hharmless : (system pushSigned).Along (Harmless (Sample.verify pushSigned) (key 1))
      (.start (.initial 0 0)) idleForgeries := Machine.along_of_check (by decide +kernel)
  obtain ⟨c, hc, hview⟩ := Option.map_eq_some_iff.mp hview
  obtain ⟨hlast, hview⟩ := Prod.mk.inj hview
  obtain ⟨hfirst, hview⟩ := Prod.mk.inj hview
  obtain ⟨hlate, hfull⟩ := Prod.mk.inj hview
  rw [hc, Option.bind_some] at hallowed hrefused
  obtain ⟨⟨d, hd, hsame⟩, -⟩ := harmless_forgeries (key 1) hc hharmless
  have hsame₂₀ := hsame 20 _ ⟨_, answered_iff.mp hallowed⟩ (by decide +kernel)
  have hsame₂₂ := hsame 22 _ ⟨_, answered_iff.mp hrefused⟩ (by decide +kernel)
  rw [hlast] at hsame₂₀
  rw [hfirst] at hsame₂₂
  exact ⟨c, d, hc, hd, hlate, hfull, hsame₂₀, hsame₂₂, hallowed, hrefused⟩

end ZenthDht
