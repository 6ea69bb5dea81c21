import ZenthDht.Safety.RateLimits
import ZenthDht.Spec.Alone

/-!
# What a SEND_MESSAGE costs

SEND_MESSAGE asks the limiters after the signature and before the INSERT, the one for more than
10 MiB first.  A limiter that refuses changes nothing, but one that admits has counted the message,
and nothing takes that back: a message refused by the second limiter has used the quota of the
first, and one whose INSERT fails has used the quota of a message that is stored
(`quota_spent_unstored`).  Everything else is refused before a limiter is asked (`sendMessage_quota`).
-/

namespace ZenthDht

open Conc

variable {codec : Codec} {verifyDetached : Bytes → Bytes → Bytes → Bool}
variable {c c' : State} {w : World} {α : Type} {post : α → World → Prop} {L : Limiters}

/-! ## Limiters and programs that run alone -/

theorem stable_limiters (L : Limiters) :
    (server codec verifyDetached).Stable fun w ↦ w.limiters = L := by
  intro a w w' ha hw
  exact (act_limiters ha).1.trans hw

theorem drifts_limiters {w' : World} (h : (server codec verifyDetached).Drifts w w') :
    w'.limiters = w.limiters := (stable_limiters w.limiters).drifts h rfl

/-- The operation asks no limiter. -/
def Op.Unmetered (o : Op) : Prop := (∀ l key, o ≠ .limiter l key) ∧ o ≠ .cleanupLimiters

/-- An operation that asks no limiter leaves them as they are. -/
theorem wp_unmetered {o : Op} (ho : o.Unmetered) {k : Res o → Handler α}
    (h : ∀ w r, w.limiters = L → (server codec verifyDetached).Wp post (k r) w)
    (hw : w.limiters = L) : (server codec verifyDetached).Wp post (Program.call o >>= k) w := by
  refine Machine.wp_perform (stable_limiters L) (fun ω w r w' hw hp ↦ h w' r ?_) hw
  rw [perform_limiters ho.1 ho.2 hp, hw]

/-- A limiter with a positive maximum and window, as all limiters of the server. -/
def KeyRateLimiter.Sound (l : KeyRateLimiter) : Prop := 0 < l.maxRequests ∧ 0 < l.windowSecs.toNat

/-- A limiter that refuses stays as it is. -/
theorem isAllowed_of_refused {l : KeyRateLimiter} {now : Nat} {key : Bytes} (hl : l.Sound)
    (hno : (l.isAllowed now key).1 = false) : (l.isAllowed now key).2 = l := by
  have hmap : (l.isAllowed now key).2.map = l.map :=
    funext fun k ↦ KeyRateLimiter.isAllowed_map_of_refused hl.1 hl.2 hno
  have hmax : (l.isAllowed now key).2.maxRequests = l.maxRequests :=
    KeyRateLimiter.isAllowed_maxRequests
  have hwindow : (l.isAllowed now key).2.windowSecs = l.windowSecs :=
    KeyRateLimiter.isAllowed_windowSecs
  cases hnew : (l.isAllowed now key).2 with
  | mk map max window =>
      rw [hnew] at hmap hmax hwindow
      cases l
      cases hmap
      cases hmax
      cases hwindow
      rfl

/-! ## The price of a message -/

/-- The limiter `l` as a message of `size` bytes leaves it that was admitted at some instant, or
that is not large enough for the limiter to be asked. -/
def Charged (L L' : Limiters) (l : LimiterId) (limit : Nat) (sender : Bytes) (size : Nat) : Prop :=
  if limit < size then ∃ now, ((L l).isAllowed now sender).1 = true ∧
    L' l = ((L l).isAllowed now sender).2
  else L' l = L l

theorem withinLimit_wp {l : LimiterId} {limit size : Nat} {sender : Bytes} (hl : (L l).Sound)
    (hw : w.limiters = L) :
    (server codec verifyDetached).Wp (fun r w ↦
      (∀ l', l' ≠ l → w.limiters l' = L l') ∧
      (r = true → Charged L w.limiters l limit sender size) ∧
      (r = false → limit < size ∧ w.limiters l = L l)) (withinLimit l limit sender size) w := by
  unfold withinLimit
  split
  next hlt =>
    refine Machine.wp_perform (stable_limiters L) (fun ω w r w' hw hp ↦ ?_) hw
    have hp : perform verifyDetached (.limiter l sender) ω w = some (r, w') := hp
    obtain ⟨rfl, hnew, hothers⟩ := perform_limiter hp
    subst hw
    refine ⟨hothers, fun hyes ↦ ?_, fun hno ↦ ⟨hlt, ?_⟩⟩
    · rw [Charged, if_pos hlt]
      exact ⟨_, hyes, hnew⟩
    · rw [hnew, isAllowed_of_refused hl hno]
  next hle =>
    refine ⟨fun l' _ ↦ congrFun hw l', fun _ ↦ ?_, nofun⟩
    rw [Charged, if_neg hle, hw]

/-- The answer to a message that the limiter for more than 1 MiB refuses. -/
def midRefusal : String := "Limite dépassée : 1 fichier > 1 Mo autorisé par 10 secondes"

/-- What an answer to a message of `size` bytes has cost: `L` are the limiters before and `L'`
those after it, `refusal` is the message of a response without success. -/
structure Costs (L L' : Limiters) (sender : Bytes) (size : Nat) (refusal : Option String) :
    Prop where
  /-- The limiters are not asked about small messages nor about those that are too large. -/
  unasked : size ≤ midThreshold ∨ maxThreshold < size → L' = L
  /-- A message that is refused costs nothing with the limiter for more than 1 MiB. -/
  refused : ∀ message, refusal = some message → L' .midMsg = L .midMsg
  /-- If that limiter has refused it, the one for more than 10 MiB has counted it before. -/
  spent : refusal = some midRefusal → Charged L L' .largeMsg largeThreshold sender size
  /-- After any other refusal that one is as it was, too. -/
  kept : ∀ message, refusal = some message → message ≠ midRefusal → L' .largeMsg = L .largeMsg
  /-- Any other has been admitted by the limiters that were asked. -/
  admitted : refusal = none → Charged L L' .largeMsg largeThreshold sender size ∧
    Charged L L' .midMsg midThreshold sender size

theorem Costs.free {sender : Bytes} {size : Nat} {message : String} (hm : message ≠ midRefusal) :
    Costs L L sender size (some message) where
  unasked _ := rfl
  refused _ _ := rfl
  spent h := absurd (Option.some.inj h) hm
  kept _ _ _ := rfl
  admitted h := nomatch h

theorem checkSize_wp {sender : Bytes} {size : Nat} (hL : ∀ l, (L l).Sound) (hw : w.limiters = L) :
    (server codec verifyDetached).Wp (fun r w ↦ Costs L w.limiters sender size r)
      (checkSize sender size) w := by
  unfold checkSize
  split
  · rw [← hw]
    exact .free (by decide)
  next hmax =>
  refine (Machine.wp_bind _ _).mpr ((withinLimit_wp (hL _) hw).mono fun large w₁ h₁ ↦ ?_)
  obtain ⟨hothers, hyes, hno⟩ := h₁
  cases large with
  | false =>
      obtain ⟨hlt, hsame⟩ := hno rfl
      have hL₁ : w₁.limiters = L := by
        funext l
        by_cases hl : l = .largeMsg
        · rw [hl, hsame]
        · exact hothers l hl
      change Costs L w₁.limiters sender size (some _)
      rw [hL₁]
      exact .free (by decide)
  | true =>
  have hlarge := hyes rfl
  have hmid₁ : w₁.limiters .midMsg = L .midMsg := hothers _ (by decide)
  refine (Machine.wp_bind _ _).mpr ((withinLimit_wp (L := w₁.limiters) (l := .midMsg)
    (by rw [hmid₁]; exact hL _) rfl).mono fun mid w₂ h₂ ↦ ?_)
  obtain ⟨hothers₂, hyes₂, hno₂⟩ := h₂
  have hlarge₂ : Charged L w₂.limiters .largeMsg largeThreshold sender size := by
    rw [Charged, hothers₂ _ (by decide)]
    exact hlarge
  cases mid with
  | false =>
      obtain ⟨hlt, hsame⟩ := hno₂ rfl
      refine ⟨fun hsize ↦ by omega, fun _ _ ↦ by rw [hsame, hmid₁], fun _ ↦ hlarge₂, ?_, nofun⟩
      rintro _ ⟨⟩ hne
      exact absurd rfl hne
  | true =>
      have hmid₂ : Charged L w₂.limiters .midMsg midThreshold sender size := by
        have hcharged := hyes₂ rfl
        rwa [Charged, hmid₁] at hcharged
      refine ⟨fun hsize ↦ ?_, nofun, nofun, nofun, fun _ ↦ ⟨hlarge₂, hmid₂⟩⟩
      have hsmall : size ≤ midThreshold := hsize.resolve_right hmax
      have hle : ¬ largeThreshold < size := by
        simp only [largeThreshold, midThreshold] at hsmall ⊢
        omega
      rw [Charged, if_neg hle] at hlarge₂
      rw [Charged, if_neg (by omega)] at hmid₂
      funext l
      by_cases hl : l = .midMsg
      · rw [hl, hmid₂]
      by_cases hl' : l = .largeMsg
      · rw [hl', hlarge₂]
      · rw [hothers₂ l hl, hothers l hl']

/-! ## SEND_MESSAGE -/

/-- The message of a response to SEND_MESSAGE without success. -/
def Reply.refusal (reply : Reply) : Option String :=
  match reply.payload with
  | .sendMessage resp => if resp.success then none else some resp.errorMessage
  | _ => none

/-- What a program that asks no limiter and does not refuse ends in. -/
def Settled (L : Limiters) (r : Except String SendMessageResponse) (w : World) : Prop :=
  w.limiters = L ∧ ∀ resp, r = .ok resp → resp.success = true

theorem unmetered_sql (s : Stmt) : (Op.sql s).Unmetered := ⟨nofun, nofun⟩

theorem unmetered_clock : Op.clock.Unmetered := ⟨nofun, nofun⟩

/-- The rest of SEND_MESSAGE once the size has been checked. -/
theorem storeMessage_settles {env : ZenthSignalEnvelope} {size : Nat} {ts : Int64}
    (hsize : (env.contentBytes codec).length = size) (hL : ∀ l, (L l).Sound) (hw : w.limiters = L) :
    (server codec verifyDetached).Wp (fun r w ↦ Costs L w.limiters env.senderHashId size
        (Reply.flagged .sendMessage (·.success)
          (r.mapError fun e ↦ s!"Send message error: {e}")).refusal)
      (storeMessage codec env ts) w := by
  unfold storeMessage
  rw [hsize]
  refine (Machine.wp_bind _ _).mpr ((checkSize_wp hL hw).mono fun refusal w₁ hcosts ↦ ?_)
  cases refusal with
  | some message => exact hcosts
  | none =>
  refine Machine.Wp.mono (?_ : (server codec verifyDetached).Wp (Settled w₁.limiters) _ w₁)
    fun r w hw ↦ ?_
  · have hexpiry : (server codec verifyDetached).Wp (fun _ w ↦ w.limiters = w₁.limiters)
        (expiryOf env.sequenceNumber) w₁ := by
      unfold expiryOf
      split
      · rfl
      refine wp_unmetered unmetered_clock (fun w now hw ↦ ?_) rfl
      dsimp only
      split
      · exact hw
      · intro _ _ _ impossible
        cases impossible
    refine (Machine.wp_bind _ _).mpr (hexpiry.mono fun expiresAt w₂ hw₂ ↦ ?_)
    refine wp_unmetered (unmetered_sql _) (fun w₃ r hw₃ ↦ ?_) hw₂
    cases r with
    | error e => exact ⟨hw₃, by simp⟩
    | ok n =>
        refine (Machine.wp_bind _ _).mpr ?_
        refine wp_unmetered unmetered_clock (fun w₄ now hw₄ ↦ ?_) hw₃
        refine wp_unmetered (o := .spawnSend _ _) ⟨by simp, by simp⟩ (fun w₅ _ hw₅ ↦ ?_) hw₄
        refine ⟨hw₅, ?_⟩
        rintro _ ⟨⟩
        rfl
  · obtain ⟨hw, hsuccess⟩ := hw
    rw [hw]
    cases r with
    | error e => exact hcosts
    | ok resp =>
        have hnone : (Reply.flagged .sendMessage (·.success) (.ok resp)).refusal = none :=
          if_pos (hsuccess resp rfl)
        change Costs L w₁.limiters env.senderHashId size
          (Reply.flagged .sendMessage (·.success) (.ok resp)).refusal
        rw [hnone]
        exact hcosts

theorem sendMessage_wp {env : ZenthSignalEnvelope} (hL : ∀ l, (L l).Sound) (hw : w.limiters = L) :
    (server codec verifyDetached).Wp (fun reply w ↦
        Costs L w.limiters env.senderHashId (env.contentBytes codec).length reply.refusal)
      (processCall codec (.sendMessage env)) w := by
  have hfree {w : World} (hw : w.limiters = L) {message : String} (hm : message ≠ midRefusal) :
      Costs L w.limiters env.senderHashId (env.contentBytes codec).length (some message) := by
    rw [hw]
    exact .free hm
  refine (Machine.wp_bind _ _).mpr ?_
  unfold sendMessage
  refine wp_unmetered (unmetered_sql _) (fun w₁ r hw₁ ↦ ?_) hw
  cases r with
  | error e => cases e <;> exact hfree hw₁ (by decide)
  | ok sender =>
  refine wp_unmetered (o := .verify _ _ _) ⟨nofun, nofun⟩ (fun w₂ valid hw₂ ↦ ?_) hw₁
  split
  · exact hfree hw₂ (by decide)
  refine wp_unmetered (unmetered_sql _) (fun w₃ r hw₃ ↦ ?_) hw₂
  cases r with
  | error e => cases e <;> exact hfree hw₃ (by decide)
  | ok recipient =>
  refine wp_unmetered unmetered_clock (fun w₄ now hw₄ ↦ ?_) hw₃
  exact storeMessage_settles rfl hL hw₄

/-- The limiters of a reachable state are those of the process. -/
theorem Reachable.limiters_sound (h : Reachable codec verifyDetached c) (l : LimiterId) :
    (c.world.limiters l).Sound := by
  have hlimits : ∃ log, Limits l [] log c.world := by
    refine h.induction (I := fun d ↦ ∃ log, Limits l [] log d.world) (fun clock instant ↦ ?_) ?_
    · exact ⟨[], limits_start l [] clock instant⟩
    · rintro d m d' - ⟨log, hlog⟩ hs
      exact ⟨_, hlog.step hs⟩
  obtain ⟨log, hlog⟩ := hlimits
  obtain ⟨hmax, hwindow, -⟩ := initLimiters_pos l
  exact ⟨by rwa [hlog.max], by rwa [hlog.window]⟩

/-- **What a message costs.**  Let a SEND_MESSAGE run alone from a reachable state.  With a content
of at most 1 MiB, or of more than 25 MiB, it leaves all limiters as they were.  If it is answered
with a response without success (bad signature, unknown account, too large, refused by a limiter),
the limiter for more than 1 MiB is as it was, and so is the one for more than 10 MiB, except where
the other refuses: then a message of more than 10 MiB has been admitted and counted.  If it is
stored, or the INSERT fails, it has been counted by every limiter that it was large enough for. -/
theorem sendMessage_quota {clock instant : Nat} {ms : Moves} {env : ZenthSignalEnvelope}
    {reply : Reply}
    (h : (server codec verifyDetached).run (.start (.initial clock instant)) ms = some c)
    (hans : Answers codec verifyDetached c (.sendMessage env) reply c') :
    Costs c.world.limiters c'.world.limiters env.senderHashId (env.contentBytes codec).length
      reply.refusal := by
  have hc : Reachable codec verifyDetached c := ⟨clock, instant, ms, h⟩
  obtain ⟨w, hcosts, hdrift⟩ := hans.wp (sendMessage_wp hc.limiters_sound rfl)
  rw [drifts_limiters hdrift]
  exact hcosts

/-! ## A message that is not stored -/

/-- The steps of a SEND_MESSAGE of more than 1 MiB, up to an INSERT that fails. -/
def failsAtInsert (e : String) : List Oracle := List.replicate 5 .none ++ [.fail e]

/-- The world after the limiter `l` has been asked about `key`. -/
def World.asked (w : World) (l : LimiterId) (key : Bytes) : World :=
  { w with limiters := Function.update w.limiters l ((w.limiters l).isAllowed w.instant key).2 }

@[simp] theorem World.asked_limiters (w : World) (l : LimiterId) (key : Bytes) :
    (w.asked l key).limiters l = ((w.limiters l).isAllowed w.instant key).2 :=
  Function.update_self _ _ _

theorem World.asked_others (w : World) {l l' : LimiterId} (key : Bytes) (h : l' ≠ l) :
    (w.asked l key).limiters l' = w.limiters l' := Function.update_of_ne h _ _

/-- A message of more than 1 MiB and at most 10 MiB that the limiter admits and the database does
not store. -/
theorem exec_unstored {env : ZenthSignalEnvelope} {sender recipient : User} (e : String)
    (hsender : ((Stmt.selectUser env.senderHashId).exec w.clock w.db).1 = .ok sender)
    (hrecipient : ((Stmt.selectUser env.recipientHashId).exec w.clock w.db).1 = .ok recipient)
    (hverify : verifyDilithiumSignature verifyDetached sender.identityKeyDilithium
      (env.signedData codec) env.dilithiumSignature = true)
    (hmid : midThreshold < (env.contentBytes codec).length)
    (hlarge : (env.contentBytes codec).length ≤ largeThreshold) (hseq : env.sequenceNumber = 0)
    (hallowed : ((w.limiters .midMsg).isAllowed w.instant env.senderHashId).1 = true) :
    (server codec verifyDetached).exec (processCall codec (.sendMessage env)) (failsAtInsert e) w =
      some (.err s!"Send message error: {e}", w.asked .midMsg env.senderHashId) := by
  have hmax : ¬ maxThreshold < (env.contentBytes codec).length := by
    simp only [largeThreshold, maxThreshold] at hlarge ⊢
    omega
  have hexec : (server codec verifyDetached).exec (sendMessage codec env) (failsAtInsert e) w =
      some (.error e, w.asked .midMsg env.senderHashId) := by
    unfold sendMessage failsAtInsert
    refine (Machine.exec_perform (.ok sender) w ?_).trans ?_
    · exact congrArg (fun r ↦ some (r, w)) hsender
    refine (Machine.exec_perform true w ?_).trans ?_
    · exact congrArg (fun r ↦ some (r, w)) hverify
    refine (Machine.exec_perform (.ok recipient) w ?_).trans ?_
    · exact congrArg (fun r ↦ some (r, w)) hrecipient
    refine (Machine.exec_perform w.clock w rfl).trans ?_
    unfold storeMessage checkSize withinLimit expiryOf
    simp only [if_neg hmax, if_neg (Nat.not_lt.mpr hlarge), if_pos hmid, if_pos hseq]
    refine (Machine.exec_perform true (w.asked .midMsg env.senderHashId) ?_).trans rfl
    exact congrArg (fun r ↦ some (r, w.asked .midMsg env.senderHashId)) hallowed
  exact Machine.exec_map _ hexec

/-- A message of more than 10 MiB that the first limiter admits and the second one refuses. -/
theorem exec_refused {env : ZenthSignalEnvelope} {sender recipient : User}
    (hsender : ((Stmt.selectUser env.senderHashId).exec w.clock w.db).1 = .ok sender)
    (hrecipient : ((Stmt.selectUser env.recipientHashId).exec w.clock w.db).1 = .ok recipient)
    (hverify : verifyDilithiumSignature verifyDetached sender.identityKeyDilithium
      (env.signedData codec) env.dilithiumSignature = true)
    (hlarge : largeThreshold < (env.contentBytes codec).length)
    (hmax : (env.contentBytes codec).length ≤ maxThreshold)
    (hallowed : ((w.limiters .largeMsg).isAllowed w.instant env.senderHashId).1 = true)
    (hspent : ((w.limiters .midMsg).isAllowed w.instant env.senderHashId).1 = false) :
    (server codec verifyDetached).exec (processCall codec (.sendMessage env))
        (List.replicate 6 .none) w =
      some (⟨false, .sendMessage { success := false, errorMessage := midRefusal }, ""⟩,
        (w.asked .largeMsg env.senderHashId).asked .midMsg env.senderHashId) := by
  have hmid : midThreshold < (env.contentBytes codec).length := by
    simp only [largeThreshold, midThreshold] at hlarge ⊢
    omega
  have hexec : (server codec verifyDetached).exec (sendMessage codec env)
      (List.replicate 6 .none) w = some (sendError midRefusal,
        (w.asked .largeMsg env.senderHashId).asked .midMsg env.senderHashId) := by
    unfold sendMessage
    refine (Machine.exec_perform (.ok sender) w ?_).trans ?_
    · exact congrArg (fun r ↦ some (r, w)) hsender
    refine (Machine.exec_perform true w ?_).trans ?_
    · exact congrArg (fun r ↦ some (r, w)) hverify
    refine (Machine.exec_perform (.ok recipient) w ?_).trans ?_
    · exact congrArg (fun r ↦ some (r, w)) hrecipient
    refine (Machine.exec_perform w.clock w rfl).trans ?_
    unfold storeMessage checkSize withinLimit
    simp only [if_neg (Nat.not_lt.mpr hmax), if_pos hlarge, if_pos hmid]
    refine (Machine.exec_perform true (w.asked .largeMsg env.senderHashId) ?_).trans ?_
    · exact congrArg (fun r ↦ some (r, w.asked .largeMsg env.senderHashId)) hallowed
    refine (Machine.exec_perform false ((w.asked .largeMsg env.senderHashId).asked .midMsg
      env.senderHashId) ?_).trans rfl
    exact congrArg (fun r ↦ some (r, (w.asked .largeMsg env.senderHashId).asked .midMsg
      env.senderHashId)) hspent
  exact Machine.exec_map _ hexec

namespace Sample

/-- A message of one byte more than 1 MiB from user 1 to user 2. -/
def heavy : ZenthSignalEnvelope :=
  ⟨1, word 1, word 2, some (.regularMessage ⟨List.replicate 1048577 0⟩), signature, 0, [9], 0⟩

theorem length_heavy : (heavy.contentBytes Sample.codec).length = 1048577 := List.length_replicate

/-- A message of one byte more than 10 MiB from user 1 to user 2. -/
def huge : ZenthSignalEnvelope :=
  ⟨1, word 1, word 2, some (.regularMessage ⟨List.replicate 10485761 0⟩), signature, 0, [8], 0⟩

theorem length_huge : (huge.contentBytes Sample.codec).length = 10485761 := List.length_replicate

/-- User 1 has sent a message of more than 1 MiB and too many. -/
def overMid : Reply := ⟨false, .sendMessage { success := false, errorMessage := midRefusal }, ""⟩

/-- The row of user `i`. -/
def row (i : UInt8) : User := ⟨word i, [1], key i, [1], [i], 0, 0, none⟩

/-- Every signature is valid under the key of user 1. -/
theorem verifies (message : Bytes) :
    verifyDilithiumSignature (fun _ _ _ ↦ true) (key 1) message signature = true := by
  have hkey : (key 1).length = publicKeyBytes := List.length_replicate
  have hsignature : signature.length = signatureBytes := List.length_replicate
  rw [verifyDilithiumSignature, if_neg (not_not.mpr hkey), if_neg (not_not.mpr hsignature)]

theorem selects_row {w : World} {i : UInt8} (h : w.db.users = [row 1, row 2])
    (hi : [row 1, row 2].filter (fun x ↦ x.userHashId = word i) = [row i]) :
    ((Stmt.selectUser (word i)).exec w.clock w.db).1 = .ok (row i) := by
  simp only [Stmt.exec, h, hi, Stmt.first]

/-- The server where every signature is valid, with the users 1 and 2. -/
theorem registered_view : ∃ c, (server Sample.codec fun _ _ _ ↦ true).run (.start (.initial 0 0))
      (registers 0 1 ++ registers 1 2) = some c ∧ c.world.db.users = [row 1, row 2] ∧
    c.world.db.messages = [] ∧
    ((c.world.limiters .midMsg).isAllowed c.world.instant (word 1)).1 = true ∧
    (((c.world.limiters .midMsg).isAllowed c.world.instant (word 1)).2.isAllowed c.world.instant
      (word 1)).1 = false ∧
    ((c.world.limiters .largeMsg).isAllowed c.world.instant (word 1)).1 = true := by
  have hrun : (((server Sample.codec fun _ _ _ ↦ true).run (.start (.initial 0 0))
      (registers 0 1 ++ registers 1 2)).map fun c ↦ (c.world.db.users, c.world.db.messages,
        ((c.world.limiters .midMsg).isAllowed c.world.instant (word 1)).1,
        (((c.world.limiters .midMsg).isAllowed c.world.instant (word 1)).2.isAllowed
          c.world.instant (word 1)).1,
        ((c.world.limiters .largeMsg).isAllowed c.world.instant (word 1)).1)) =
      some ([row 1, row 2], [], true, false, true) := by
    decide +kernel
  obtain ⟨c, hc, hview⟩ := Option.map_eq_some_iff.mp hrun
  obtain ⟨husers, hview⟩ := Prod.mk.inj hview
  obtain ⟨hmessages, hview⟩ := Prod.mk.inj hview
  obtain ⟨hfirst, hview⟩ := Prod.mk.inj hview
  exact ⟨c, hc, husers, hmessages, hfirst, (Prod.mk.inj hview).1, (Prod.mk.inj hview).2⟩

/-- The INSERT of the first message of user 1 fails, and the second message is refused. -/
theorem heavy_answers : ∃ c c' c'', (server Sample.codec fun _ _ _ ↦ true).run
      (.start (.initial 0 0)) (registers 0 1 ++ registers 1 2) = some c ∧
    Answers Sample.codec (fun _ _ _ ↦ true) c (.sendMessage heavy)
      (.err "Send message error: timeout") c' ∧ c'.world.db.messages = [] ∧
    c'.world.instant = c.world.instant ∧
    ((c.world.limiters .midMsg).isAllowed c.world.instant (word 1)).1 = true ∧
    ((c'.world.limiters .midMsg).isAllowed c'.world.instant (word 1)).1 = false ∧
    Answers Sample.codec (fun _ _ _ ↦ true) c' (.sendMessage huge) overMid c'' := by
  obtain ⟨c, hc, husers, hmessages, hfirst, hsecond, hlarge⟩ := registered_view
  have h₁ : [row 1, row 2].filter (fun x ↦ x.userHashId = word 1) = [row 1] := by decide +kernel
  have h₂ : [row 1, row 2].filter (fun x ↦ x.userHashId = word 2) = [row 2] := by decide +kernel
  have hexec := @exec_unstored Sample.codec (fun _ _ _ ↦ true) c.world heavy (row 1) (row 2)
    "timeout" (selects_row husers h₁) (selects_row husers h₂) (verifies _)
    (by rw [length_heavy]; decide) (by rw [length_heavy]; decide) rfl hfirst
  obtain ⟨c', hanswers, hw⟩ := answers_of_exec hexec
  have husers' : c'.world.db.users = [row 1, row 2] := by
    rw [hw]
    exact husers
  have hspent : ((c'.world.limiters .midMsg).isAllowed c'.world.instant (word 1)).1 = false := by
    rw [hw, World.asked_limiters]
    exact hsecond
  have hlarge' : ((c'.world.limiters .largeMsg).isAllowed c'.world.instant (word 1)).1 = true := by
    rw [hw, World.asked_others _ _ (by decide)]
    exact hlarge
  have hexec' := @exec_refused Sample.codec (fun _ _ _ ↦ true) c'.world huge (row 1) (row 2)
    (selects_row husers' h₁) (selects_row husers' h₂) (verifies _)
    (by rw [length_huge]; decide) (by rw [length_huge]; decide) hlarge' hspent
  obtain ⟨c'', hanswers', -⟩ := answers_of_exec hexec'
  refine ⟨c, c', c'', hc, hanswers, ?_, ?_, hfirst, hspent, hanswers'⟩
  · rw [hw]
    exact hmessages
  · rw [hw]
    rfl

end Sample

open Sample in
/-- The message is not stored, and the next one of more than 1 MiB, which the limiter would have
admitted before, is refused. -/
theorem quota_spent_unstored : ∃ c c', (server Sample.codec fun _ _ _ ↦ true).run
      (.start (.initial 0 0)) (registers 0 1 ++ registers 1 2) = some c ∧
    Answers Sample.codec (fun _ _ _ ↦ true) c (.sendMessage heavy)
      (.err "Send message error: timeout") c' ∧ c'.world.db.messages = [] ∧
    c'.world.limiters .midMsg ≠ c.world.limiters .midMsg ∧
    ((c.world.limiters .midMsg).isAllowed c.world.instant (word 1)).1 = true ∧
    ((c'.world.limiters .midMsg).isAllowed c'.world.instant (word 1)).1 = false := by
  obtain ⟨c, c', -, hc, hanswers, hnone, hinstant, hfirst, hsecond, -⟩ := heavy_answers
  refine ⟨c, c', hc, hanswers, hnone, fun hsame ↦ ?_, hfirst, hsecond⟩
  rw [hsame, hinstant, hfirst] at hsecond
  exact nomatch hsecond

open Sample in
/-- The first message has been counted by the limiter for more than 1 MiB.  The second one, of more
than 10 MiB, is refused by it and has been counted by the other. -/
theorem sendMessage_quota_heavy : ∃ c c' c'', (server Sample.codec fun _ _ _ ↦ true).run
      (.start (.initial 0 0)) (registers 0 1 ++ registers 1 2) = some c ∧
    Answers Sample.codec (fun _ _ _ ↦ true) c (.sendMessage heavy)
      (.err "Send message error: timeout") c' ∧
    Charged c.world.limiters c'.world.limiters .midMsg midThreshold (word 1) 1048577 ∧
    Answers Sample.codec (fun _ _ _ ↦ true) c' (.sendMessage huge) overMid c'' ∧
    c''.world.limiters .midMsg = c'.world.limiters .midMsg ∧
    ∃ now, ((c'.world.limiters .largeMsg).isAllowed now (word 1)).1 = true ∧
      c''.world.limiters .largeMsg = ((c'.world.limiters .largeMsg).isAllowed now (word 1)).2 := by
  obtain ⟨c, c', c'', hc, hanswers, -, -, -, -, hanswers'⟩ := heavy_answers
  have hcosts := sendMessage_quota hc hanswers
  rw [length_heavy] at hcosts
  obtain ⟨ms, hrun, -⟩ := id hanswers
  have hcosts' := sendMessage_quota (Machine.run_append.mpr ⟨c, hc, hrun⟩) hanswers'
  rw [length_huge] at hcosts'
  have hspent := hcosts'.spent rfl
  rw [Charged, if_pos (by decide)] at hspent
  exact ⟨c, c', c'', hc, hanswers, (hcosts.admitted rfl).2, hanswers', hcosts'.refused _ rfl, hspent⟩

end ZenthDht
