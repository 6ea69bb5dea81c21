import ZenthDht.Safety.Authentic
import ZenthDht.Safety.Signatures

/-!
# Which signed requests expire

All methods but LOGIN sign a timestamp.  Ten of them compare it with the clock before they verify
the signature, and a request of theirs is refused from 900 s after its timestamp on, whatever else
happens (`Method.RefusesStale`).  The other twelve never look at it, so a request of theirs is as
good as on the day it was signed.  And so is a signature made for a method that does compare: for
each of the ten there is one of the twelve that signs the same bytes, and takes the signature from
whoever sends it (`upload_replayed`, `never_expires`).
-/

namespace ZenthDht

open Conc Stmt

variable {codec : Codec} {verifyDetached : Bytes → Bytes → Bytes → Bool}
variable {c c' d : State} {t : Nat} {call : Call} {reply : Reply} {ts : UInt64} {ms : Moves}
variable {past' : Past} {m : Method}

/-- The timestamp of a signed request. -/
def Call.timestamp : Call → Option UInt64
  | .delete req => some req.timestamp
  | .contact req => some req.timestamp
  | .lookupUser req => some req.timestamp
  | .fetchFriendRequests req | .fetchFriendResponses req | .fetchMyAccepted req =>
    some req.timestamp
  | .respondFriendRequest req => some req.timestamp
  | .sendMessage env => some env.timestamp
  | .fetchMessages req => some req.timestamp
  | .uploadPrekeys req => some req.timestamp
  | .fetchPrekeyBundle req => some req.timestamp
  | .checkPrekeyCount req => some req.timestamp
  | .replenishPrekeys req => some req.timestamp
  | .syncPushBlob req => some req.timestamp
  | .syncFetchBlob req | .syncDeleteBlob req => some req.timestamp
  | .relayPush req => some req.timestamp
  | .relayFetch req => some req.timestamp
  | .relayAck req => some req.timestamp
  | .ackMessage req => some req.timestamp
  | .publishRecoveryKey req => some req.timestamp
  | .recoveryClaim req => some req.timestamp
  | .login _ | .register _ | .getUpdateManifest _ | .getUpdateChunk _ | .refused _ => none

/-- The methods that compare the timestamp with the clock. -/
def Method.checksFreshness : Method → Bool
  | .delete | .uploadPrekeys | .syncPushBlob | .syncFetchBlob | .syncDeleteBlob | .relayPush
  | .relayFetch | .relayAck | .publishRecoveryKey | .recoveryClaim => true
  | _ => false

/-- The bytes a request signs, those of LOGIN apart, which contain a challenge. -/
def Call.signedBytes (codec : Codec) : Call → Option Bytes
  | .delete req => some req.signedData
  | .contact req => some req.messageToVerify
  | .lookupUser req => some (lookupMessage req.requesterHash req.targetHash req.timestamp)
  | .fetchFriendRequests req | .fetchFriendResponses req | .fetchMyAccepted req =>
    some req.signedData
  | .respondFriendRequest req => some req.messageToVerify
  | .sendMessage env => some (env.signedData codec)
  | .fetchMessages req => some req.signedData
  | .uploadPrekeys req => some (prekeyMessage req.usernameHash req.timestamp)
  | .fetchPrekeyBundle req => some (lookupMessage req.requesterHash req.targetHash req.timestamp)
  | .checkPrekeyCount req => some (prekeyMessage req.usernameHash req.timestamp)
  | .replenishPrekeys req => some (prekeyMessage req.usernameHash req.timestamp)
  | .syncPushBlob req => some req.signedData
  | .syncFetchBlob req | .syncDeleteBlob req => some req.signedData
  | .relayPush req => some req.signedData
  | .relayFetch req => some req.signedData
  | .relayAck req => some req.signedData
  | .ackMessage req => some req.signedData
  | .publishRecoveryKey req => some req.signedData
  | .recoveryClaim req => some req.signedData
  | .login _ | .register _ | .getUpdateManifest _ | .getUpdateChunk _ | .refused _ => none

/-- The signature it comes with. -/
def Call.signature : Call → Option Bytes
  | .delete req => some req.dilithiumSignature
  | .contact req => some req.dilithiumSignature
  | .lookupUser req => some req.dilithiumSignature
  | .fetchFriendRequests req | .fetchFriendResponses req | .fetchMyAccepted req =>
    some req.dilithiumSignature
  | .respondFriendRequest req => some req.dilithiumSignature
  | .sendMessage env => some env.dilithiumSignature
  | .fetchMessages req => some req.dilithiumSignature
  | .uploadPrekeys req => some req.authSignature
  | .fetchPrekeyBundle req => some req.authSignature
  | .checkPrekeyCount req => some req.authSignature
  | .replenishPrekeys req => some req.authSignature
  | .syncPushBlob req => some req.authSignature
  | .syncFetchBlob req | .syncDeleteBlob req => some req.signature
  | .relayPush req => some req.senderSignature
  | .relayFetch req => some req.signature
  | .relayAck req => some req.signature
  | .ackMessage req => some req.dilithiumSignature
  | .publishRecoveryKey req => some req.authSignature
  | .recoveryClaim req => some req.recoverySignature
  | .login _ | .register _ | .getUpdateManifest _ | .getUpdateChunk _ | .refused _ => none

/-- They are what is verified. -/
theorem Call.Submits.signedBytes {key message signature : Bytes}
    (h : call.Submits codec past' key message signature) (hm : call.method ≠ some .login) :
    call.signedBytes codec = some message ∧ call.signature = some signature := by
  cases call with
  | login req => exact absurd rfl hm
  | register req | getUpdateManifest req | getUpdateChunk req | refused e => exact h.elim
  | _ =>
      simp only [Call.Submits] at h
      simp only [Call.signedBytes, Call.signature, h, and_self]

/-- The request comes with the signature of another one, over the same bytes. -/
def Call.Reuses (codec : Codec) (call call' : Call) : Prop :=
  call.signedBytes codec = call'.signedBytes codec ∧ call.signature = call'.signature

instance (call call' : Call) : Decidable (call.Reuses codec call') :=
  inferInstanceAs (Decidable (_ ∧ _))

/-- The timestamp is more than 900 seconds off the clock of the server when the move is made. -/
def Stale (ts : UInt64) (c : State) (_ : Move Job Oracle Act) : Prop :=
  900 < absDiff (toSecs c.world.clock) ts

instance (ts : UInt64) (c : State) (m : Move Job Oracle Act) : Decidable (Stale ts c m) :=
  inferInstanceAs (Decidable (_ < _))

theorem Stale.fresh {ts : UInt64} {c : State} {m : Move Job Oracle Act} (h : Stale ts c m) :
    fresh c.world.clock ts = false := decide_eq_false (Nat.not_le_of_lt h)

/-- A move of thread `t` changes no table. -/
def LeavesTables (codec : Codec) (verifyDetached : Bytes → Bytes → Bytes → Bool) (t : Nat)
    (c : State) (m : Move Job Oracle Act) : Prop :=
  ∀ ω c', m = .step t ω → (server codec verifyDetached).next c m = some c' →
    c'.world.db = c.world.db

/-- The request on thread `t` is `call`, and it has been answered and not been refused. -/
def Passed (c : State) (t : Nat) (call : Call) : Prop :=
  ∃ reply, c.answered t = some (.request call, reply) ∧ ¬ call.Refuses reply

/-- Whatever happens, as long as the timestamp `ts` is stale from the arrival on, the request `call`
that arrives in `c` changes no table, and it is refused if it is answered. -/
def Rejected (codec : Codec) (verifyDetached : Bytes → Bytes → Bytes → Bool) (c : State)
    (call : Call) (ts : UInt64) : Prop :=
  ∀ (c' : State) ms,
    (server codec verifyDetached).run c (.spawn (.request call) :: ms) = some c' →
    (server codec verifyDetached).Along (Stale ts) c (.spawn (.request call) :: ms) →
    (server codec verifyDetached).Along (LeavesTables codec verifyDetached c.pool.length) c
      (.spawn (.request call) :: ms) ∧
    ∀ job reply, c'.answered c.pool.length = some (job, reply) → call.Refuses reply

/-- In every state, every request of the method with a stale timestamp is rejected. -/
def Method.RefusesStale (m : Method) : Prop :=
  ∀ codec verifyDetached (c : State) call ts, Reachable codec verifyDetached c →
    call.method = some m → call.timestamp = some ts → Rejected codec verifyDetached c call ts

/-- When a request of the method that has passed is stale, its signature is worth nothing: whatever
request comes with it, of this method or another one that signs the same bytes, is rejected. -/
def Method.NeverReplayed (m : Method) : Prop :=
  ∀ codec verifyDetached (c : State) t call call' ts, Reachable codec verifyDetached c →
    call.method = some m → call.timestamp = some ts → Passed c t call →
    call'.Reuses codec call → Rejected codec verifyDetached c call' ts

/-- Requests of the method expire. -/
structure Method.Expires (m : Method) : Prop where
  refused : m.RefusesStale
  replayed : m.NeverReplayed

/-! ## Methods that check -/

/-- A method that checks has found the timestamp fresh when it verifies the signature. -/
theorem Call.Submits.fresh {key message signature : Bytes}
    (h : call.Submits codec past' key message signature) (hm : call.method = some m)
    (hts : call.timestamp = some ts) (hcheck : m.checksFreshness = true) :
    ReadFresh past' ts := by
  cases call with
  | delete req | uploadPrekeys req | syncFetchBlob req | syncDeleteBlob req | relayPush req =>
      obtain rfl := Option.some.inj hts
      exact h.2.1
  | relayFetch req | relayAck req =>
      obtain rfl := Option.some.inj hts
      exact h.1
  | syncPushBlob req | publishRecoveryKey req | recoveryClaim req =>
      obtain rfl := Option.some.inj hts
      exact h.2.2.1
  | register req | getUpdateManifest req | getUpdateChunk req | refused req => exact nomatch hm
  | _ =>
      obtain rfl := Option.some.inj hm
      exact nomatch hcheck

/-- A request that is stale whenever a move is made has read no clock at which it is fresh. -/
theorem stale_past (hc : Reachable codec verifyDetached c)
    (hrun : (server codec verifyDetached).run c (.spawn (.request call) :: ms) = some c')
    (hstale : (server codec verifyDetached).Along (Stale ts) c (.spawn (.request call) :: ms)) :
    Reachable codec verifyDetached c' ∧ Runs c' c.pool.length (.request call) ∧
      ¬ ReadFresh (past c.pool.length c'.trace) ts := by
  obtain ⟨c₁, h₁, hrun'⟩ := Machine.run_cons.mp hrun
  refine ⟨hc.run hrun, runs_of_spawn hrun, ?_⟩
  refine Machine.Along.invariant (I := fun d ↦ ¬ ReadFresh (past c.pool.length d.trace) ts) ?_
    (hstale.2 _ h₁) hrun' ?_
  · rintro d m d' hd hm hs ⟨now, hnow, hfresh⟩
    cases hs with
    | spawn j => exact hd ⟨now, hnow, hfresh⟩
    | act ha => exact hd ⟨now, hnow, hfresh⟩
    | @step u ω j o k r w hu hp =>
        rcases did_append.mp (past_append .. ▸ hnow) with hold | hnew
        · exact hd ⟨now, hold, hfresh⟩
        · obtain ⟨rfl, hevent⟩ := Prod.mk.inj (List.mem_singleton.mp (mem_past.mp hnew))
          obtain ⟨rfl, hr⟩ := Sigma.mk.inj hevent
          obtain rfl := eq_of_heq hr
          -- the reading is the clock of the world, which is stale
          have hclock : now = d.world.clock := by
            cases ω <;> exact (Prod.mk.inj (Option.some.inj hp)).1.symm
          rw [hclock, Stale.fresh hm] at hfresh
          exact nomatch hfresh
  · obtain rfl := Option.some.inj h₁
    change ¬ ReadFresh (past c.pool.length c.trace) ts
    rw [hc.no_past]
    rintro ⟨now, hnow, -⟩
    exact nomatch hnow

/-- A stale request of a method that checks has verified nothing. -/
theorem unverified_of_stale (hd : Reachable codec verifyDetached d)
    (hj : Runs d t (.request call)) (hm : call.method = some m) (hts : call.timestamp = some ts)
    (hcheck : m.checksFreshness = true) (hstale : ¬ ReadFresh (past t d.trace) ts) :
    Unverified (past t d.trace) := by
  intro key message signature hv
  obtain ⟨key, message, signature, hs, -⟩ := hd.vouched hj hv
  exact hstale (hs.fresh hm hts hcheck)

/-- A request of a method that checks the timestamp is neither REGISTER nor LOGIN. -/
theorem leavesTables_of_unverified (hd : Reachable codec verifyDetached d)
    (hj : Runs d t (.request call)) (hm : call.method = some m)
    (hcheck : m.checksFreshness = true) (hno : Unverified (past t d.trace))
    (mv : Move Job Oracle Act) : LeavesTables codec verifyDetached t d mv := by
  rintro ω d' rfl hnext
  have hs := Machine.step_of_next hnext
  cases hs with
  | @step _ _ j o k r w ht hp =>
      by_cases ho : ∃ s, o = .sql s
      · obtain ⟨s, rfl⟩ := ho
        rcases perform_sql hp with ⟨rfl, -⟩ | ⟨-, rfl⟩
        · rfl
        obtain rfl := hj.unique ⟨_, ht⟩
        have hguard : s.Guard codec (.request call) (past t d.trace) := hd.guard ht
        rcases hguard.unverified hno with hreads | ⟨req, rfl⟩ | ⟨req, rfl, -⟩ | ⟨req, i, rfl, -⟩
        · exact hreads _ _
        · exact nomatch hm
        · obtain rfl := Option.some.inj hm
          exact nomatch hcheck
        · obtain rfl := Option.some.inj hm
          exact nomatch hcheck
      · exact perform_db (fun s hs ↦ ho ⟨s, hs⟩) hp

/-- The methods that check refuse what is stale. -/
theorem Method.refusesStale_of_check (hcheck : m.checksFreshness = true) : m.RefusesStale := by
  intro codec verifyDetached c call ts hc hm hts c' ms hrun hstale
  constructor
  · refine Machine.along_of_forall fun ms₁ mv ms₂ d hms h₁ ↦ ?_
    cases ms₁ with
    | nil =>
        obtain ⟨rfl, -⟩ := List.cons.inj hms
        exact fun ω d' h ↦ nomatch h
    | cons m₁ ms₁ =>
        obtain ⟨rfl, hms⟩ := List.cons.inj hms
        rw [hms] at hstale
        obtain ⟨hd, hj, hpast⟩ := stale_past hc h₁ hstale.left
        exact leavesTables_of_unverified hd hj hm hcheck
          (unverified_of_stale hd hj hm hts hcheck hpast) mv
  · intro job reply hans
    obtain ⟨hd, hj, hpast⟩ := stale_past hc hrun hstale
    obtain rfl := Runs.unique ⟨_, answered_iff.mp hans⟩ hj
    refine hd.request_answer (processCall_refuses ?_ ?_) hans
      (unverified_of_stale hd hj hm hts hcheck hpast)
    · cases call with
      | login req =>
          obtain rfl := Option.some.inj hm
          exact nomatch hcheck
      | register req | getUpdateManifest req | getUpdateChunk req => exact nomatch hm
      | _ => rfl
    · rintro req rfl
      obtain rfl := Option.some.inj hm
      exact nomatch hcheck

/-! ## Methods that do not check -/

instance (call : Call) (reply : Reply) : Decidable (call.Refuses reply) :=
  inferInstanceAs (Decidable (_ ∨ _))

theorem passed_iff : Passed c t call ↔
    ((c.answered t).any fun x ↦ x.1 = .request call ∧ ¬ call.Refuses x.2) = true := by
  rw [Option.any_eq_true]
  constructor
  · rintro ⟨reply, hans, hpass⟩
    exact ⟨_, hans, decide_eq_true ⟨rfl, hpass⟩⟩
  · rintro ⟨⟨job, reply⟩, hans, hpass⟩
    obtain ⟨rfl, hpass⟩ := of_decide_eq_true hpass
    exact ⟨reply, hans, hpass⟩

instance (c : State) (t : Nat) (call : Call) : Decidable (Passed c t call) :=
  decidable_of_iff _ passed_iff.symm

/-- A request that passes, with a stale timestamp, has not been rejected. -/
theorem Passed.not_rejected (h : Passed c' c.pool.length call)
    (hrun : (server codec verifyDetached).run c (.spawn (.request call) :: ms) = some c')
    (hstale : (server codec verifyDetached).Along (Stale ts) c (.spawn (.request call) :: ms)) :
    ¬ Rejected codec verifyDetached c call ts := by
  intro hrejected
  obtain ⟨reply, hans, hpass⟩ := h
  exact hpass ((hrejected c' ms hrun hstale).2 _ reply hans)

namespace Sample

/-- User 1 asks for the friendship of user 2. -/
def oldContact : FriendRequest := ⟨word 1, word 2, [3], signature, [], 0⟩

/-- A request signed at second 0, for each method that does not check the timestamp. -/
def oldCall : Method → Call
  | .contact => .contact oldContact
  | .lookupUser => .lookupUser ⟨word 1, word 2, signature, 0⟩
  | .fetchFriendRequests => .fetchFriendRequests ⟨word 1, 0, signature, 0⟩
  | .respondFriendRequest => .respondFriendRequest ⟨word 2, word 1, true, [3], signature, 0⟩
  | .sendMessage => .sendMessage ⟨1, word 1, word 2, none, signature, 0, [9], 0⟩
  | .fetchMessages => .fetchMessages ⟨word 1, 0, 0, 0, signature⟩
  | .fetchFriendResponses => .fetchFriendResponses ⟨word 1, 0, signature, 0⟩
  | .fetchPrekeyBundle => .fetchPrekeyBundle ⟨word 1, word 2, signature, 0⟩
  | .checkPrekeyCount => .checkPrekeyCount ⟨word 1, signature, 0⟩
  | .replenishPrekeys => .replenishPrekeys ⟨word 1, [⟨2, [2]⟩], signature, 0⟩
  | .fetchMyAccepted => .fetchMyAccepted ⟨word 1, 0, signature, 0⟩
  | .ackMessage => .ackMessage ⟨[9], word 1, 0, signature⟩
  | _ => .refused ""

/-- The steps of such a request. -/
def oldSteps : Method → Nat
  | .sendMessage => 7
  | .respondFriendRequest | .fetchMessages => 6
  | .contact => 5
  | .lookupUser | .checkPrekeyCount | .ackMessage => 3
  | _ => 4

/-- What users 1 and 2 signed at second 0. -/
def oldSigned : List (Bytes × Bytes) :=
  [(key 1, oldContact.messageToVerify), (key 2, acceptMessage (word 2) (word 1)),
   (key 1, lookupMessage (word 1) (word 2) 0), (key 1, prekeyMessage (word 1) 0),
   (key 1, word 1 ++ le64 0 ++ le64 0), (key 1, word 1 ++ word 2 ++ [9] ++ le64 0),
   (key 1, word 1 ++ le64 0 ++ le32 0 ++ le64 0), (key 1, [9] ++ word 1 ++ le64 0)]

/-- The users have accounts, the friend request is stored, and 1000 seconds have passed. -/
def oldSetup : Moves :=
  registers 0 1 ++ registers 1 2 ++ .spawn (.request (.contact oldContact)) :: steps 2 6 ++
  [.act (.tick 1000000000 0)]

def oldMoves (m : Method) : Moves := .spawn (.request (oldCall m)) :: steps 3 (oldSteps m)

end Sample

open Sample in
/-- The requests signed at second 0 pass at second 1000. -/
theorem not_refusesStale (hm : m ≠ .login) (hcheck : m.checksFreshness = false) :
    ¬ m.RefusesStale := by
  have hall : (Method.all.all fun m ↦ m = .login || m.checksFreshness ||
      ((oldCall m).method = some m && (oldCall m).timestamp = some 0 &&
        (final oldSigned oldSetup).any fun c ↦ c.pool.length = 3 &&
          (system oldSigned).check (fun c m ↦ decide (Stale 0 c m)) c (oldMoves m) &&
          ((system oldSigned).run c (oldMoves m)).any fun c' ↦
            decide (Passed c' 3 (oldCall m)))) = true := by decide +kernel
  have hrun := List.all_eq_true.mp hall m m.mem_all
  simp only [hm, hcheck, decide_false, Bool.false_or, Bool.and_eq_true, decide_eq_true_eq,
    Option.any_eq_true] at hrun
  obtain ⟨⟨hmethod, hts⟩, c, hc, ⟨hpool, hstale⟩, c', hc', hpassed⟩ := hrun
  intro hrefuses
  rw [← hpool] at hpassed
  exact hpassed.not_rejected hc' (Machine.along_of_check hstale)
    (hrefuses _ _ c _ 0 ⟨0, 0, _, hc⟩ hmethod hts)

/-! ## Signatures of methods that check -/

namespace Sample

/-- A request that user 1 signs at second 0, for each method that checks the timestamp.  Its
identity key is also the recovery key, and that of a device. -/
def freshCall : Method → Call
  | .delete => .delete ⟨word 1, signature, 0⟩
  | .uploadPrekeys => .uploadPrekeys ⟨word 1, [⟨1, [1]⟩], signature, 0⟩
  | .relayPush => .relayPush ⟨key 1, [5], List.replicate 12 0, key 1, signature, 0, 0⟩
  | .relayFetch => .relayFetch ⟨key 1, 0, 0, 0, signature⟩
  | .relayAck => .relayAck ⟨key 1, 0, 0, signature⟩
  | .syncPushBlob => .syncPushBlob ⟨key 1, [5], [], key 1, signature, 0, 0⟩
  | .syncFetchBlob => .syncFetchBlob ⟨key 1, key 1, signature, 0⟩
  | .syncDeleteBlob => .syncDeleteBlob ⟨key 1, key 1, signature, 0⟩
  | .publishRecoveryKey => .publishRecoveryKey ⟨word 1, key 1, signature, 0⟩
  | .recoveryClaim => .recoveryClaim ⟨word 1, key 2, [1], [1], signature, 0⟩
  | _ => .refused ""

def freshSteps : Method → Nat
  | .delete => 10
  | .recoveryClaim => 7
  | .relayPush | .syncPushBlob => 5
  | .relayAck | .syncDeleteBlob => 3
  | _ => 4

/-- The middle of the signed bytes, which CONTACT takes for a bundle. -/
def reusedBundle : Method → Bytes
  | .relayFetch | .relayAck => (key 1).drop 32 ++ leI64 0
  | .syncPushBlob => (key 1).drop 32 ++ [5]
  | .publishRecoveryKey => key 1
  | .recoveryClaim => key 2
  | _ => (key 1).drop 32

/-- What is sent with the signature at second 1000: pre-keys of user 1, or a friend request to it
of user 7, who has registered with the key of user 1. -/
def reusedCall : Method → Call
  | .delete | .uploadPrekeys => .replenishPrekeys ⟨word 1, [⟨2, [2]⟩], signature, 0⟩
  | m => .contact ⟨word 7, word 1, reusedBundle m, signature, [], 0⟩

def reusedSteps : Method → Nat
  | .delete | .uploadPrekeys => 4
  | _ => 6

/-- What user 1 has signed. -/
def reusedSigned : List (Bytes × Bytes) :=
  [word 1 ++ le64 0, key 1 ++ le64 0, key 1 ++ leI64 0 ++ le64 0, key 1 ++ [5] ++ le64 0,
   word 1 ++ key 1 ++ le64 0, word 1 ++ key 2 ++ le64 0].map fun message ↦ (key 1, message)

/-- The users have accounts, user 1 has a recovery key and a blob for its device, sends the request
(thread 4) and registers again if it has left, and 1000 seconds pass. -/
def reusedSetup (m : Method) : Moves :=
  registers 0 1 ++ .spawn (.request (.register ⟨word 7, [1], key 1, [1], [7], 0⟩)) :: steps 1 1 ++
  .spawn (.request (freshCall .publishRecoveryKey)) :: steps 2 4 ++
  .spawn (.request (freshCall .syncPushBlob)) :: steps 3 5 ++
  .spawn (.request (freshCall m)) :: List.replicate (freshSteps m) (.step 4 (random 0)) ++
  registers 5 1 ++ [.act (.tick 1000000000 0)]

def reusedMoves (m : Method) : Moves :=
  .spawn (.request (reusedCall m)) :: steps 6 (reusedSteps m)

end Sample

open Sample in
/-- The signatures of the methods that check pass with others. -/
theorem not_neverReplayed (hcheck : m.checksFreshness = true) : ¬ m.NeverReplayed := by
  have hall : (Method.all.all fun m ↦ !m.checksFreshness ||
      ((freshCall m).method = some m && (freshCall m).timestamp = some 0 &&
        (reusedCall m).Reuses Sample.codec (freshCall m) &&
        (final reusedSigned (reusedSetup m)).any fun c ↦ c.pool.length = 6 &&
          decide (Passed c 4 (freshCall m)) &&
          (system reusedSigned).check (fun c m ↦ decide (Stale 0 c m)) c (reusedMoves m) &&
          ((system reusedSigned).run c (reusedMoves m)).any fun c' ↦
            decide (Passed c' 6 (reusedCall m)))) = true := by decide +kernel
  have hrun := List.all_eq_true.mp hall m m.mem_all
  simp only [hcheck, Bool.not_true, Bool.false_or, Bool.and_eq_true, decide_eq_true_eq,
    Option.any_eq_true] at hrun
  obtain ⟨⟨⟨hmethod, hts⟩, hreuses⟩, c, hc, ⟨⟨hpool, hfresh⟩, hstale⟩, c', hc', hpassed⟩ := hrun
  intro hnever
  rw [← hpool] at hpassed
  exact hpassed.not_rejected hc' (Machine.along_of_check hstale)
    (hnever _ _ c 4 _ _ 0 ⟨0, 0, _, hc⟩ hmethod hts hfresh hreuses)

/-- **Expiry.**  Of the methods that sign a timestamp with their request, exactly those that compare
it with the clock refuse stale requests.  But the requests of none expire: the signature of a request
of any of them passes for ever, with a request of a method that does not look at the clock. -/
theorem never_expires (hm : m ≠ .login) :
    (m.RefusesStale ↔ m.checksFreshness = true) ∧ ¬ m.Expires := by
  constructor
  · constructor
    · intro hrefuses
      by_contra hcheck
      exact not_refusesStale hm (Bool.eq_false_iff.mpr hcheck) hrefuses
    · exact Method.refusesStale_of_check
  · intro hexpires
    cases hcheck : m.checksFreshness with
    | false => exact not_refusesStale hm hcheck hexpires.refused
    | true => exact not_neverReplayed hcheck hexpires.replayed

theorem never_expires_delete : Method.delete.RefusesStale ∧ ¬ Method.delete.Expires ∧
    ¬ Method.replenishPrekeys.RefusesStale := by
  refine ⟨(never_expires (m := .delete) nofun).1.mpr rfl, (never_expires (m := .delete) nofun).2, ?_⟩
  intro hrefuses
  exact nomatch (never_expires (m := .replenishPrekeys) nofun).1.mp hrefuses

namespace Sample

/-- The upload that user 1 signed at second 0. -/
def oldUpload : UploadPreKeysRequest := ⟨word 1, [⟨1, [1]⟩], signature, 0⟩

/-- Pre-keys of somebody else's, with the signature and the timestamp of the upload. -/
def replayedUpload : ReplenishPreKeysRequest := ⟨word 1, [⟨2, [2]⟩], signature, 0⟩

/-- User 1 uploads a pre-key, and 1000 seconds pass. -/
def uploadRun : Moves :=
  registers 0 1 ++ .spawn (.request (.uploadPrekeys oldUpload)) :: steps 1 4 ++
  [.act (.tick 1000000000 0)]

def replayMoves : Moves := .spawn (.request (.replenishPrekeys replayedUpload)) :: steps 2 4

end Sample

open Sample in
/-- The signature of an upload that has long expired is accepted with REPLENISH_PREKEYS, which
stores whatever pre-keys come with it. -/
theorem upload_replayed : ∃ c c' : State, final oldSigned uploadRun = some c ∧
    c.answered 1 = some (.request (.uploadPrekeys oldUpload),
      ⟨true, .uploadPrekeys { success := true, prekeysStored := 1 }, ""⟩) ∧
    (system oldSigned).run c replayMoves = some c' ∧
    (system oldSigned).Along (Stale 0) c replayMoves ∧
    c'.answered 2 = some (.request (.replenishPrekeys replayedUpload),
      ⟨true, .replenishPrekeys { success := true, totalPrekeys := 2 }, ""⟩) ∧
    c'.world.db.oneTimePrekeys.map OneTimePrekey.publicKey = [[1], [2]] ∧
    ¬ ∀ m, m ≠ .login → Method.Expires m := by
  have hupload : ((final oldSigned uploadRun).bind fun c ↦ c.answered 1) =
      some (.request (.uploadPrekeys oldUpload),
        ⟨true, .uploadPrekeys { success := true, prekeysStored := 1 }, ""⟩) := by decide +kernel
  have hreplay : ((final oldSigned uploadRun).bind fun c ↦ (system oldSigned).run c replayMoves).map
      (fun c' : State ↦ (c'.answered 2, c'.world.db.oneTimePrekeys.map OneTimePrekey.publicKey)) =
      some (some (.request (.replenishPrekeys replayedUpload),
        ⟨true, .replenishPrekeys { success := true, totalPrekeys := 2 }, ""⟩), [[1], [2]]) := by
    decide +kernel
  have hstale : ((final oldSigned uploadRun).map fun c ↦ c.pool.length = 2 &&
      (system oldSigned).check (fun c m ↦ decide (Stale 0 c m)) c replayMoves) = some true := by
    decide +kernel
  obtain ⟨c', hc', hview⟩ := Option.map_eq_some_iff.mp hreplay
  obtain ⟨c, hc, hc'⟩ := Option.bind_eq_some_iff.mp hc'
  obtain ⟨hans, hrows⟩ := Prod.mk.inj hview
  rw [hc] at hupload hstale
  simp only [Option.map_some, Option.some.injEq, Bool.and_eq_true, decide_eq_true_eq] at hstale
  obtain ⟨hpool, hstale⟩ := hstale
  have halong := Machine.along_of_check hstale
  refine ⟨c, c', hc, hupload, hc', halong, hans, hrows, fun hexpires ↦ ?_⟩
  have hpassed : Passed c 1 (.uploadPrekeys oldUpload) := ⟨_, hupload, by decide⟩
  have hreplayed : Passed c' c.pool.length (.replenishPrekeys replayedUpload) :=
    ⟨_, by rw [hpool]; exact hans, by decide⟩
  exact hreplayed.not_rejected hc' halong ((hexpires .uploadPrekeys nofun).replayed _ _ c 1
    (.uploadPrekeys oldUpload) _ 0 ⟨0, 0, _, hc⟩ rfl rfl hpassed ⟨rfl, rfl⟩)

end ZenthDht
