import ZenthDht.Conc.Script
import ZenthDht.Model.Dispatch

/-!
# The scripts of the methods

What every method does, in order, and at most: which tables it reads and writes apart, a request is
a short list of steps that some results cut short.  No loop of a handler reaches the database, so
the script of a method is its whole work, whatever the request carries.
-/

namespace ZenthDht

open Conc

/-- What kind of step an operation is. -/
inductive OpKind
  | read
  | write
  | clock
  | random
  | verify
  | limit
  | notify
  | spawn
  | unregister
  | store
  | panic
  | other
deriving DecidableEq

def Stmt.kind : Stmt → OpKind
  | .selectConfig _ | .selectUser _ | .selectChallenge _ _ | .selectSession _ _
  | .countFriendRequests _ _ | .selectFriendRequest _ _ | .loadFriendRequests _ _
  | .selectFriendRequestIds _ | .countFriendResponses _ | .loadFriendResponses _ _
  | .loadAccepted _ _ | .countUnusedPrekeys _ | .selectUnusedPrekey _ | .countMessages _ _ _
  | .loadMessages _ _ _ _ | .loadRelay _ _ _ _ | .selectBlob _ _ => .read
  | _ => .write

def Op.kind : Op → OpKind
  | .sql s => s.kind
  | .clock => .clock
  | .fillBytes => .random
  | .verify _ _ _ => .verify
  | .limiter _ _ => .limit
  | .sendToUser _ _ => .notify
  | .spawnSend _ _ => .spawn
  | .unregister _ => .unregister
  | .getManifest | .getRange _ _ _ => .store
  | .panic => .panic
  | _ => .other

/-- The steps of a LOGIN once it has read the user, as it asks for a challenge or answers one. -/
def loginSteps : Bool → List OpKind
  | true => [.random, .random, .clock, .write, .write, .clock]
  | false => [.read, .clock, .verify, .write, .random, .clock, .write]

/-- The steps of a method. -/
def Call.script : Call → List OpKind
  | .register _ => [.write]
  | .login req => .read :: .read :: loginSteps req.requestChallenge
  | .delete _ =>
    [.clock, .read, .verify, .read, .write, .write, .write, .write, .write, .write, .unregister]
  | .contact _ => [.read, .read, .verify, .read, .write, .notify]
  | .lookupUser _ => [.read, .verify, .read]
  | .fetchFriendRequests _ | .fetchFriendResponses _ | .fetchMyAccepted _ =>
    [.read, .verify, .read, .clock]
  | .respondFriendRequest _ => [.read, .verify, .read, .read, .write, .notify]
  | .sendMessage _ =>
    [.read, .verify, .read, .clock, .limit, .limit, .clock, .panic, .write, .clock, .spawn]
  | .fetchMessages _ => [.read, .verify, .clock, .read, .read, .clock]
  | .uploadPrekeys _ => [.clock, .read, .verify, .write]
  | .fetchPrekeyBundle _ => [.read, .verify, .read, .read, .write]
  | .checkPrekeyCount _ => [.read, .verify, .read]
  | .replenishPrekeys _ => [.read, .verify, .write, .read]
  | .getUpdateManifest _ => [.store]
  | .getUpdateChunk _ => [.store, .store]
  | .syncPushBlob _ | .relayPush _ => [.clock, .limit, .verify, .clock, .write]
  | .syncFetchBlob _ | .relayFetch _ => [.clock, .verify, .clock, .read]
  | .syncDeleteBlob _ | .relayAck _ => [.clock, .verify, .write]
  | .ackMessage _ => [.read, .verify, .write]
  | .publishRecoveryKey _ => [.clock, .read, .verify, .write]
  | .recoveryClaim _ => [.clock, .read, .verify, .write, .random, .clock, .write]
  | .refused _ => []

section Handlers

variable {codec : Codec} {α : Type} {script : List OpKind}

/-- The program keeps to the script. -/
abbrev KeepsTo (script : List OpKind) (p : Handler α) : Prop := p.Follows Op.kind script

/-- A statement, and what follows an error and a result. -/
theorem keepsTo_sql {s : Stmt} {f : Except DieselError s.Out → Handler α}
    (he : ∀ e, KeepsTo script (f (.error e))) (hok : ∀ a, KeepsTo script (f (.ok a))) :
    KeepsTo (s.kind :: script) (sql s >>= f) :=
  Program.follows_perform fun r ↦ by
    cases r with
    | error e => exact he e
    | ok a => exact hok a

theorem keepsTo_call {o : Op} {f : Res o → Handler α} (h : ∀ r, KeepsTo script (f r)) :
    KeepsTo (o.kind :: script) (Program.call o >>= f) := Program.follows_perform h

section Clock

theorem keepsTo_utcNow {f : NaiveDateTime → Handler α} (h : ∀ t, KeepsTo script (f t)) :
    KeepsTo (.clock :: script) (utcNow >>= f) := Program.follows_perform fun _ ↦ h _

theorem keepsTo_currentTimestamp {f : UInt64 → Handler α} (h : ∀ t, KeepsTo script (f t)) :
    KeepsTo (.clock :: script) (currentTimestamp >>= f) := Program.follows_perform fun _ ↦ h _

theorem keepsTo_currentMillis {f : Int64 → Handler α} (h : ∀ t, KeepsTo script (f t)) :
    KeepsTo (.clock :: script) (currentMillis >>= f) := Program.follows_perform fun _ ↦ h _

theorem keepsTo_isTimestampFresh {ts : UInt64} {f : Bool → Handler α}
    (hf : KeepsTo script (f false)) (ht : KeepsTo script (f true)) :
    KeepsTo (.clock :: script) (isTimestampFresh ts >>= f) :=
  Program.follows_perform fun t ↦ by
    show KeepsTo script (f (fresh t ts))
    cases fresh t ts with
    | false => exact hf
    | true => exact ht

theorem keepsTo_verify {key message signature : Bytes} {f : Bool → Handler α}
    (hf : KeepsTo script (f false)) (ht : KeepsTo script (f true)) :
    KeepsTo (.verify :: script) (verify key message signature >>= f) :=
  Program.follows_perform fun (r : Bool) ↦ by
    cases r with
    | false => exact hf
    | true => exact ht

end Clock

/-! ## Accounts -/

theorem register_keepsTo (req : RegistrationRequest) : KeepsTo [.write] (register req) := by
  unfold register
  iterate 6
    split
    · trivial
  refine keepsTo_sql (fun e ↦ ?_) fun n ↦ trivial
  dsimp only
  split <;> trivial

theorem handleChallengeRequest_keepsTo (u : Bytes) (proofType : Int32) :
    KeepsTo [.random, .random, .clock, .write, .write, .clock]
      (handleChallengeRequest u proofType) := by
  unfold handleChallengeRequest
  refine keepsTo_call fun challengeId ↦ keepsTo_call fun nonce ↦ keepsTo_utcNow fun now ↦ ?_
  refine keepsTo_call fun _ ↦ keepsTo_sql (fun e ↦ trivial) fun n ↦ ?_
  exact keepsTo_currentTimestamp fun timestamp ↦ trivial

theorem handleProofVerification_keepsTo (user : User) (proof : AuthProof) :
    KeepsTo [.read, .clock, .verify, .write, .random, .clock, .write]
      (handleProofVerification user proof) := by
  unfold handleProofVerification
  refine keepsTo_sql (fun e ↦ by cases e <;> trivial) fun challenge ↦ keepsTo_utcNow fun now ↦ ?_
  split
  · -- an expired challenge is deleted, and nothing is verified
    refine Program.Follows.skip ?_ _
    exact keepsTo_call fun _ ↦ trivial
  · refine keepsTo_verify trivial ?_
    refine keepsTo_call fun _ ↦ keepsTo_call fun token ↦ keepsTo_utcNow fun now ↦ ?_
    exact keepsTo_sql (fun e ↦ trivial) fun n ↦ trivial

theorem login_keepsTo (req : LoginRequest) : KeepsTo (Call.login req).script (login req) := by
  unfold login getRequiredVersion
  refine Program.follows_perform fun version ↦ ?_
  change KeepsTo _ (match (version.toOption.filter _) with | some _ => _ | none => _)
  split
  · trivial
  iterate 2
    split
    · trivial
  refine keepsTo_sql (fun e ↦ by cases e <;> trivial) fun user ↦ ?_
  dsimp only
  split
  next hreq =>
    rw [hreq]
    exact handleChallengeRequest_keepsTo _ _
  next hreq =>
    rw [Bool.eq_false_of_not_eq_true hreq]
    split
    · exact handleProofVerification_keepsTo _ _
    · trivial

theorem deleteUserRows_keepsTo (u : Bytes) :
    KeepsTo [.write, .write, .write, .write, .write] (deleteUserRows u) := by
  unfold deleteUserRows
  refine keepsTo_sql (fun e ↦ trivial) fun _ ↦ keepsTo_sql (fun e ↦ trivial) fun _ ↦ ?_
  refine keepsTo_sql (fun e ↦ trivial) fun _ ↦ keepsTo_sql (fun e ↦ trivial) fun _ ↦ ?_
  exact keepsTo_sql (fun e ↦ trivial) fun _ ↦ trivial

theorem deleteUserData_keepsTo (u : Bytes) :
    KeepsTo [.read, .write, .write, .write, .write, .write, .write] (deleteUserData u) := by
  unfold deleteUserData
  refine keepsTo_sql (fun e ↦ trivial) fun ids ↦ ?_
  dsimp only
  split
  · exact (deleteUserRows_keepsTo u).skip _
  · exact keepsTo_sql (fun e ↦ trivial) fun _ ↦ deleteUserRows_keepsTo u

theorem deleteAccount_keepsTo (req : DeleteRequest) :
    KeepsTo (Call.delete req).script (deleteAccount req) := by
  unfold deleteAccount
  iterate 2
    split
    · trivial
  refine keepsTo_isTimestampFresh trivial ?_
  refine keepsTo_sql (fun e ↦ by cases e <;> trivial) fun user ↦ keepsTo_verify trivial ?_
  refine (deleteUserData_keepsTo req.userHashId).bind _ fun r ↦ ?_
  cases r with
  | error e => trivial
  | ok _ => exact keepsTo_call fun _ ↦ trivial

theorem publishRecoveryKey_keepsTo (req : PublishRecoveryKeyRequest) :
    KeepsTo (Call.publishRecoveryKey req).script (publishRecoveryKey req) := by
  unfold publishRecoveryKey
  iterate 3
    split
    · trivial
  refine keepsTo_isTimestampFresh trivial ?_
  refine keepsTo_sql (fun e ↦ trivial) fun user ↦ keepsTo_verify trivial ?_
  exact keepsTo_sql (fun e ↦ trivial) fun _ ↦ trivial

theorem recoveryClaim_keepsTo (req : RecoveryClaimRequest) :
    KeepsTo (Call.recoveryClaim req).script (recoveryClaim req) := by
  unfold recoveryClaim
  iterate 3
    split
    · trivial
  refine keepsTo_isTimestampFresh trivial (keepsTo_sql (fun e ↦ trivial) fun user ↦ ?_)
  dsimp only
  split
  · trivial
  refine keepsTo_verify trivial (keepsTo_sql (fun e ↦ trivial) fun _ ↦ ?_)
  refine keepsTo_call fun token ↦ keepsTo_utcNow fun now ↦ ?_
  exact keepsTo_sql (fun e ↦ trivial) fun _ ↦ trivial

/-! ## Friends -/

theorem contact_keepsTo (req : FriendRequest) :
    KeepsTo (Call.contact req).script (contact req) := by
  unfold contact
  iterate 7
    split
    · trivial
  refine keepsTo_sql (fun e ↦ by cases e <;> trivial) fun requester ↦ ?_
  refine keepsTo_sql (fun e ↦ by cases e <;> trivial) fun target ↦ keepsTo_verify trivial ?_
  refine keepsTo_call fun existing ↦ ?_
  split
  · exact keepsTo_sql (fun e ↦ trivial) fun _ ↦ trivial
  · exact keepsTo_sql (fun e ↦ trivial) fun _ ↦ keepsTo_call fun _ ↦ trivial

theorem respondFriendRequest_keepsTo (req : FriendResponse) :
    KeepsTo (Call.respondFriendRequest req).script (respondFriendRequest req) := by
  unfold respondFriendRequest
  iterate 6
    split
    · trivial
  refine keepsTo_sql (fun e ↦ by cases e <;> trivial) fun responder ↦ keepsTo_verify trivial ?_
  refine keepsTo_sql (fun e ↦ by cases e <;> trivial) fun fr ↦ keepsTo_call fun existing ↦ ?_
  split
  · exact keepsTo_sql (fun e ↦ trivial) fun _ ↦ trivial
  · exact keepsTo_sql (fun e ↦ trivial) fun _ ↦ keepsTo_call fun _ ↦ trivial

theorem fetchFriendRequests_keepsTo (req : FetchFriendsRequest) :
    KeepsTo (Call.fetchFriendRequests req).script (fetchFriendRequests req) := by
  unfold fetchFriendRequests
  iterate 3
    split
    · trivial
  refine keepsTo_sql (fun e ↦ by cases e <;> trivial) fun user ↦ keepsTo_verify trivial ?_
  exact keepsTo_sql (fun e ↦ trivial) fun _ ↦ keepsTo_currentTimestamp fun _ ↦ trivial

theorem fetchFriendResponses_keepsTo (req : FetchFriendsRequest) :
    KeepsTo (Call.fetchFriendResponses req).script (fetchFriendResponses req) := by
  unfold fetchFriendResponses
  iterate 2
    split
    · trivial
  refine keepsTo_sql (fun e ↦ by cases e <;> trivial) fun user ↦ keepsTo_verify trivial ?_
  exact keepsTo_sql (fun e ↦ trivial) fun _ ↦ keepsTo_currentTimestamp fun _ ↦ trivial

theorem fetchMyAccepted_keepsTo (req : FetchFriendsRequest) :
    KeepsTo (Call.fetchMyAccepted req).script (fetchMyAccepted req) := by
  unfold fetchMyAccepted
  iterate 2
    split
    · trivial
  refine keepsTo_sql (fun e ↦ by cases e <;> trivial) fun user ↦ keepsTo_verify trivial ?_
  exact keepsTo_sql (fun e ↦ trivial) fun _ ↦ keepsTo_currentTimestamp fun _ ↦ trivial

/-! ## Messages -/

theorem withinLimit_keepsTo (l : LimiterId) (threshold : Nat) (sender : Bytes) (size : Nat) :
    KeepsTo [.limit] (withinLimit l threshold sender size) := by
  unfold withinLimit
  split
  · exact keepsTo_call fun _ ↦ trivial
  · trivial

theorem checkSize_keepsTo (sender : Bytes) (size : Nat) :
    KeepsTo [.limit, .limit] (checkSize sender size) := by
  unfold checkSize
  split
  · trivial
  refine (withinLimit_keepsTo .largeMsg largeThreshold sender size).bind _ fun r ↦ ?_
  cases r with
  | false => trivial
  | true =>
      refine (withinLimit_keepsTo .midMsg midThreshold sender size).bind [] fun r ↦ ?_
      cases r <;> trivial

theorem expiryOf_keepsTo (sequenceNumber : UInt64) :
    KeepsTo [.clock, .panic] (expiryOf sequenceNumber) := by
  unfold expiryOf
  split
  · trivial
  refine keepsTo_utcNow fun now ↦ ?_
  split
  · trivial
  · refine keepsTo_call fun impossible ↦ ?_
    cases impossible

theorem pushToRecipient_keepsTo (env : ZenthSignalEnvelope) :
    KeepsTo [.clock, .spawn] (pushToRecipient env) := by
  unfold pushToRecipient
  exact keepsTo_currentTimestamp fun timestamp ↦ keepsTo_call fun _ ↦ trivial

theorem sendMessage_keepsTo (env : ZenthSignalEnvelope) :
    KeepsTo (Call.sendMessage env).script (sendMessage codec env) := by
  unfold sendMessage
  refine keepsTo_sql (fun e ↦ by cases e <;> trivial) fun sender ↦ keepsTo_verify trivial ?_
  refine keepsTo_sql (fun e ↦ by cases e <;> trivial) fun recipient ↦ ?_
  refine keepsTo_currentMillis fun now ↦ ?_
  unfold storeMessage
  refine (checkSize_keepsTo env.senderHashId (env.contentBytes codec).length).bind
    [.clock, .panic, .write, .clock, .spawn] fun refused ↦ ?_
  cases refused with
  | some message => trivial
  | none =>
      refine (expiryOf_keepsTo env.sequenceNumber).bind [.write, .clock, .spawn] fun expiresAt ↦ ?_
      exact keepsTo_sql (fun e ↦ trivial) fun _ ↦ (pushToRecipient_keepsTo env).map _

theorem fetchMessages_keepsTo (req : FetchMessagesRequest) :
    KeepsTo (Call.fetchMessages req).script (fetchMessages codec req) := by
  unfold fetchMessages
  refine keepsTo_sql (fun e ↦ by cases e <;> trivial) fun user ↦ keepsTo_verify trivial ?_
  refine keepsTo_utcNow fun now ↦ keepsTo_sql (fun e ↦ trivial) fun total ↦ ?_
  exact keepsTo_sql (fun e ↦ trivial) fun _ ↦ keepsTo_currentMillis fun _ ↦ trivial

theorem ackMessage_keepsTo (req : MessageAck) :
    KeepsTo (Call.ackMessage req).script (ackMessage req) := by
  unfold ackMessage
  iterate 2
    split
    · trivial
  refine keepsTo_sql (fun e ↦ by cases e <;> trivial) fun user ↦ keepsTo_verify trivial ?_
  exact keepsTo_sql (fun e ↦ trivial) fun _ ↦ trivial

/-! ## Pre-keys -/

theorem uploadPrekeys_keepsTo (req : UploadPreKeysRequest) :
    KeepsTo (Call.uploadPrekeys req).script (uploadPrekeys req) := by
  unfold uploadPrekeys
  iterate 2
    split
    · trivial
  refine keepsTo_isTimestampFresh trivial ?_
  show KeepsTo _ (if req.oneTimePrekeys = [] then _ else _)
  split
  · trivial
  refine keepsTo_sql (fun e ↦ by cases e <;> trivial) fun user ↦ keepsTo_verify trivial ?_
  exact keepsTo_sql (fun e ↦ trivial) fun _ ↦ trivial

theorem replenishPrekeys_keepsTo (req : ReplenishPreKeysRequest) :
    KeepsTo (Call.replenishPrekeys req).script (replenishPrekeys req) := by
  unfold replenishPrekeys
  iterate 3
    split
    · trivial
  refine keepsTo_sql (fun e ↦ by cases e <;> trivial) fun user ↦ keepsTo_verify trivial ?_
  exact keepsTo_sql (fun e ↦ trivial) fun _ ↦ keepsTo_sql (fun e ↦ trivial) fun _ ↦ trivial

theorem checkPrekeyCount_keepsTo (req : CheckPreKeyCountRequest) :
    KeepsTo (Call.checkPrekeyCount req).script (checkPrekeyCount codec req) := by
  unfold checkPrekeyCount
  iterate 2
    split
    · trivial
  refine keepsTo_sql (fun e ↦ by cases e <;> trivial) fun user ↦ keepsTo_verify trivial ?_
  exact keepsTo_sql (fun e ↦ trivial) fun _ ↦ trivial

theorem lookupUser_keepsTo (req : LookupUserRequest) :
    KeepsTo (Call.lookupUser req).script (lookupUser codec req) := by
  unfold lookupUser
  iterate 3
    split
    · trivial
  refine keepsTo_sql (fun e ↦ by cases e <;> trivial) fun requester ↦ keepsTo_verify trivial ?_
  refine keepsTo_sql (fun e ↦ by cases e <;> trivial) fun target ↦ ?_
  dsimp only
  split <;> trivial

theorem fetchPrekeyBundle_keepsTo (req : FetchPreKeyBundleRequest) :
    KeepsTo (Call.fetchPrekeyBundle req).script (fetchPrekeyBundle codec req) := by
  unfold fetchPrekeyBundle
  iterate 3
    split
    · trivial
  refine keepsTo_sql (fun e ↦ by cases e <;> trivial) fun requester ↦ keepsTo_verify trivial ?_
  refine keepsTo_sql (fun e ↦ by cases e <;> trivial) fun target ↦ ?_
  dsimp only
  split
  · trivial
  refine keepsTo_sql (fun e ↦ by cases e <;> trivial) fun x ↦ ?_
  exact keepsTo_sql (fun e ↦ trivial) fun _ ↦ trivial

/-! ## Client updates -/

theorem getUpdateManifest_keepsTo (req : UpdateManifestRequest) :
    KeepsTo (Call.getUpdateManifest req).script (getUpdateManifest codec req) := by
  unfold getUpdateManifest
  refine keepsTo_call fun answer ↦ ?_
  repeat' split
  all_goals trivial

theorem getUpdateChunk_keepsTo (req : UpdateChunkRequest) :
    KeepsTo (Call.getUpdateChunk req).script (getUpdateChunk req) := by
  unfold getUpdateChunk
  refine keepsTo_call fun answer ↦ ?_
  iterate 3
    split
    · trivial
  refine keepsTo_call fun range ↦ ?_
  repeat' split
  all_goals trivial

/-! ## Devices -/

theorem pushRelay_keepsTo (req : RelayPushRequest) :
    KeepsTo (Call.relayPush req).script (pushRelay req) := by
  unfold pushRelay
  iterate 3
    split
    · trivial
  refine keepsTo_isTimestampFresh trivial (keepsTo_call fun allowed ↦ ?_)
  cases allowed with
  | false => trivial
  | true =>
      refine keepsTo_verify trivial (keepsTo_utcNow fun now ↦ ?_)
      exact keepsTo_sql (fun e ↦ trivial) fun _ ↦ trivial

theorem fetchRelay_keepsTo (req : RelayFetchRequest) :
    KeepsTo (Call.relayFetch req).script (fetchRelay req) := by
  unfold fetchRelay
  iterate 2
    split
    · trivial
  refine keepsTo_isTimestampFresh trivial (keepsTo_verify trivial (keepsTo_utcNow fun now ↦ ?_))
  exact keepsTo_sql (fun e ↦ trivial) fun _ ↦ trivial

theorem ackRelay_keepsTo (req : RelayAckRequest) :
    KeepsTo (Call.relayAck req).script (ackRelay req) := by
  unfold ackRelay
  iterate 2
    split
    · trivial
  refine keepsTo_isTimestampFresh trivial (keepsTo_verify trivial ?_)
  exact keepsTo_sql (fun e ↦ trivial) fun _ ↦ trivial

theorem pushBlob_keepsTo (req : SyncPushBlobRequest) :
    KeepsTo (Call.syncPushBlob req).script (pushBlob req) := by
  unfold pushBlob
  iterate 3
    split
    · trivial
  refine keepsTo_isTimestampFresh trivial (keepsTo_call fun allowed ↦ ?_)
  cases allowed with
  | false => trivial
  | true =>
      refine keepsTo_verify trivial (keepsTo_utcNow fun now ↦ ?_)
      exact keepsTo_sql (fun e ↦ trivial) fun _ ↦ trivial

theorem fetchBlob_keepsTo (req : SyncBlobRequest) :
    KeepsTo (Call.syncFetchBlob req).script (fetchBlob req) := by
  unfold fetchBlob
  iterate 2
    split
    · trivial
  refine keepsTo_isTimestampFresh trivial (keepsTo_verify trivial (keepsTo_utcNow fun now ↦ ?_))
  exact keepsTo_sql (fun e ↦ by cases e <;> trivial) fun _ ↦ trivial

theorem deleteBlob_keepsTo (req : SyncBlobRequest) :
    KeepsTo (Call.syncDeleteBlob req).script (deleteBlob req) := by
  unfold deleteBlob
  iterate 2
    split
    · trivial
  refine keepsTo_isTimestampFresh trivial (keepsTo_verify trivial ?_)
  exact keepsTo_sql (fun e ↦ trivial) fun _ ↦ trivial

/-! ## Methods -/

theorem processCall_keepsTo (call : Call) : KeepsTo call.script (processCall codec call) := by
  cases call with
  | register req => exact (register_keepsTo req).map _
  | login req => exact (login_keepsTo req).map _
  | delete req => exact (deleteAccount_keepsTo req).map _
  | contact req => exact (contact_keepsTo req).map _
  | lookupUser req => exact (lookupUser_keepsTo req).map _
  | fetchFriendRequests req => exact (fetchFriendRequests_keepsTo req).map _
  | respondFriendRequest req => exact (respondFriendRequest_keepsTo req).map _
  | sendMessage env => exact (sendMessage_keepsTo env).map _
  | fetchMessages req => exact (fetchMessages_keepsTo req).map _
  | fetchFriendResponses req => exact (fetchFriendResponses_keepsTo req).map _
  | uploadPrekeys req => exact (uploadPrekeys_keepsTo req).map _
  | fetchPrekeyBundle req => exact (fetchPrekeyBundle_keepsTo req).map _
  | checkPrekeyCount req => exact (checkPrekeyCount_keepsTo req).map _
  | replenishPrekeys req => exact (replenishPrekeys_keepsTo req).map _
  | getUpdateManifest req => exact (getUpdateManifest_keepsTo req).map _
  | getUpdateChunk req => exact (getUpdateChunk_keepsTo req).map _
  | syncPushBlob req => exact (pushBlob_keepsTo req).map _
  | syncFetchBlob req => exact (fetchBlob_keepsTo req).map _
  | syncDeleteBlob req => exact (deleteBlob_keepsTo req).map _
  | relayPush req => exact (pushRelay_keepsTo req).map _
  | relayFetch req => exact (fetchRelay_keepsTo req).map _
  | relayAck req => exact (ackRelay_keepsTo req).map _
  | fetchMyAccepted req => exact (fetchMyAccepted_keepsTo req).map _
  | ackMessage req => exact (ackMessage_keepsTo req).map _
  | publishRecoveryKey req => exact (publishRecoveryKey_keepsTo req).map _
  | recoveryClaim req => exact (recoveryClaim_keepsTo req).map _
  | refused message => trivial

end Handlers

end ZenthDht
