import ZenthDht.Spec.Run

/-!
# What jobs do to the state in memory

The database is reached by statements, and what precedes them is the subject of
`ZenthDht.Spec.Guard`.  The limiters, the registry of transfers and the notifications are reached
by operations of their own.  `Reaching` says which job performs which of them: requests charge a
limiter only under the key they name as their sender, they send no notification about a file, and
only connections look at the registry of transfers.  It also says which requests load the rows that
expire, as the cleanup takes those from the tables.
-/

namespace ZenthDht

open Conc

/-- The key under which a job charges a limiter. -/
def Job.charges : Job → LimiterId → Option Bytes
  | .request (.relayPush req), .relayPush => some req.senderDilithiumPubkey
  | .request (.syncPushBlob req), .blobPush => some req.senderDilithiumPubkey
  | .request (.sendMessage env), .midMsg | .request (.sendMessage env), .largeMsg =>
    some env.senderHashId
  | _, _ => none

/-- A notification about a file transfer. -/
def NotificationPayload.aboutFile : NotificationPayload → Bool
  | .fileChunkRequest _ | .fileChunk _ => true
  | _ => false

/-- What a job may do to the state in memory, and the rows that expire which it may load. -/
def Reaching (job : Job) : Op → Prop
  | .sql (.countMessages _ _ _) | .sql (.loadMessages _ _ _ _) =>
    ∃ req, job = .request (.fetchMessages req)
  | .sql (.loadRelay _ _ _ _) => ∃ req, job = .request (.relayFetch req)
  | .sql (.selectBlob _ _) => ∃ req, job = .request (.syncFetchBlob req)
  | .limiter l key => job.charges l = some key
  | .cleanupLimiters | .relayCleanup => ∃ tick, job = .cleanup tick
  | .relayRegister _ _ | .relayGetSender _ | .relayUnregisterBySender _ =>
    ∃ rounds, job = .websocket rounds
  | .sendToUser _ n => (∃ rounds, job = .websocket rounds) ∨ n.payload.aboutFile = false
  | .spawnSend _ n => n.payload.aboutFile = false
  | _ => True

/-- A job that stays within `Reaching`. -/
abbrev Reaches {α : Type} (job : Job) (p : Handler α) (past : Past) : Prop :=
  p.Obeys (fun _ o ↦ Reaching job o) (fun _ _ ↦ True) past

section Handlers

variable {codec : Codec} {job : Job} {past' : Past}

/-! ## Accounts -/

theorem register_reaches (req : RegistrationRequest) : Reaches job (register req) past' := by
  unfold register
  iterate 6
    split
    · trivial
  refine obeys_sql trivial (fun e ↦ ?_) fun n ↦ trivial
  dsimp only
  split <;> trivial

theorem login_reaches (req : LoginRequest) : Reaches job (login req) past' := by
  unfold login getRequiredVersion
  refine ⟨trivial, fun version ↦ ?_⟩
  change Program.Obeys _ _ _ (match (version.toOption.filter _) with | some _ => _ | none => _)
  split
  · trivial
  iterate 2
    split
    · trivial
  refine obeys_sql trivial (fun e ↦ by cases e <;> trivial) fun user ↦ ?_
  dsimp only
  split
  · unfold handleChallengeRequest
    refine obeys_call trivial fun _ ↦ obeys_call trivial fun _ ↦ ?_
    refine obeys_utcNow trivial fun _ ↦ obeys_call trivial fun _ ↦ ?_
    exact obeys_sql trivial (fun _ ↦ trivial) fun _ ↦ obeys_currentTimestamp trivial fun _ ↦ trivial
  split
  · unfold handleProofVerification
    refine obeys_sql trivial (fun e ↦ by cases e <;> trivial) fun challenge ↦ ?_
    refine obeys_utcNow trivial fun _ ↦ ?_
    split
    · exact obeys_call trivial fun _ ↦ trivial
    refine obeys_call trivial fun valid ↦ ?_
    split
    · trivial
    refine obeys_call trivial fun _ ↦ obeys_call trivial fun _ ↦ obeys_utcNow trivial fun _ ↦ ?_
    exact obeys_sql trivial (fun _ ↦ trivial) fun _ ↦ trivial
  · trivial

theorem deleteAccount_reaches (req : DeleteRequest) : Reaches job (deleteAccount req) past' := by
  have hrows {past : Past} : Reaches job (deleteUserRows req.userHashId) past := by
    unfold deleteUserRows
    iterate 5 refine obeys_sql trivial (fun _ ↦ trivial) fun _ ↦ ?_
    trivial
  unfold deleteAccount
  iterate 2
    split
    · trivial
  refine obeys_fresh trivial (fun _ _ ↦ trivial) fun _ _ ↦ ?_
  refine obeys_sql trivial (fun e ↦ by cases e <;> trivial) fun user ↦ ?_
  refine obeys_call trivial fun valid ↦ ?_
  split
  · trivial
  refine Program.Obeys.bind_any ?_ fun past r ↦ ?_
  · unfold deleteUserData
    refine obeys_sql trivial (fun _ ↦ trivial) fun ids ↦ ?_
    dsimp only
    split
    · exact hrows
    · exact obeys_sql trivial (fun _ ↦ trivial) fun _ ↦ hrows
  · cases r with
    | error e => trivial
    | ok _ => exact obeys_call trivial fun _ ↦ trivial

theorem publishRecoveryKey_reaches (req : PublishRecoveryKeyRequest) :
    Reaches job (publishRecoveryKey req) past' := by
  unfold publishRecoveryKey
  iterate 3
    split
    · trivial
  refine obeys_fresh trivial (fun _ _ ↦ trivial) fun _ _ ↦ ?_
  refine obeys_sql trivial (fun _ ↦ trivial) fun user ↦ obeys_call trivial fun valid ↦ ?_
  split
  · trivial
  · exact obeys_sql trivial (fun _ ↦ trivial) fun _ ↦ trivial

theorem recoveryClaim_reaches (req : RecoveryClaimRequest) :
    Reaches job (recoveryClaim req) past' := by
  unfold recoveryClaim
  iterate 3
    split
    · trivial
  refine obeys_fresh trivial (fun _ _ ↦ trivial) fun _ _ ↦ ?_
  refine obeys_sql trivial (fun _ ↦ trivial) fun user ↦ ?_
  dsimp only
  split
  · trivial
  refine obeys_call trivial fun valid ↦ ?_
  split
  · trivial
  refine obeys_sql trivial (fun _ ↦ trivial) fun _ ↦ obeys_call trivial fun _ ↦ ?_
  exact obeys_utcNow trivial fun _ ↦ obeys_sql trivial (fun _ ↦ trivial) fun _ ↦ trivial

/-! ## Pre-keys -/

theorem uploadPrekeys_reaches (req : UploadPreKeysRequest) :
    Reaches job (uploadPrekeys req) past' := by
  unfold uploadPrekeys
  iterate 2
    split
    · trivial
  refine obeys_fresh trivial (fun _ _ ↦ trivial) fun _ _ ↦ ?_
  split
  · trivial
  refine obeys_sql trivial (fun e ↦ by cases e <;> trivial) fun user ↦ ?_
  refine obeys_call trivial fun valid ↦ ?_
  split
  · trivial
  · exact obeys_sql trivial (fun _ ↦ trivial) fun _ ↦ trivial

theorem replenishPrekeys_reaches (req : ReplenishPreKeysRequest) :
    Reaches job (replenishPrekeys req) past' := by
  unfold replenishPrekeys
  iterate 3
    split
    · trivial
  refine obeys_sql trivial (fun e ↦ by cases e <;> trivial) fun user ↦ ?_
  refine obeys_call trivial fun valid ↦ ?_
  split
  · trivial
  refine obeys_sql trivial (fun _ ↦ trivial) fun _ ↦ ?_
  exact obeys_sql trivial (fun _ ↦ trivial) fun _ ↦ trivial

theorem checkPrekeyCount_reaches (req : CheckPreKeyCountRequest) :
    Reaches job (checkPrekeyCount codec req) past' := by
  unfold checkPrekeyCount
  iterate 2
    split
    · trivial
  refine obeys_sql trivial (fun e ↦ by cases e <;> trivial) fun user ↦ ?_
  refine obeys_call trivial fun valid ↦ ?_
  split
  · trivial
  · exact obeys_sql trivial (fun _ ↦ trivial) fun _ ↦ trivial

theorem lookupUser_reaches (req : LookupUserRequest) :
    Reaches job (lookupUser codec req) past' := by
  unfold lookupUser
  iterate 3
    split
    · trivial
  refine obeys_sql trivial (fun e ↦ by cases e <;> trivial) fun requester ↦ ?_
  refine obeys_call trivial fun valid ↦ ?_
  split
  · trivial
  refine obeys_sql trivial (fun e ↦ by cases e <;> trivial) fun target ↦ ?_
  dsimp only
  split <;> trivial

theorem fetchPrekeyBundle_reaches (req : FetchPreKeyBundleRequest) :
    Reaches job (fetchPrekeyBundle codec req) past' := by
  unfold fetchPrekeyBundle
  iterate 3
    split
    · trivial
  refine obeys_sql trivial (fun e ↦ by cases e <;> trivial) fun requester ↦ ?_
  refine obeys_call trivial fun valid ↦ ?_
  split
  · trivial
  refine obeys_sql trivial (fun e ↦ by cases e <;> trivial) fun target ↦ ?_
  dsimp only
  split
  · trivial
  refine obeys_sql trivial (fun e ↦ by cases e <;> trivial) fun prekey ↦ ?_
  exact obeys_sql trivial (fun _ ↦ trivial) fun _ ↦ trivial

/-! ## Friends -/

theorem contact_reaches (req : FriendRequest) : Reaches job (contact req) past' := by
  unfold contact
  iterate 7
    split
    · trivial
  refine obeys_sql trivial (fun e ↦ by cases e <;> trivial) fun requester ↦ ?_
  refine obeys_sql trivial (fun e ↦ by cases e <;> trivial) fun target ↦ ?_
  refine obeys_call trivial fun valid ↦ ?_
  split
  · trivial
  unfold storeFriendRequest notifyFriendRequest
  refine obeys_call trivial fun existing ↦ ?_
  split
  · exact obeys_sql trivial (fun _ ↦ trivial) fun _ ↦ trivial
  · refine obeys_sql trivial (fun _ ↦ trivial) fun _ ↦ ?_
    exact obeys_call (.inr rfl) fun _ ↦ trivial

theorem respondFriendRequest_reaches (req : FriendResponse) :
    Reaches job (respondFriendRequest req) past' := by
  unfold respondFriendRequest
  iterate 6
    split
    · trivial
  refine obeys_sql trivial (fun e ↦ by cases e <;> trivial) fun responder ↦ ?_
  refine obeys_call trivial fun valid ↦ ?_
  split
  · trivial
  refine obeys_sql trivial (fun e ↦ by cases e <;> trivial) fun request ↦ ?_
  unfold storeFriendResponse notifyFriendResponse
  refine obeys_call trivial fun existing ↦ ?_
  split
  · exact obeys_sql trivial (fun _ ↦ trivial) fun _ ↦ trivial
  · refine obeys_sql trivial (fun _ ↦ trivial) fun _ ↦ obeys_call (.inr ?_) fun _ ↦ trivial
    dsimp only
    split <;> rfl

theorem fetchFriendRequests_reaches (req : FetchFriendsRequest) :
    Reaches job (fetchFriendRequests req) past' := by
  unfold fetchFriendRequests
  iterate 3
    split
    · trivial
  refine obeys_sql trivial (fun e ↦ by cases e <;> trivial) fun user ↦ ?_
  refine obeys_call trivial fun valid ↦ ?_
  split
  · trivial
  refine obeys_sql trivial (fun _ ↦ trivial) fun rows ↦ ?_
  exact obeys_currentTimestamp trivial fun _ ↦ trivial

theorem fetchFriendResponses_reaches (req : FetchFriendsRequest) :
    Reaches job (fetchFriendResponses req) past' := by
  unfold fetchFriendResponses
  iterate 2
    split
    · trivial
  refine obeys_sql trivial (fun e ↦ by cases e <;> trivial) fun user ↦ ?_
  refine obeys_call trivial fun valid ↦ ?_
  split
  · trivial
  refine obeys_sql trivial (fun _ ↦ trivial) fun rows ↦ ?_
  exact obeys_currentTimestamp trivial fun _ ↦ trivial

theorem fetchMyAccepted_reaches (req : FetchFriendsRequest) :
    Reaches job (fetchMyAccepted req) past' := by
  unfold fetchMyAccepted
  iterate 2
    split
    · trivial
  refine obeys_sql trivial (fun e ↦ by cases e <;> trivial) fun user ↦ ?_
  refine obeys_call trivial fun valid ↦ ?_
  split
  · trivial
  refine obeys_sql trivial (fun _ ↦ trivial) fun rows ↦ ?_
  exact obeys_currentTimestamp trivial fun _ ↦ trivial

/-! ## Messages -/

theorem checkSize_reaches (env : ZenthSignalEnvelope) (size : Nat) :
    Reaches (.request (.sendMessage env)) (checkSize env.senderHashId size) past' := by
  have hlimit {l : LimiterId} {threshold : Nat} {past : Past} (hl : l = .midMsg ∨ l = .largeMsg) :
      Reaches (.request (.sendMessage env))
        (withinLimit l threshold env.senderHashId size) past := by
    unfold withinLimit
    split
    · rcases hl with rfl | rfl <;> exact ⟨rfl, fun _ ↦ trivial⟩
    · trivial
  unfold checkSize
  split
  · trivial
  refine (hlimit (.inr rfl)).bind fun past r _ ↦ ?_
  split
  · trivial
  refine (hlimit (.inl rfl)).bind fun past r _ ↦ ?_
  split <;> trivial

theorem sendMessage_reaches (env : ZenthSignalEnvelope) :
    Reaches (.request (.sendMessage env)) (sendMessage codec env) past' := by
  unfold sendMessage
  refine obeys_sql trivial (fun e ↦ by cases e <;> trivial) fun sender ↦ ?_
  refine obeys_call trivial fun valid ↦ ?_
  split
  · trivial
  refine obeys_sql trivial (fun e ↦ by cases e <;> trivial) fun recipient ↦ ?_
  refine obeys_currentMillis trivial fun now ↦ ?_
  unfold storeMessage
  refine (checkSize_reaches env _).bind fun past refusal _ ↦ ?_
  cases refusal with
  | some message => trivial
  | none =>
  refine Program.Obeys.bind_any ?_ fun past expiresAt ↦ ?_
  · unfold expiryOf
    split
    · trivial
    refine obeys_utcNow trivial fun now ↦ ?_
    split
    · trivial
    · exact ⟨trivial, fun impossible ↦ nomatch impossible⟩
  refine obeys_sql trivial (fun _ ↦ trivial) fun _ ↦ ?_
  exact ⟨trivial, fun timestamp ↦ ⟨rfl, fun _ ↦ trivial⟩⟩

theorem fetchMessages_reaches (req : FetchMessagesRequest) :
    Reaches (.request (.fetchMessages req)) (fetchMessages codec req) past' := by
  unfold fetchMessages
  refine obeys_sql trivial (fun e ↦ by cases e <;> trivial) fun user ↦ ?_
  refine obeys_call trivial fun valid ↦ ?_
  split
  · trivial
  refine obeys_utcNow trivial fun now ↦ obeys_sql ⟨req, rfl⟩ (fun _ ↦ trivial) fun total ↦ ?_
  refine obeys_sql ⟨req, rfl⟩ (fun _ ↦ trivial) fun rows ↦ ?_
  exact obeys_currentMillis trivial fun _ ↦ trivial

theorem ackMessage_reaches (req : MessageAck) : Reaches job (ackMessage req) past' := by
  unfold ackMessage
  iterate 2
    split
    · trivial
  refine obeys_sql trivial (fun e ↦ by cases e <;> trivial) fun user ↦ ?_
  refine obeys_call trivial fun valid ↦ ?_
  split
  · trivial
  · exact obeys_sql trivial (fun _ ↦ trivial) fun _ ↦ trivial

/-! ## Devices -/

theorem pushRelay_reaches (req : RelayPushRequest) :
    Reaches (.request (.relayPush req)) (pushRelay req) past' := by
  unfold pushRelay
  iterate 3
    split
    · trivial
  refine obeys_fresh trivial (fun _ _ ↦ trivial) fun _ _ ↦ ?_
  refine obeys_limiter rfl trivial (obeys_call trivial fun valid ↦ ?_)
  split
  · trivial
  · exact obeys_utcNow trivial fun _ ↦ obeys_sql trivial (fun _ ↦ trivial) fun _ ↦ trivial

theorem fetchRelay_reaches (req : RelayFetchRequest) :
    Reaches (.request (.relayFetch req)) (fetchRelay req) past' := by
  unfold fetchRelay
  iterate 2
    split
    · trivial
  refine obeys_fresh trivial (fun _ _ ↦ trivial) fun _ _ ↦ obeys_call trivial fun valid ↦ ?_
  split
  · trivial
  · exact obeys_utcNow trivial fun _ ↦ obeys_sql ⟨req, rfl⟩ (fun _ ↦ trivial) fun _ ↦ trivial

theorem ackRelay_reaches (req : RelayAckRequest) : Reaches job (ackRelay req) past' := by
  unfold ackRelay
  iterate 2
    split
    · trivial
  refine obeys_fresh trivial (fun _ _ ↦ trivial) fun _ _ ↦ obeys_call trivial fun valid ↦ ?_
  split
  · trivial
  · exact obeys_sql trivial (fun _ ↦ trivial) fun _ ↦ trivial

theorem pushBlob_reaches (req : SyncPushBlobRequest) :
    Reaches (.request (.syncPushBlob req)) (pushBlob req) past' := by
  unfold pushBlob
  iterate 3
    split
    · trivial
  refine obeys_fresh trivial (fun _ _ ↦ trivial) fun _ _ ↦ ?_
  refine obeys_limiter rfl trivial (obeys_call trivial fun valid ↦ ?_)
  split
  · trivial
  · exact obeys_utcNow trivial fun _ ↦ obeys_sql trivial (fun _ ↦ trivial) fun _ ↦ trivial

theorem fetchBlob_reaches (req : SyncBlobRequest) :
    Reaches (.request (.syncFetchBlob req)) (fetchBlob req) past' := by
  unfold fetchBlob
  iterate 2
    split
    · trivial
  refine obeys_fresh trivial (fun _ _ ↦ trivial) fun _ _ ↦ obeys_call trivial fun valid ↦ ?_
  split
  · trivial
  refine obeys_utcNow trivial fun _ ↦ ?_
  exact obeys_sql ⟨req, rfl⟩ (fun e ↦ by cases e <;> trivial) fun _ ↦ trivial

theorem deleteBlob_reaches (req : SyncBlobRequest) : Reaches job (deleteBlob req) past' := by
  unfold deleteBlob
  iterate 2
    split
    · trivial
  refine obeys_fresh trivial (fun _ _ ↦ trivial) fun _ _ ↦ obeys_call trivial fun valid ↦ ?_
  split
  · trivial
  · exact obeys_sql trivial (fun _ ↦ trivial) fun _ ↦ trivial

/-! ## Updates -/

theorem getUpdateManifest_reaches (req : UpdateManifestRequest) :
    Reaches job (getUpdateManifest codec req) past' := by
  unfold getUpdateManifest
  refine obeys_call trivial fun answer ↦ ?_
  repeat' split
  all_goals trivial

theorem getUpdateChunk_reaches (req : UpdateChunkRequest) :
    Reaches job (getUpdateChunk req) past' := by
  unfold getUpdateChunk
  refine obeys_call trivial fun answer ↦ ?_
  iterate 3
    split
    · trivial
  refine obeys_call trivial fun range ↦ ?_
  repeat' split
  all_goals trivial

/-! ## Connections and the background task -/

theorem wsLoop_reaches (u : Bytes) (job rounds : Nat) (rx : Receiver) :
    Reaches (.websocket job) (wsLoop codec u rounds rx) past' := by
  have hframe (data : Bytes) {past : Past} :
      Reaches (.websocket job) (processWsRequest codec data u) past := by
    unfold processWsRequest
    split
    · trivial
    · unfold wsFileAvailable
      split
      · exact ⟨⟨job, rfl⟩, fun _ ↦ trivial⟩
      · trivial
    · unfold wsFileChunkRequest
      iterate 2
        split
        · trivial
      refine obeys_call ⟨job, rfl⟩ fun found ↦ ?_
      split
      · trivial
      · exact ⟨trivial, fun _ ↦ ⟨.inl ⟨job, rfl⟩, fun _ ↦ trivial⟩⟩
    · unfold wsFileChunk
      iterate 2
        split
        · trivial
      exact ⟨trivial, fun _ ↦ ⟨.inl ⟨job, rfl⟩, fun _ ↦ trivial⟩⟩
    · unfold wsCheckOnline
      split
      · trivial
      · exact ⟨trivial, fun _ ↦ trivial⟩
    · trivial
  induction rounds generalizing rx past' with
  | zero => exact ⟨trivial, fun impossible ↦ nomatch impossible⟩
  | succ rounds ih =>
      have hsend (out : WsOutput) (rx : Receiver) {past : Past} :
          Reaches (.websocket job) ((Program.call (Op.socketSend out) : Handler Bool) >>= fun b ↦
            if b then wsLoop codec u rounds rx else pure ()) past := by
        refine obeys_call trivial fun sent ↦ ?_
        split
        · exact ih rx
        · trivial
      unfold wsLoop
      refine obeys_call trivial fun input ↦ ?_
      split
      · exact (hframe _).bind fun past out _ ↦ hsend out rx
      · exact hsend .pong rx
      · trivial
      · trivial
      · trivial
      · exact ih rx
      · exact hsend _ _
      · exact ih _
      · trivial

theorem handleWebsocket_reaches (rounds : Nat) :
    Reaches (.websocket rounds) (handleWebsocket codec rounds) past' := by
  unfold handleWebsocket
  refine Program.Obeys.bind_any ?_ fun past r ↦ ?_
  · unfold authenticate verifySessionToken
    refine obeys_call trivial fun frame ↦ ?_
    split
    · split
      · trivial
      refine (Program.obeys_bind _ _).mpr (obeys_sql trivial (fun _ ↦ trivial) fun session ↦ ?_)
      refine obeys_utcNow trivial fun now ↦ ?_
      change Program.Obeys _ _ _ (if decide ((now : Int) < session.sessionExpiry) then _ else _)
      split <;> trivial
    · trivial
  · cases r with
    | none => trivial
    | some u =>
        refine obeys_call trivial fun rx ↦ (wsLoop_reaches u rounds rounds rx).bind fun _ _ _ ↦ ?_
        exact ⟨trivial, fun _ ↦ ⟨⟨rounds, rfl⟩, fun _ ↦ ⟨trivial, fun _ ↦ trivial⟩⟩⟩

theorem cleanup_reaches (tick : Nat) : Reaches (.cleanup tick) (cleanup tick) past' := by
  unfold cleanup
  refine obeys_call ⟨tick, rfl⟩ fun _ ↦ obeys_call ⟨tick, rfl⟩ fun _ ↦ ?_
  split
  · refine obeys_utcNow trivial fun now ↦ ?_
    exact ⟨trivial, fun _ ↦ ⟨trivial, fun _ ↦ ⟨trivial, fun _ ↦ trivial⟩⟩⟩
  · trivial

/-! ## All jobs -/

theorem processCall_reaches (call : Call) :
    Reaches (.request call) (processCall codec call) past' := by
  cases call with
  | register req => exact (register_reaches req).bind fun _ _ _ ↦ trivial
  | login req => exact (login_reaches req).bind fun _ _ _ ↦ trivial
  | delete req => exact (deleteAccount_reaches req).bind fun _ _ _ ↦ trivial
  | contact req => exact (contact_reaches req).bind fun _ _ _ ↦ trivial
  | lookupUser req => exact (lookupUser_reaches req).bind fun _ _ _ ↦ trivial
  | fetchFriendRequests req => exact (fetchFriendRequests_reaches req).bind fun _ _ _ ↦ trivial
  | respondFriendRequest req => exact (respondFriendRequest_reaches req).bind fun _ _ _ ↦ trivial
  | sendMessage env => exact (sendMessage_reaches env).bind fun _ _ _ ↦ trivial
  | fetchMessages req => exact (fetchMessages_reaches req).bind fun _ _ _ ↦ trivial
  | fetchFriendResponses req => exact (fetchFriendResponses_reaches req).bind fun _ _ _ ↦ trivial
  | uploadPrekeys req => exact (uploadPrekeys_reaches req).bind fun _ _ _ ↦ trivial
  | fetchPrekeyBundle req => exact (fetchPrekeyBundle_reaches req).bind fun _ _ _ ↦ trivial
  | checkPrekeyCount req => exact (checkPrekeyCount_reaches req).bind fun _ _ _ ↦ trivial
  | replenishPrekeys req => exact (replenishPrekeys_reaches req).bind fun _ _ _ ↦ trivial
  | getUpdateManifest req => exact (getUpdateManifest_reaches req).bind fun _ _ _ ↦ trivial
  | getUpdateChunk req => exact (getUpdateChunk_reaches req).bind fun _ _ _ ↦ trivial
  | syncPushBlob req => exact (pushBlob_reaches req).bind fun _ _ _ ↦ trivial
  | syncFetchBlob req => exact (fetchBlob_reaches req).bind fun _ _ _ ↦ trivial
  | syncDeleteBlob req => exact (deleteBlob_reaches req).bind fun _ _ _ ↦ trivial
  | relayPush req => exact (pushRelay_reaches req).bind fun _ _ _ ↦ trivial
  | relayFetch req => exact (fetchRelay_reaches req).bind fun _ _ _ ↦ trivial
  | relayAck req => exact (ackRelay_reaches req).bind fun _ _ _ ↦ trivial
  | fetchMyAccepted req => exact (fetchMyAccepted_reaches req).bind fun _ _ _ ↦ trivial
  | ackMessage req => exact (ackMessage_reaches req).bind fun _ _ _ ↦ trivial
  | publishRecoveryKey req => exact (publishRecoveryKey_reaches req).bind fun _ _ _ ↦ trivial
  | recoveryClaim req => exact (recoveryClaim_reaches req).bind fun _ _ _ ↦ trivial
  | refused message => trivial

/-- Every job stays within what it may do to the state in memory. -/
theorem code_reaches (codec : Codec) (job : Job) : Reaches job (code codec job) [] := by
  cases job with
  | request call => exact (processCall_reaches call).bind fun _ _ _ ↦ trivial
  | websocket rounds => exact (handleWebsocket_reaches rounds).bind fun _ _ _ ↦ trivial
  | cleanup tick => exact (cleanup_reaches tick).bind fun _ _ _ ↦ trivial

end Handlers

section Run

variable {codec : Codec} {verifyDetached : Bytes → Bytes → Bytes → Bool}
variable {c c' : State} {m : Move Job Oracle Act} {t : Nat} {job : Job}

/-- Operations take no time. -/
theorem perform_instant {o : Op} {ω : Oracle} {w w' : World} {r : Res o}
    (h : perform verifyDetached o ω w = some (r, w')) : w'.instant = w.instant := by
  cases o with
  | sql s => rcases perform_sql h with ⟨rfl, -⟩ | ⟨-, rfl⟩ <;> rfl
  | select rx => rw [(perform_select h).1]
  | _ =>
      cases ω <;> simp only [perform, Option.some.injEq, Prod.mk.injEq, reduceCtorEq] at h <;>
        exact h.2 ▸ rfl

/-- The check of a limiter answers as `is_allowed` does, and changes this limiter only. -/
theorem perform_limiter {l : LimiterId} {key : Bytes} {ω : Oracle} {w w' : World} {r : Bool}
    (h : perform verifyDetached (.limiter l key) ω w = some (r, w')) :
    r = ((w.limiters l).isAllowed w.instant key).1 ∧
      w'.limiters l = ((w.limiters l).isAllowed w.instant key).2 ∧
      ∀ l', l' ≠ l → w'.limiters l' = w.limiters l' := by
  obtain ⟨hr, hw⟩ := Prod.mk.inj (Option.some.inj h)
  refine ⟨hr.symm, ?_, fun l' hl ↦ ?_⟩
  · rw [← hw]
    exact Function.update_self _ _ _
  · rw [← hw]
    exact Function.update_of_ne hl _ _

/-- Only the checks of a limiter and the cleanup change the limiters. -/
theorem perform_limiters {o : Op} {ω : Oracle} {w w' : World} {r : Res o}
    (hcheck : ∀ l key, o ≠ .limiter l key) (hclean : o ≠ .cleanupLimiters)
    (h : perform verifyDetached o ω w = some (r, w')) : w'.limiters = w.limiters := by
  cases o with
  | limiter l key => exact absurd rfl (hcheck l key)
  | cleanupLimiters => exact absurd rfl hclean
  | sql s => rcases perform_sql h with ⟨rfl, -⟩ | ⟨-, rfl⟩ <;> rfl
  | select rx => rw [(perform_select h).1]
  | _ =>
      cases ω <;> simp only [perform, Option.some.injEq, Prod.mk.injEq, reduceCtorEq] at h <;>
        exact h.2 ▸ rfl

/-- The environment leaves the limiters alone, and the monotonic clock does not go back. -/
theorem act_limiters {a : Act} {w w' : World} (h : act a w = some w') :
    w'.limiters = w.limiters ∧ w.instant ≤ w'.instant := by
  cases a with
  | tick clock instant =>
      simp only [act] at h
      split at h
      next hle =>
        obtain rfl := Option.some.inj h
        exact ⟨rfl, hle.2⟩
      · cases h
  | setConfig config =>
      obtain rfl := Option.some.inj h
      exact ⟨rfl, Nat.le_refl _⟩
  | reorder db =>
      simp only [act] at h
      split at h
      · obtain rfl := Option.some.inj h
        exact ⟨rfl, Nat.le_refl _⟩
      · cases h
  | runSpawned i =>
      obtain ⟨_, -, rfl⟩ := Option.map_eq_some_iff.mp h
      exact ⟨rfl, Nat.le_refl _⟩

theorem Reachable.reaching {o : Op} {k : Res o → Handler (Option Reply)}
    (h : Reachable codec verifyDetached c) (ht : c.pool[t]? = some ⟨job, .perform o k⟩) :
    Reaching job o := by
  obtain ⟨clock, instant, ms, h⟩ := h
  exact Machine.guard_of_run (code_reaches codec) h ht

/-- The notifications that wait for a task of their own are about no file. -/
theorem Reachable.spawned (h : Reachable codec verifyDetached c) :
    ∀ p ∈ c.world.spawned, p.2.payload.aboutFile = false := by
  refine h.induction (I := fun d ↦ ∀ p ∈ d.world.spawned, p.2.payload.aboutFile = false)
    (fun _ _ _ hp ↦ by cases hp) ?_
  intro d m d' hd hI hs
  cases hs with
  | spawn j => exact hI
  | @act a w ha =>
      cases a with
      | tick clock instant =>
          simp only [server, act] at ha
          split at ha
          · obtain rfl := Option.some.inj ha
            exact hI
          · cases ha
      | setConfig config =>
          obtain rfl := Option.some.inj ha
          exact hI
      | reorder db =>
          simp only [server, act] at ha
          split at ha
          · obtain rfl := Option.some.inj ha
            exact hI
          · cases ha
      | runSpawned i =>
          obtain ⟨_, -, rfl⟩ := Option.map_eq_some_iff.mp ha
          exact fun p hp ↦ hI p (List.mem_of_mem_eraseIdx hp)
  | @step t ω j o k r w ht hp =>
      have hreach := hd.reaching ht
      cases o with
      | spawnSend u n =>
          obtain ⟨rfl, rfl⟩ := Prod.mk.inj (Option.some.inj hp)
          intro p hmem
          rcases List.mem_append.mp hmem with hmem | hmem
          · exact hI p hmem
          · obtain rfl := List.mem_singleton.mp hmem
            exact hreach
      | select rx => rw [(perform_select hp).1]; exact hI
      | sql s =>
          rcases perform_sql hp with ⟨rfl, -⟩ | ⟨-, rfl⟩ <;> exact hI
      | _ =>
          cases ω <;> simp only [server, perform, Option.some.injEq, Prod.mk.injEq,
            reduceCtorEq] at hp <;> exact hp.2 ▸ hI

end Run

end ZenthDht
