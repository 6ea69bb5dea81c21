import ZenthDht.Model.Handlers.Account
import ZenthDht.Model.Handlers.Devices
import ZenthDht.Model.Handlers.Friends
import ZenthDht.Model.Handlers.Messages
import ZenthDht.Model.Handlers.Prekeys
import ZenthDht.Model.Handlers.Update
import ZenthDht.Model.Handlers.WebSocket

/-!
# The dispatcher and the server as a machine

`decompose.rs` and the background task of `main.rs`.  A `Call` is a decoded request;
`processCall` is the body of `process_request`.  The server runs any number of calls,
WebSocket connections and cleanup ticks concurrently: `server` is that machine.
-/

namespace ZenthDht

open Conc

/-! ## Requests -/

/-- A decoded request.  CONTACT and SEND_FRIEND_REQUEST are one call; `refused` stands for the
methods that are not implemented, unknown methods and payloads that do not decode. -/
inductive Call
  | register (req : RegistrationRequest)
  | login (req : LoginRequest)
  | delete (req : DeleteRequest)
  | contact (req : FriendRequest)
  | lookupUser (req : LookupUserRequest)
  | fetchFriendRequests (req : FetchFriendsRequest)
  | respondFriendRequest (req : FriendResponse)
  | sendMessage (env : ZenthSignalEnvelope)
  | fetchMessages (req : FetchMessagesRequest)
  | fetchFriendResponses (req : FetchFriendsRequest)
  | uploadPrekeys (req : UploadPreKeysRequest)
  | fetchPrekeyBundle (req : FetchPreKeyBundleRequest)
  | checkPrekeyCount (req : CheckPreKeyCountRequest)
  | replenishPrekeys (req : ReplenishPreKeysRequest)
  | getUpdateManifest (req : UpdateManifestRequest)
  | getUpdateChunk (req : UpdateChunkRequest)
  | syncPushBlob (req : SyncPushBlobRequest)
  | syncFetchBlob (req : SyncBlobRequest)
  | syncDeleteBlob (req : SyncBlobRequest)
  | relayPush (req : RelayPushRequest)
  | relayFetch (req : RelayFetchRequest)
  | relayAck (req : RelayAckRequest)
  | fetchMyAccepted (req : FetchFriendsRequest)
  | ackMessage (req : MessageAck)
  | publishRecoveryKey (req : PublishRecoveryKeyRequest)
  | recoveryClaim (req : RecoveryClaimRequest)
  | refused (message : String)
deriving DecidableEq

/-- The payload of a response, before it is encoded. -/
inductive Payload
  | empty
  | registration (r : RegistrationResponse)
  | login (r : LoginResponse)
  | delete (r : DeleteResponse)
  | lookupUser (r : LookupUserResponse)
  | fetchFriendRequests (r : FetchFriendRequestsResponse)
  | sendMessage (r : SendMessageResponse)
  | fetchMessages (r : FetchMessagesResponse)
  | fetchFriendResponses (r : FetchFriendResponsesResponse)
  | uploadPrekeys (r : UploadPreKeysResponse)
  | fetchPrekeyBundle (r : FetchPreKeyBundleResponse)
  | checkPrekeyCount (r : CheckPreKeyCountResponse)
  | replenishPrekeys (r : ReplenishPreKeysResponse)
  | updateManifest (r : UpdateManifestResponse)
  | updateChunk (r : UpdateChunkResponse)
  | syncPushBlob (r : SyncPushBlobResponse)
  | syncFetchBlob (r : SyncFetchBlobResponse)
  | syncDeleteBlob (r : SyncDeleteBlobResponse)
  | relayPush (r : RelayPushResponse)
  | relayFetch (r : RelayFetchResponse)
  | relayAck (r : RelayAckResponse)
  | publishRecoveryKey (r : PublishRecoveryKeyResponse)
  | recoveryClaim (r : RecoveryClaimResponse)
deriving DecidableEq

/-- What a handler of `decompose.rs` returns: `(success, payload, error_message)`. -/
structure Reply where
  success : Bool
  payload : Payload
  errorMessage : String
deriving DecidableEq

namespace Reply

/-- `Err(e) => (false, vec![], e)`. -/
def err (e : String) : Reply := ⟨false, .empty, e⟩

variable {α : Type}

/-- The handlers that report the success flag of their response but no message. -/
def flagged (payload : α → Payload) (success : α → Bool) : Except String α → Reply
  | .ok r => ⟨success r, payload r, ""⟩
  | .error e => err e

/-- The handlers that report both the success flag and the message of their response. -/
def explained (payload : α → Payload) (success : α → Bool) (message : α → String) :
    Except String α → Reply
  | .ok r => ⟨success r, payload r, if success r then "" else message r⟩
  | .error e => err e

/-- The handlers that call every response a success. -/
def successful (payload : α → Payload) : Except String α → Reply
  | .ok r => ⟨true, payload r, ""⟩
  | .error e => err e

end Reply

/-- The body of `process_request`: one branch for each method. -/
def processCall (codec : Codec) : Call → Handler Reply
  | .register req => do
    pure (.flagged .registration (·.success) (← register req))
  | .login req => do
    pure (.flagged .login (·.success) (← login req))
  | .delete req => do
    pure (.explained .delete (·.success) (·.errorMessage) (← deleteAccount req))
  | .contact req => do
    let (success, message) ← contact req
    pure ⟨success, .empty, message⟩
  | .lookupUser req => do
    pure (.successful .lookupUser (← lookupUser codec req))
  | .fetchFriendRequests req => do
    pure (.successful .fetchFriendRequests (← fetchFriendRequests req))
  | .respondFriendRequest req => do
    let (success, message) ← respondFriendRequest req
    pure ⟨success, .empty, message⟩
  | .sendMessage env => do
    pure (.flagged .sendMessage (·.success)
      ((← sendMessage codec env).mapError fun e ↦ s!"Send message error: {e}"))
  | .fetchMessages req => do
    pure (.successful .fetchMessages
      ((← fetchMessages codec req).mapError fun e ↦ s!"Fetch messages error: {e}"))
  | .fetchFriendResponses req => do
    pure (.successful .fetchFriendResponses (← fetchFriendResponses req))
  | .uploadPrekeys req => do
    pure (.explained .uploadPrekeys (·.success) (·.errorMessage) (← uploadPrekeys req))
  | .fetchPrekeyBundle req => do
    pure (.explained .fetchPrekeyBundle (·.success) (·.errorMessage)
      (← fetchPrekeyBundle codec req))
  | .checkPrekeyCount req => do
    pure (.explained .checkPrekeyCount (·.success) (·.errorMessage)
      (← checkPrekeyCount codec req))
  | .replenishPrekeys req => do
    pure (.explained .replenishPrekeys (·.success) (·.errorMessage) (← replenishPrekeys req))
  | .getUpdateManifest req => do
    pure (.successful .updateManifest (← getUpdateManifest codec req))
  | .getUpdateChunk req => do
    pure (.successful .updateChunk (← getUpdateChunk req))
  | .syncPushBlob req => do
    pure (.explained .syncPushBlob (·.success) (·.errorMessage) (← pushBlob req))
  | .syncFetchBlob req => do
    pure (.explained .syncFetchBlob (·.success) (·.errorMessage) (← fetchBlob req))
  | .syncDeleteBlob req => do
    pure (.explained .syncDeleteBlob (·.success) (·.errorMessage) (← deleteBlob req))
  | .relayPush req => do
    pure (.explained .relayPush (·.success) (·.errorMessage) (← pushRelay req))
  | .relayFetch req => do
    pure (.successful .relayFetch (← fetchRelay req))
  | .relayAck req => do
    pure (.explained .relayAck (·.success) (·.errorMessage) (← ackRelay req))
  | .fetchMyAccepted req => do
    pure (.successful .fetchFriendResponses (← fetchMyAccepted req))
  | .ackMessage req => do
    pure (.successful (fun _ ↦ .empty) (← ackMessage req))
  | .publishRecoveryKey req => do
    pure (.explained .publishRecoveryKey (·.success) (·.errorMessage) (← publishRecoveryKey req))
  | .recoveryClaim req => do
    pure (.explained .recoveryClaim (·.success) (·.errorMessage) (← recoveryClaim req))
  | .refused message => pure (.err message)

/-! ## The background task -/

/-- One round of the cleanup task; rows are purged every twelfth round. -/
def cleanup (tick : Nat) : Handler Unit := do
  Program.call Op.cleanupLimiters
  Program.call Op.relayCleanup
  if tick % 12 = 0 then
    let now ← utcNow
    let _ ← sql (.purgeMessages now)
    let _ ← sql (.purgeRelay now)
    let _ ← sql (.purgeBlobs now)
    pure ()
  else pure ()

/-! ## The server -/

/-- What the server can be doing: a request, a WebSocket connection, a round of the cleanup. -/
inductive Job
  | request (call : Call)
  | websocket (rounds : Nat)
  | cleanup (tick : Nat)
deriving DecidableEq

def code (codec : Codec) : Job → Handler (Option Reply)
  | .request call => do
    pure (some (← processCall codec call))
  | .websocket rounds => do
    handleWebsocket codec rounds
    pure none
  | .cleanup tick => do
    cleanup tick
    pure none

/-- The server as a machine, over the external codecs and signature verification. -/
def server (codec : Codec) (verifyDetached : Bytes → Bytes → Bytes → Bool) :
    Machine Res World Job (Option Reply) Oracle Act :=
  ⟨code codec, perform verifyDetached, act⟩

/-- A configuration of the server. -/
abbrev State : Type := Config Res World Job (Option Reply)

/-- A run of the server: a list of moves. -/
abbrev Moves : Type := List (Move Job Oracle Act)

end ZenthDht
