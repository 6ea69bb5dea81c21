import ZenthDht.Model.Dispatch

/-!
# Requests and answers on the wire

The messages that frame a request and its answer, the generated `prost` code as a parameter, the
`Wire`, and the handlers of `decompose.rs`, which decode the payload of a method.
-/

namespace ZenthDht

open Conc

/-! ## Messages -/

structure DhtRequest where
  method : Int32
  payload : Bytes
  requestId : Bytes
deriving DecidableEq

structure DhtResponse where
  success : Bool
  method : Int32
  payload : Bytes
  errorMessage : String
  timestamp : UInt64
  requestId : Bytes
deriving DecidableEq

structure WsFileAvailableRequest where
  transferId : Bytes
deriving DecidableEq

structure WsCheckOnlineRequest where
  targetHash : Bytes
deriving DecidableEq

structure WsCheckOnlineResponse where
  online : Bool
deriving DecidableEq

/-- The methods of `zenth_dto::Method` that the WebSocket handler keeps to itself. -/
inductive WsMethod
  | wsFileAvailable
  | wsFileChunkRequest
  | wsFileChunk
  | wsCheckOnline
deriving DecidableEq

/-! ## The generated code -/

/-- `decode` of a message type, with the text of its error. -/
abbrev Decoder (α : Type) : Type := Bytes → Except String α

/-- The generated code of `zenth_dto`, of `DeleteRequest`, and `base64`. -/
structure Wire where
  dhtRequest : Decoder DhtRequest
  registrationRequest : Decoder RegistrationRequest
  loginRequest : Decoder LoginRequest
  deleteRequest : Decoder DeleteRequest
  friendRequest : Decoder FriendRequest
  lookupUserRequest : Decoder LookupUserRequest
  fetchFriendRequestsRequest : Decoder FetchFriendsRequest
  friendResponse : Decoder FriendResponse
  zenthSignalEnvelope : Decoder ZenthSignalEnvelope
  fetchMessagesRequest : Decoder FetchMessagesRequest
  fetchFriendResponsesRequest : Decoder FetchFriendsRequest
  uploadPreKeysRequest : Decoder UploadPreKeysRequest
  fetchPreKeyBundleRequest : Decoder FetchPreKeyBundleRequest
  checkPreKeyCountRequest : Decoder CheckPreKeyCountRequest
  replenishPreKeysRequest : Decoder ReplenishPreKeysRequest
  updateManifestRequest : Decoder UpdateManifestRequest
  updateChunkRequest : Decoder UpdateChunkRequest
  syncPushBlobRequest : Decoder SyncPushBlobRequest
  syncFetchBlobRequest : Decoder SyncBlobRequest
  syncDeleteBlobRequest : Decoder SyncBlobRequest
  relayPushRequest : Decoder RelayPushRequest
  relayFetchRequest : Decoder RelayFetchRequest
  relayAckRequest : Decoder RelayAckRequest
  messageAck : Decoder MessageAck
  publishRecoveryKeyRequest : Decoder PublishRecoveryKeyRequest
  recoveryClaimRequest : Decoder RecoveryClaimRequest
  wsFileAvailableRequest : Decoder WsFileAvailableRequest
  wsFileChunkRequest : Decoder WsFileChunkRequest
  wsFileChunkResponse : Decoder WsFileChunkResponse
  wsCheckOnlineRequest : Decoder WsCheckOnlineRequest
  encodePayload : Payload → Bytes
  encodeOnline : WsCheckOnlineResponse → Bytes
  encodeResponse : DhtResponse → Bytes
  encodeNotification : WsNotification → Bytes
  decodePreKeyBundle : Bytes → Option PreKeyBundle
  encodePreKeyMessage : PreKeyMessage → Bytes
  decodePreKeyMessage : Bytes → Option PreKeyMessage
  encodeSignalMessage : SignalMessage → Bytes
  decodeSignalMessage : Bytes → Option SignalMessage
  decodeBase64 : String → Except String Bytes
  /-- `Method::try_from`, for the methods of the WebSocket handler. -/
  wsMethod : Int32 → Option WsMethod
  /-- `method as i32`. -/
  wsNumber : WsMethod → Int32
  wsMethod_eq_some : ∀ n m, wsMethod n = some m ↔ n = wsNumber m

namespace Wire

variable (wire : Wire)

/-- `encode` of the response of a handler; an answer without a response has no bytes. -/
def payload : Payload → Bytes
  | .empty => []
  | p => wire.encodePayload p

/-- A frame as the methods of the WebSocket handler read it. -/
def wsRequest (data : Bytes) : WsRequest :=
  match wire.dhtRequest data with
  | .error e => .malformed e
  | .ok req =>
    match wire.wsMethod req.method with
    | some .wsFileAvailable =>
      .fileAvailable ((wire.wsFileAvailableRequest req.payload).toOption.map (·.transferId))
    | some .wsFileChunkRequest => .fileChunkRequest (wire.wsFileChunkRequest req.payload).toOption
    | some .wsFileChunk => .fileChunk (wire.wsFileChunkResponse req.payload).toOption
    | some .wsCheckOnline =>
      .checkOnline ((wire.wsCheckOnlineRequest req.payload).toOption.map (·.targetHash))
    | none => .dht

/-- The part of the generated code that the handlers call. -/
def codec : Codec where
  decodePreKeyBundle := wire.decodePreKeyBundle
  encodePreKeyMessage := wire.encodePreKeyMessage
  decodePreKeyMessage := wire.decodePreKeyMessage
  encodeSignalMessage := wire.encodeSignalMessage
  decodeSignalMessage := wire.decodeSignalMessage
  decodeWsRequest := wire.wsRequest
  decodeBase64 := wire.decodeBase64

end Wire

/-! ## Handlers of the methods

Each up to the call it carries out; `processCall` carries it out and wraps the result. -/

/-- Decode the payload of a call, or refuse a payload that does not decode. -/
def decodeCall {α : Type} (decode : Decoder α) (call : α → Call) (label : String)
    (payload : Bytes) : Call :=
  match decode payload with
  | .ok req => call req
  | .error e => .refused (label ++ e)

def handleRegister (wire : Wire) : Bytes → Call :=
  decodeCall wire.registrationRequest .register "Erreur décodage RegistrationRequest: "

def handleLogin (wire : Wire) : Bytes → Call :=
  decodeCall wire.loginRequest .login "Erreur décodage LoginRequest: "

def handleDelete (wire : Wire) : Bytes → Call :=
  decodeCall wire.deleteRequest .delete "Error decoding DeleteRequest: "

def handleBlock (_payload : Bytes) : Call := .refused "BLOCK non implémenté"

def handleGroup (_payload : Bytes) : Call := .refused "GROUP non implémenté"

def handleContact (wire : Wire) : Bytes → Call :=
  decodeCall wire.friendRequest .contact "Error decoding FriendRequest: "

def handleReport (_payload : Bytes) : Call := .refused "REPORT non implémenté"

def handleLookupUser (wire : Wire) : Bytes → Call :=
  decodeCall wire.lookupUserRequest .lookupUser "Error decoding LookupUserRequest: "

def handleFetchFriendRequests (wire : Wire) : Bytes → Call :=
  decodeCall wire.fetchFriendRequestsRequest .fetchFriendRequests
    "Error decoding FetchFriendRequestsRequest: "

def handleRespondFriendRequest (wire : Wire) : Bytes → Call :=
  decodeCall wire.friendResponse .respondFriendRequest "Error decoding FriendResponse: "

def handleSendMessage (wire : Wire) : Bytes → Call :=
  decodeCall wire.zenthSignalEnvelope .sendMessage "Error decoding ZenthSignalEnvelope: "

def handleFetchMessages (wire : Wire) : Bytes → Call :=
  decodeCall wire.fetchMessagesRequest .fetchMessages "Error decoding FetchMessagesRequest: "

def handleFetchFriendResponses (wire : Wire) : Bytes → Call :=
  decodeCall wire.fetchFriendResponsesRequest .fetchFriendResponses
    "Error decoding FetchFriendResponsesRequest: "

def handleUploadPrekeys (wire : Wire) : Bytes → Call :=
  decodeCall wire.uploadPreKeysRequest .uploadPrekeys "Error decoding UploadPreKeysRequest: "

def handleFetchPrekeyBundle (wire : Wire) : Bytes → Call :=
  decodeCall wire.fetchPreKeyBundleRequest .fetchPrekeyBundle
    "Error decoding FetchPreKeyBundleRequest: "

def handleCheckPrekeyCount (wire : Wire) : Bytes → Call :=
  decodeCall wire.checkPreKeyCountRequest .checkPrekeyCount
    "Error decoding CheckPreKeyCountRequest: "

def handleReplenishPrekeys (wire : Wire) : Bytes → Call :=
  decodeCall wire.replenishPreKeysRequest .replenishPrekeys
    "Error decoding ReplenishPreKeysRequest: "

def handleGetUpdateManifest (wire : Wire) : Bytes → Call :=
  decodeCall wire.updateManifestRequest .getUpdateManifest
    "Error decoding UpdateManifestRequest: "

def handleGetUpdateChunk (wire : Wire) : Bytes → Call :=
  decodeCall wire.updateChunkRequest .getUpdateChunk "Error decoding UpdateChunkRequest: "

def handleSyncPushBlob (wire : Wire) : Bytes → Call :=
  decodeCall wire.syncPushBlobRequest .syncPushBlob "Error decoding SyncPushBlobRequest: "

def handleSyncFetchBlob (wire : Wire) : Bytes → Call :=
  decodeCall wire.syncFetchBlobRequest .syncFetchBlob "Error decoding SyncFetchBlobRequest: "

def handleSyncDeleteBlob (wire : Wire) : Bytes → Call :=
  decodeCall wire.syncDeleteBlobRequest .syncDeleteBlob
    "Error decoding SyncDeleteBlobRequest: "

def handleRelayPush (wire : Wire) : Bytes → Call :=
  decodeCall wire.relayPushRequest .relayPush "Error decoding RelayPushRequest: "

def handleRelayFetch (wire : Wire) : Bytes → Call :=
  decodeCall wire.relayFetchRequest .relayFetch "Error decoding RelayFetchRequest: "

def handleRelayAck (wire : Wire) : Bytes → Call :=
  decodeCall wire.relayAckRequest .relayAck "Error decoding RelayAckRequest: "

def handleFetchMyAccepted (wire : Wire) : Bytes → Call :=
  decodeCall wire.fetchFriendResponsesRequest .fetchMyAccepted
    "Error decoding FetchFriendResponsesRequest: "

def handleAckMessage (wire : Wire) : Bytes → Call :=
  decodeCall wire.messageAck .ackMessage "Error decoding MessageAck: "

def handlePublishRecoveryKey (wire : Wire) : Bytes → Call :=
  decodeCall wire.publishRecoveryKeyRequest .publishRecoveryKey
    "Error decoding PublishRecoveryKeyRequest: "

def handleRecoveryClaim (wire : Wire) : Bytes → Call :=
  decodeCall wire.recoveryClaimRequest .recoveryClaim "Error decoding RecoveryClaimRequest: "

end ZenthDht
