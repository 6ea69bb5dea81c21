import ZenthDht.Data.Bytes

/-!
# Requests and responses

The message types of the `zenth_dto` crate (and `DeleteRequest`, which the server
defines itself), with the fields the handlers read and write.  The crate is not part
of the repository, so field types are those the handlers' own expressions force.
Where a handler only passes a message through, the fields it never looks at are kept
together in one field `other`.
-/

namespace ZenthDht

/-! ## Accounts -/

structure RegistrationRequest where
  usernameHash : Bytes
  passwordCommitment : Bytes
  identityKeyDilithium : Bytes
  identitySignature : Bytes
  preKeyBundle : Bytes
  proofType : Int32
deriving DecidableEq

structure RegistrationResponse where
  success : Bool
  userHashId : Bytes
  challengeParameters : Bytes
  errorMessage : String
deriving DecidableEq

structure AuthProof where
  challengeId : Bytes
  proof : Bytes
  timestamp : UInt64
deriving DecidableEq

structure LoginRequest where
  appVersion : String
  userHashId : Bytes
  requestChallenge : Bool
  proof : Option AuthProof
deriving DecidableEq

structure DtoAuthChallenge where
  challengeId : Bytes
  nonce : Bytes
  requiredProofType : Int32
  publicParameters : Bytes
  timestamp : UInt64
  difficulty : Int32
deriving DecidableEq

structure VersionOutdated where
  minVersion : String
  latestVersion : String
deriving DecidableEq

structure LoginResponse where
  success : Bool
  challenge : Option DtoAuthChallenge := none
  sessionToken : Bytes := []
  sessionExpiry : UInt64 := 0
  errorMessage : String := ""
  versionOutdated : Option VersionOutdated := none
deriving DecidableEq

structure DeleteRequest where
  userHashId : Bytes
  dilithiumSignature : Bytes
  timestamp : UInt64
deriving DecidableEq

structure DeleteResponse where
  success : Bool
  errorMessage : String := ""
deriving DecidableEq

structure PublishRecoveryKeyRequest where
  usernameHash : Bytes
  recoveryDilithiumPubkey : Bytes
  authSignature : Bytes
  timestamp : UInt64
deriving DecidableEq

structure PublishRecoveryKeyResponse where
  success : Bool
  errorMessage : String := ""
deriving DecidableEq

structure RecoveryClaimRequest where
  usernameHash : Bytes
  newIdentityDilithiumPubkey : Bytes
  newIdentitySignature : Bytes
  newPreKeyBundle : Bytes
  recoverySignature : Bytes
  timestamp : UInt64
deriving DecidableEq

structure RecoveryClaimResponse where
  success : Bool
  sessionToken : Bytes := []
  errorMessage : String := ""
deriving DecidableEq

/-! ## Pre-keys -/

/-- An X3DH bundle; the handlers read or replace the named fields only. -/
structure PreKeyBundle where
  preKeyId : UInt32
  preKeyPublic : Bytes
  signedPreKeyPublic : Bytes
  pqPreKeyPublic : Option Bytes
  other : Bytes
deriving DecidableEq

structure OneTimePreKey where
  preKeyId : UInt32
  publicKey : Bytes
deriving DecidableEq

structure UploadPreKeysRequest where
  usernameHash : Bytes
  oneTimePrekeys : List OneTimePreKey
  authSignature : Bytes
  timestamp : UInt64
deriving DecidableEq

structure UploadPreKeysResponse where
  success : Bool
  prekeysStored : UInt32 := 0
  errorMessage : String := ""
deriving DecidableEq

structure ReplenishPreKeysRequest where
  usernameHash : Bytes
  newPrekeys : List OneTimePreKey
  authSignature : Bytes
  timestamp : UInt64
deriving DecidableEq

structure ReplenishPreKeysResponse where
  success : Bool
  totalPrekeys : UInt32 := 0
  errorMessage : String := ""
deriving DecidableEq

structure CheckPreKeyCountRequest where
  usernameHash : Bytes
  authSignature : Bytes
  timestamp : UInt64
deriving DecidableEq

structure CheckPreKeyCountResponse where
  success : Bool
  oneTimePrekeyCount : UInt32 := 0
  hasSignedPrekey : Bool := false
  hasKyberPrekey : Bool := false
  errorMessage : String := ""
deriving DecidableEq

structure FetchPreKeyBundleRequest where
  requesterHash : Bytes
  targetHash : Bytes
  authSignature : Bytes
  timestamp : UInt64
deriving DecidableEq

structure FetchPreKeyBundleResponse where
  success : Bool
  bundle : Option PreKeyBundle := none
  errorMessage : String := ""
deriving DecidableEq

structure LookupUserRequest where
  requesterHash : Bytes
  targetHash : Bytes
  dilithiumSignature : Bytes
  timestamp : UInt64
deriving DecidableEq

structure LookupUserResponse where
  found : Bool
  userHash : Bytes := []
  preKeyBundle : Option PreKeyBundle := none
  errorMessage : String := ""
deriving DecidableEq

/-! ## Friends -/

structure FriendRequest where
  requesterHashId : Bytes
  targetHashId : Bytes
  preKeyBundle : Bytes
  dilithiumSignature : Bytes
  encryptedMessage : Bytes
  timestamp : UInt64
deriving DecidableEq

structure FriendResponse where
  responderHashId : Bytes
  requesterHashId : Bytes
  accepted : Bool
  preKeyBundle : Bytes
  dilithiumSignature : Bytes
  timestamp : UInt64
deriving DecidableEq

/-- Also the request type of FETCH_FRIEND_RESPONSES and FETCH_MY_ACCEPTED. -/
structure FetchFriendsRequest where
  userHash : Bytes
  sinceTimestamp : UInt64
  dilithiumSignature : Bytes
  timestamp : UInt64
deriving DecidableEq

structure FetchFriendRequestsResponse where
  requests : List FriendRequest
  timestamp : UInt64
deriving DecidableEq

structure FetchFriendResponsesResponse where
  responses : List FriendResponse
  timestamp : UInt64
deriving DecidableEq

/-! ## Messages -/

structure SignalMessage where
  other : Bytes
deriving DecidableEq, Inhabited

structure PreKeyMessage where
  baseKey : Bytes
  message : Option SignalMessage
  other : Bytes
deriving DecidableEq

inductive Content
  | prekeyMessage (msg : PreKeyMessage)
  | regularMessage (msg : SignalMessage)
deriving DecidableEq

structure ZenthSignalEnvelope where
  version : UInt32
  senderHashId : Bytes
  recipientHashId : Bytes
  content : Option Content
  dilithiumSignature : Bytes
  timestamp : UInt64
  messageId : Bytes
  sequenceNumber : UInt64
deriving DecidableEq

structure SendMessageResponse where
  success : Bool
  messageId : Bytes := []
  serverTimestamp : UInt64 := 0
  errorMessage : String := ""
deriving DecidableEq

structure FetchMessagesRequest where
  userHash : Bytes
  sinceTimestamp : UInt64
  limit : UInt32
  timestamp : UInt64
  dilithiumSignature : Bytes
deriving DecidableEq

structure FetchMessagesResponse where
  messages : List ZenthSignalEnvelope := []
  timestamp : UInt64 := 0
  remainingCount : UInt32 := 0
deriving DecidableEq

structure MessageAck where
  messageId : Bytes
  recipientHashId : Bytes
  timestamp : UInt64
  dilithiumSignature : Bytes
deriving DecidableEq

/-! ## Devices: relay mailboxes and sync blobs -/

structure RelayPushRequest where
  forDeviceDilithiumPubkey : Bytes
  ciphertext : Bytes
  nonce : Bytes
  senderDilithiumPubkey : Bytes
  senderSignature : Bytes
  timestamp : UInt64
  ttlSecs : UInt64
deriving DecidableEq

structure RelayPushResponse where
  success : Bool
  relayId : Nat := 0
  errorMessage : String := ""
deriving DecidableEq

structure RelayFetchRequest where
  forDeviceDilithiumPubkey : Bytes
  sinceId : Int64
  limit : UInt32
  timestamp : UInt64
  signature : Bytes
deriving DecidableEq

structure RelayEntry where
  id : Nat
  ciphertext : Bytes
  nonce : Bytes
deriving DecidableEq

structure RelayFetchResponse where
  success : Bool
  entries : List RelayEntry := []
  errorMessage : String := ""
deriving DecidableEq

structure RelayAckRequest where
  forDeviceDilithiumPubkey : Bytes
  upToId : Int64
  timestamp : UInt64
  signature : Bytes
deriving DecidableEq

structure RelayAckResponse where
  success : Bool
  errorMessage : String := ""
deriving DecidableEq

structure SyncPushBlobRequest where
  forDeviceDilithiumPubkey : Bytes
  ciphertext : Bytes
  signature : Bytes
  senderDilithiumPubkey : Bytes
  authSignature : Bytes
  timestamp : UInt64
  ttlSecs : UInt64
deriving DecidableEq

structure SyncPushBlobResponse where
  success : Bool
  errorMessage : String := ""
deriving DecidableEq

/-- The request type of both SYNC_FETCH_BLOB and SYNC_DELETE_BLOB. -/
structure SyncBlobRequest where
  forDeviceDilithiumPubkey : Bytes
  requesterDilithiumPubkey : Bytes
  signature : Bytes
  timestamp : UInt64
deriving DecidableEq

structure SyncFetchBlobResponse where
  success : Bool
  ciphertext : Bytes := []
  signature : Bytes := []
  errorMessage : String := ""
deriving DecidableEq

structure SyncDeleteBlobResponse where
  success : Bool
  errorMessage : String := ""
deriving DecidableEq

/-! ## Client updates -/

structure UpdateManifestRequest where
  platform : String
  currentVersion : String
deriving DecidableEq

structure UpdateManifestResponse where
  latestVersion : String
  sha256 : String
  size : UInt64
  signature : Bytes
  notes : String
  platform : String
deriving DecidableEq

structure UpdateChunkRequest where
  currentVersion : String
  offset : UInt64
  chunkSize : UInt32
deriving DecidableEq

structure UpdateChunkResponse where
  offset : UInt64
  data : Bytes
  isLast : Bool
  total : UInt64
deriving DecidableEq

/-! ## WebSocket notifications -/

structure MessageNotification where
  senderHashId : Bytes
  messageId : Bytes
  timestamp : UInt64
deriving DecidableEq

structure FriendRequestNotification where
  requesterHashId : Bytes
  preKeyBundle : Bytes
  encryptedMessage : Bytes
  timestamp : UInt64
deriving DecidableEq

structure WsFileChunkRequest where
  transferId : Bytes
  chunkIndex : UInt32
  requesterHash : Bytes
deriving DecidableEq

structure WsFileChunkResponse where
  transferId : Bytes
  chunkIndex : UInt32
  recipientHash : Bytes
  data : Bytes
deriving DecidableEq

/-- The payload of a `WsNotification`; its constructor is the notification type. -/
inductive NotificationPayload
  | messageReceived (n : MessageNotification)
  | friendRequestReceived (n : FriendRequestNotification)
  | friendRequestAccepted (r : FriendResponse)
  | friendRequestRejected (r : FriendResponse)
  | fileChunkRequest (r : WsFileChunkRequest)
  | fileChunk (r : WsFileChunkResponse)
deriving DecidableEq

structure WsNotification where
  timestamp : UInt64
  payload : NotificationPayload
deriving DecidableEq

/-- A binary WebSocket frame: one of the four methods of the WebSocket handler itself, with
`none` for a payload that does not decode, or a request for the dispatcher. -/
inductive WsRequest
  | malformed (error : String)
  | fileAvailable (transferId : Option Bytes)
  | fileChunkRequest (req : Option WsFileChunkRequest)
  | fileChunk (chunk : Option WsFileChunkResponse)
  | checkOnline (targetHash : Option Bytes)
  | dht
deriving DecidableEq

/-- What the server writes to a socket: the answer to a frame, a pong or a notification. -/
inductive WsOutput
  | ok
  | error (message : String)
  | online (online : Bool)
  | dht
  | pong
  | notification (n : WsNotification)
deriving DecidableEq

/-! ## Codecs -/

/-- The parts of the generated `prost` code (and of `base64`) whose results the handlers
depend on. -/
structure Codec where
  decodePreKeyBundle : Bytes → Option PreKeyBundle
  encodePreKeyMessage : PreKeyMessage → Bytes
  decodePreKeyMessage : Bytes → Option PreKeyMessage
  encodeSignalMessage : SignalMessage → Bytes
  decodeSignalMessage : Bytes → Option SignalMessage
  decodeWsRequest : Bytes → WsRequest
  decodeBase64 : String → Except String Bytes

/-- `encode_to_vec` of whichever message the envelope carries. -/
def Codec.encodeContent (codec : Codec) : Content → Bytes
  | .prekeyMessage msg => codec.encodePreKeyMessage msg
  | .regularMessage msg => codec.encodeSignalMessage msg

end ZenthDht
