import ZenthDht.Data.Bytes

/-!
# The database

The tables of the migrations, with the rows of `models.rs`.  A table is the list of
its rows; PostgreSQL promises no order, so the environment may permute it at any time
(`Db.isPerm`).  The sequences behind the `SERIAL` columns are part of the database.

`TIMESTAMP` columns are microseconds since the Unix epoch, the resolution PostgreSQL
keeps.
-/

namespace ZenthDht

/-- A `TIMESTAMP` value: microseconds since the epoch. -/
abbrev NaiveDateTime : Type := Int

/-- The last date `chrono` can represent, in microseconds. -/
def naiveDateTimeMax : NaiveDateTime := 8210266876799999999

/-- The first date `chrono` can represent, in microseconds. -/
def naiveDateTimeMin : NaiveDateTime := -8334601228800000000

/-- The first date a `TIMESTAMP` of PostgreSQL can hold, in microseconds: 24 November 4714 BC. -/
def timestampMin : NaiveDateTime := -210866803200000000

/-- `chrono::Duration::seconds`. -/
def seconds (n : Int) : Int := n * 1000000

/-- `chrono::Duration::hours`. -/
def hours (n : Int) : Int := seconds (n * 3600)

/-- `chrono::Duration::days`. -/
def days (n : Int) : Int := hours (n * 24)

structure User where
  userHashId : Bytes
  passwordCommitment : Bytes
  identityKeyDilithium : Bytes
  identitySignature : Bytes
  preKeyBundle : Bytes
  proofType : Int32
  createdAt : NaiveDateTime
  recoveryDilithiumPubkey : Option Bytes
deriving DecidableEq

structure AuthChallenge where
  challengeId : Bytes
  userHashId : Bytes
  nonce : Bytes
  requiredProofType : Int32
  publicParameters : Bytes
  difficulty : Int32
  createdAt : NaiveDateTime
  expiresAt : NaiveDateTime
deriving DecidableEq

structure Session where
  sessionToken : Bytes
  userHashId : Bytes
  sessionExpiry : NaiveDateTime
  createdAt : NaiveDateTime
deriving DecidableEq

structure FriendRequestModel where
  id : Nat
  requesterHashId : Bytes
  targetHashId : Bytes
  preKeyBundle : Bytes
  dilithiumSignature : Bytes
  encryptedMessage : Option Bytes
  timestamp : Int64
  createdAt : NaiveDateTime
deriving DecidableEq

structure FriendResponseModel where
  id : Nat
  requestId : Nat
  responderHashId : Bytes
  requesterHashId : Bytes
  accepted : Bool
  preKeyBundle : Option Bytes
  dilithiumSignature : Bytes
  delivered : Bool
  createdAt : NaiveDateTime
deriving DecidableEq

structure OneTimePrekey where
  id : Nat
  userHashId : Bytes
  prekeyId : Int32
  publicKey : Bytes
  used : Bool
  createdAt : NaiveDateTime
deriving DecidableEq

structure MessageModel where
  id : Nat
  messageId : Bytes
  senderHashId : Bytes
  recipientHashId : Bytes
  content : Bytes
  dilithiumSignature : Bytes
  timestamp : Int64
  serverTimestamp : Int64
  delivered : Bool
  createdAt : NaiveDateTime
  expiresAt : NaiveDateTime
deriving DecidableEq

structure RelayMessage where
  id : Nat
  forDeviceDilithiumPubkey : Bytes
  ciphertext : Bytes
  nonce : Bytes
  expiresAt : NaiveDateTime
deriving DecidableEq

structure SyncBlob where
  forDeviceDilithiumPubkey : Bytes
  ciphertext : Bytes
  signature : Bytes
  expiresAt : NaiveDateTime
deriving DecidableEq

/-- The next value of each `SERIAL` column. -/
structure Sequences where
  friendRequests : Nat := 1
  friendResponses : Nat := 1
  oneTimePrekeys : Nat := 1
  messages : Nat := 1
  relayMessages : Nat := 1
deriving DecidableEq

structure Db where
  appConfig : List (String × String) := []
  users : List User := []
  authChallenges : List AuthChallenge := []
  sessions : List Session := []
  friendRequests : List FriendRequestModel := []
  friendResponses : List FriendResponseModel := []
  oneTimePrekeys : List OneTimePrekey := []
  messages : List MessageModel := []
  relayMessages : List RelayMessage := []
  syncBlobs : List SyncBlob := []
  seq : Sequences := {}
deriving DecidableEq

namespace Db

/-- The database as the migrations leave it. -/
def migrated : Db := { appConfig := [("required_version", "0.1.2")] }

/-- The row a foreign key to `users` refers to. -/
def hasUser (db : Db) (u : Bytes) : Bool := db.users.any fun x ↦ x.userHashId = u

/-- The row a foreign key to `friend_requests` refers to. -/
def hasFriendRequest (db : Db) (id : Nat) : Bool := db.friendRequests.any fun x ↦ x.id = id

/-- The same rows, in another order. -/
def isPerm (db db' : Db) : Bool :=
  db.users.isPerm db'.users && db.authChallenges.isPerm db'.authChallenges &&
  db.sessions.isPerm db'.sessions && db.friendRequests.isPerm db'.friendRequests &&
  db.friendResponses.isPerm db'.friendResponses &&
  db.oneTimePrekeys.isPerm db'.oneTimePrekeys && db.messages.isPerm db'.messages &&
  db.relayMessages.isPerm db'.relayMessages && db.syncBlobs.isPerm db'.syncBlobs &&
  db.appConfig = db'.appConfig && db.seq = db'.seq

end Db

end ZenthDht
