import ZenthDht.Model.Schema
import Mathlib.Data.List.Sort

/-!
# SQL statements

Every SQL statement the server executes is one constructor of `Stmt`, and `Stmt.exec`
is its effect on the database.  The server opens no transaction: each statement runs in
autocommit mode, so it is atomic and a statement that fails changes no row.

Constraints are those of the migrations: primary keys, the two `UNIQUE` constraints,
the foreign keys with `ON DELETE CASCADE`.  A statement that draws from a sequence
keeps the values it drew even when it fails.
-/

namespace ZenthDht

/-- `diesel::result::Error`, as far as the handlers tell its cases apart. -/
inductive DieselError
  | notFound
  | uniqueViolation (constraint : String)
  | foreignKeyViolation (constraint : String)
  | other (message : String)
deriving DecidableEq

/-- The text of an error, `Display` of `diesel::result::Error`. -/
def DieselError.toString : DieselError → String
  | .notFound => "Record not found"
  | .uniqueViolation c => "duplicate key value violates unique constraint \"" ++ c ++ "\""
  | .foreignKeyViolation c => "insert or update violates foreign key constraint \"" ++ c ++ "\""
  | .other m => m

/-- The answer of PostgreSQL to a date before its first one; `chrono` knows earlier dates. -/
def timestampOutOfRange : DieselError := .other "timestamp out of range"

structure NewUser where
  userHashId : Bytes
  passwordCommitment : Bytes
  identityKeyDilithium : Bytes
  identitySignature : Bytes
  preKeyBundle : Bytes
  proofType : Int32
  recoveryDilithiumPubkey : Option Bytes
deriving DecidableEq

structure NewAuthChallenge where
  challengeId : Bytes
  userHashId : Bytes
  nonce : Bytes
  requiredProofType : Int32
  publicParameters : Bytes
  difficulty : Int32
  expiresAt : NaiveDateTime
deriving DecidableEq

structure NewSession where
  sessionToken : Bytes
  userHashId : Bytes
  sessionExpiry : NaiveDateTime
deriving DecidableEq

structure NewFriendRequest where
  requesterHashId : Bytes
  targetHashId : Bytes
  preKeyBundle : Bytes
  dilithiumSignature : Bytes
  encryptedMessage : Option Bytes
  timestamp : Int64
deriving DecidableEq

structure NewFriendResponse where
  requestId : Nat
  responderHashId : Bytes
  requesterHashId : Bytes
  accepted : Bool
  preKeyBundle : Option Bytes
  dilithiumSignature : Bytes
deriving DecidableEq

structure NewOneTimePrekey where
  userHashId : Bytes
  prekeyId : Int32
  publicKey : Bytes
deriving DecidableEq

structure NewMessage where
  messageId : Bytes
  senderHashId : Bytes
  recipientHashId : Bytes
  content : Bytes
  dilithiumSignature : Bytes
  timestamp : Int64
  serverTimestamp : Int64
  expiresAt : NaiveDateTime
deriving DecidableEq

structure NewRelayMessage where
  forDeviceDilithiumPubkey : Bytes
  ciphertext : Bytes
  nonce : Bytes
  expiresAt : NaiveDateTime
deriving DecidableEq

inductive Stmt
  -- app_config
  | selectConfig (key : String)
  -- users
  | selectUser (userHashId : Bytes)
  | insertUser (u : NewUser)
  | updateRecoveryKey (userHashId key : Bytes)
  | updateIdentity (userHashId key signature bundle : Bytes)
  | deleteUser (userHashId : Bytes)
  -- auth_challenges
  | selectChallenge (challengeId userHashId : Bytes)
  | insertChallenge (c : NewAuthChallenge)
  | deleteChallenge (challengeId : Bytes)
  | deleteChallengesOf (userHashId : Bytes)
  -- sessions
  | selectSession (sessionToken userHashId : Bytes)
  | insertSession (s : NewSession)
  | deleteSessionsOf (userHashId : Bytes)
  -- friend_requests
  | countFriendRequests (requester target : Bytes)
  | selectFriendRequest (requester target : Bytes)
  | loadFriendRequests (target : Bytes) (since : Option Int64)
  | selectFriendRequestIds (userHashId : Bytes)
  | insertFriendRequest (r : NewFriendRequest)
  | updateFriendRequest (requester target bundle signature : Bytes) (message : Option Bytes)
      (timestamp : Int64)
  | deleteFriendRequestsOf (userHashId : Bytes)
  -- friend_responses
  | countFriendResponses (requestId : Nat)
  | loadFriendResponses (requester : Bytes) (since : Option NaiveDateTime)
  | loadAccepted (responder : Bytes) (since : Option NaiveDateTime)
  | insertFriendResponse (r : NewFriendResponse)
  | updateFriendResponses (requestId : Nat) (accepted : Bool) (bundle : Option Bytes)
      (signature : Bytes)
  | deleteFriendResponses (requestIds : List Nat)
  -- one_time_prekeys
  | countUnusedPrekeys (userHashId : Bytes)
  | selectUnusedPrekey (userHashId : Bytes)
  | insertPrekeys (ps : List NewOneTimePrekey)
  | markPrekeyUsed (id : Nat)
  -- messages
  | countMessages (recipient : Bytes) (since : Int64) (now : NaiveDateTime)
  | loadMessages (recipient : Bytes) (since : Option Int64) (now : NaiveDateTime) (limit : Nat)
  | insertMessage (m : NewMessage)
  | deleteMessage (messageId recipient : Bytes)
  | deleteMessagesOf (userHashId : Bytes)
  | purgeMessages (now : NaiveDateTime)
  -- relay_messages
  | loadRelay (device : Bytes) (since : Int64) (now : NaiveDateTime) (limit : Nat)
  | insertRelay (m : NewRelayMessage)
  | deleteRelayUpTo (device : Bytes) (upTo : Int64)
  | purgeRelay (now : NaiveDateTime)
  -- sync_blobs
  | selectBlob (device : Bytes) (now : NaiveDateTime)
  | upsertBlob (b : SyncBlob)
  | deleteBlob (device : Bytes)
  | purgeBlobs (now : NaiveDateTime)
deriving DecidableEq

namespace Stmt

/-- What a statement returns when it succeeds; `execute` returns the number of rows. -/
abbrev Out : Stmt → Type
  | selectConfig _ => String
  | selectUser _ => User
  | selectChallenge _ _ => AuthChallenge
  | selectSession _ _ => Session
  | selectFriendRequest _ _ => FriendRequestModel
  | loadFriendRequests _ _ => List FriendRequestModel
  | selectFriendRequestIds _ => List Nat
  | loadFriendResponses _ _ => List FriendResponseModel
  | loadAccepted _ _ => List (Bytes × Bytes × Bytes × NaiveDateTime)
  | selectUnusedPrekey _ => Nat × Int32 × Bytes
  | loadMessages _ _ _ _ => List MessageModel
  | loadRelay _ _ _ _ => List (Nat × Bytes × Bytes)
  | selectBlob _ _ => Bytes × Bytes
  | _ => Nat

/-- `first`: the first row of a result, or `NotFound`. -/
def first {α : Type} : List α → Except DieselError α
  | [] => .error .notFound
  | a :: _ => .ok a

/-- The `since` filters: no filter at all for `since_timestamp = 0`. -/
def after {α : Type} [LT α] [DecidableLT α] (since : Option α) (x : α) : Bool :=
  match since with
  | none => true
  | some s => decide (s < x)

/-- One row of the multi-row `INSERT … ON CONFLICT DO NOTHING`: the id is drawn either way. -/
def insertPrekey (now : NaiveDateTime) (acc : List OneTimePrekey × Nat × Nat)
    (p : NewOneTimePrekey) : List OneTimePrekey × Nat × Nat :=
  let (rows, seq, n) := acc
  if rows.any fun x ↦ x.userHashId = p.userHashId && x.prekeyId = p.prekeyId then
    (rows, seq + 1, n)
  else
    (rows ++ [⟨seq, p.userHashId, p.prekeyId, p.publicKey, false, now⟩], seq + 1, n + 1)

/-- Delete rows together with the friend responses that refer to a deleted request. -/
def removeFriendRequests (db : Db) (p : FriendRequestModel → Bool) : Db :=
  let gone := (db.friendRequests.filter p).map FriendRequestModel.id
  { db with
    friendRequests := db.friendRequests.filter fun x ↦ !p x
    friendResponses := db.friendResponses.filter fun x ↦ !gone.contains x.requestId }

/-- The rows that refer to a user by a foreign key go with the user's row. -/
def removeUser (db : Db) (u : Bytes) : Db :=
  let db := removeFriendRequests db fun x ↦ x.requesterHashId = u || x.targetHashId = u
  { db with
    users := db.users.filter fun x ↦ x.userHashId ≠ u
    authChallenges := db.authChallenges.filter fun x ↦ x.userHashId ≠ u
    sessions := db.sessions.filter fun x ↦ x.userHashId ≠ u
    oneTimePrekeys := db.oneTimePrekeys.filter fun x ↦ x.userHashId ≠ u }

/-- The messages FETCH_MESSAGES selects. -/
def selectsMessage (recipient : Bytes) (since : Option Int64) (now : NaiveDateTime)
    (m : MessageModel) : Bool :=
  m.recipientHashId = recipient && decide (now < m.expiresAt) && after since m.serverTimestamp

/-- The effect of a statement executed at the time `now` of the database server. -/
def exec (now : NaiveDateTime) (db : Db) : (s : Stmt) → Except DieselError s.Out × Db
  | selectConfig k => (first ((db.appConfig.filter fun x ↦ x.1 = k).map Prod.snd), db)
  | selectUser u => (first (db.users.filter fun x ↦ x.userHashId = u), db)
  | insertUser n =>
    if db.hasUser n.userHashId then (.error (.uniqueViolation "users_pkey"), db)
    else (.ok 1, { db with users := db.users ++ [⟨n.userHashId, n.passwordCommitment,
      n.identityKeyDilithium, n.identitySignature, n.preKeyBundle, n.proofType, now,
      n.recoveryDilithiumPubkey⟩] })
  | updateRecoveryKey u k =>
    (.ok (db.users.countP fun x ↦ x.userHashId = u), { db with
      users := db.users.map fun x ↦
        if x.userHashId = u then { x with recoveryDilithiumPubkey := some k } else x })
  | updateIdentity u k s b =>
    (.ok (db.users.countP fun x ↦ x.userHashId = u), { db with
      users := db.users.map fun x ↦
        if x.userHashId = u then
          { x with identityKeyDilithium := k, identitySignature := s, preKeyBundle := b }
        else x })
  | deleteUser u => if db.hasUser u then (.ok 1, removeUser db u) else (.ok 0, db)
  | selectChallenge i u =>
    (first (db.authChallenges.filter fun x ↦ x.challengeId = i && x.userHashId = u), db)
  | insertChallenge n =>
    if db.authChallenges.any fun x ↦ x.challengeId = n.challengeId then
      (.error (.uniqueViolation "auth_challenges_pkey"), db)
    else if !db.hasUser n.userHashId then
      (.error (.foreignKeyViolation "auth_challenges_user_hash_id_fkey"), db)
    else (.ok 1, { db with authChallenges := db.authChallenges ++ [⟨n.challengeId, n.userHashId,
      n.nonce, n.requiredProofType, n.publicParameters, n.difficulty, now, n.expiresAt⟩] })
  | deleteChallenge i =>
    (.ok (db.authChallenges.countP fun x ↦ x.challengeId = i),
      { db with authChallenges := db.authChallenges.filter fun x ↦ x.challengeId ≠ i })
  | deleteChallengesOf u =>
    (.ok (db.authChallenges.countP fun x ↦ x.userHashId = u),
      { db with authChallenges := db.authChallenges.filter fun x ↦ x.userHashId ≠ u })
  | selectSession t u =>
    (first (db.sessions.filter fun x ↦ x.sessionToken = t && x.userHashId = u), db)
  | insertSession n =>
    if db.sessions.any fun x ↦ x.sessionToken = n.sessionToken then
      (.error (.uniqueViolation "sessions_pkey"), db)
    else if !db.hasUser n.userHashId then
      (.error (.foreignKeyViolation "sessions_user_hash_id_fkey"), db)
    else (.ok 1, { db with
      sessions := db.sessions ++ [⟨n.sessionToken, n.userHashId, n.sessionExpiry, now⟩] })
  | deleteSessionsOf u =>
    (.ok (db.sessions.countP fun x ↦ x.userHashId = u),
      { db with sessions := db.sessions.filter fun x ↦ x.userHashId ≠ u })
  | countFriendRequests r t =>
    (.ok (db.friendRequests.countP fun x ↦ x.requesterHashId = r && x.targetHashId = t), db)
  | selectFriendRequest r t =>
    (first (db.friendRequests.filter fun x ↦ x.requesterHashId = r && x.targetHashId = t), db)
  | loadFriendRequests t since =>
    (.ok ((db.friendRequests.filter fun x ↦ x.targetHashId = t && after since x.timestamp).insertionSort
      fun x y ↦ y.timestamp ≤ x.timestamp), db)
  | selectFriendRequestIds u =>
    (.ok ((db.friendRequests.filter fun x ↦
      x.requesterHashId = u || x.targetHashId = u).map FriendRequestModel.id), db)
  | insertFriendRequest n =>
    let id := db.seq.friendRequests
    let db := { db with seq := { db.seq with friendRequests := id + 1 } }
    if db.friendRequests.any fun x ↦
        x.requesterHashId = n.requesterHashId && x.targetHashId = n.targetHashId then
      (.error (.uniqueViolation "unique_friend_request"), db)
    else if !db.hasUser n.requesterHashId then
      (.error (.foreignKeyViolation "friend_requests_requester_hash_id_fkey"), db)
    else if !db.hasUser n.targetHashId then
      (.error (.foreignKeyViolation "friend_requests_target_hash_id_fkey"), db)
    else (.ok 1, { db with friendRequests := db.friendRequests ++ [⟨id, n.requesterHashId,
      n.targetHashId, n.preKeyBundle, n.dilithiumSignature, n.encryptedMessage, n.timestamp,
      now⟩] })
  | updateFriendRequest r t b s m ts =>
    (.ok (db.friendRequests.countP fun x ↦ x.requesterHashId = r && x.targetHashId = t), { db with
      friendRequests := db.friendRequests.map fun x ↦
        if x.requesterHashId = r && x.targetHashId = t then
          { x with preKeyBundle := b, dilithiumSignature := s, encryptedMessage := m,
                   timestamp := ts }
        else x })
  | deleteFriendRequestsOf u =>
    (.ok (db.friendRequests.countP fun x ↦ x.requesterHashId = u || x.targetHashId = u),
      removeFriendRequests db fun x ↦ x.requesterHashId = u || x.targetHashId = u)
  | countFriendResponses i => (.ok (db.friendResponses.countP fun x ↦ x.requestId = i), db)
  | loadFriendResponses r since =>
    if since.any fun t ↦ t < timestampMin then (.error timestampOutOfRange, db) else
    (.ok (db.friendResponses.filter fun x ↦ x.requesterHashId = r && after since x.createdAt), db)
  | loadAccepted r since =>
    if since.any fun t ↦ t < timestampMin then (.error timestampOutOfRange, db) else
    (.ok ((db.friendResponses.filter fun x ↦
        x.responderHashId = r && x.accepted && after since x.createdAt).flatMap fun x ↦
      (db.friendRequests.filter fun y ↦ y.id = x.requestId).map fun y ↦
        (y.requesterHashId, y.preKeyBundle, x.dilithiumSignature, x.createdAt)), db)
  | insertFriendResponse n =>
    let id := db.seq.friendResponses
    let db := { db with seq := { db.seq with friendResponses := id + 1 } }
    if !db.hasFriendRequest n.requestId then
      (.error (.foreignKeyViolation "friend_responses_request_id_fkey"), db)
    else (.ok 1, { db with friendResponses := db.friendResponses ++ [⟨id, n.requestId,
      n.responderHashId, n.requesterHashId, n.accepted, n.preKeyBundle, n.dilithiumSignature,
      false, now⟩] })
  | updateFriendResponses i a b s =>
    (.ok (db.friendResponses.countP fun x ↦ x.requestId = i), { db with
      friendResponses := db.friendResponses.map fun x ↦
        if x.requestId = i then
          { x with accepted := a, preKeyBundle := b, dilithiumSignature := s, delivered := false }
        else x })
  | deleteFriendResponses is =>
    (.ok (db.friendResponses.countP fun x ↦ is.contains x.requestId),
      { db with friendResponses := db.friendResponses.filter fun x ↦ !is.contains x.requestId })
  | countUnusedPrekeys u =>
    (.ok (db.oneTimePrekeys.countP fun x ↦ x.userHashId = u && !x.used), db)
  | selectUnusedPrekey u =>
    (first (((db.oneTimePrekeys.filter fun x ↦ x.userHashId = u && !x.used).insertionSort
      fun x y ↦ x.id ≤ y.id).map fun x ↦ (x.id, x.prekeyId, x.publicKey)), db)
  | insertPrekeys ps =>
    let (rows, seq, n) := ps.foldl (insertPrekey now)
      (db.oneTimePrekeys, db.seq.oneTimePrekeys, 0)
    let db := { db with seq := { db.seq with oneTimePrekeys := seq } }
    if n ≠ 0 && ps.any fun p ↦ !db.hasUser p.userHashId then
      (.error (.foreignKeyViolation "one_time_prekeys_user_hash_id_fkey"), db)
    else (.ok n, { db with oneTimePrekeys := rows })
  | markPrekeyUsed i =>
    (.ok (db.oneTimePrekeys.countP fun x ↦ x.id = i), { db with
      oneTimePrekeys := db.oneTimePrekeys.map fun x ↦ if x.id = i then { x with used := true } else x })
  | countMessages r since n =>
    (.ok (db.messages.countP (selectsMessage r (some since) n)), db)
  | loadMessages r since n limit =>
    (.ok (((db.messages.filter (selectsMessage r since n)).insertionSort
      fun x y ↦ x.serverTimestamp ≤ y.serverTimestamp).take limit), db)
  | insertMessage n =>
    if n.expiresAt < timestampMin then (.error timestampOutOfRange, db) else
    let id := db.seq.messages
    let db := { db with seq := { db.seq with messages := id + 1 } }
    if db.messages.any fun x ↦ x.messageId = n.messageId then
      (.error (.uniqueViolation "messages_message_id_key"), db)
    else (.ok 1, { db with messages := db.messages ++ [⟨id, n.messageId, n.senderHashId,
      n.recipientHashId, n.content, n.dilithiumSignature, n.timestamp, n.serverTimestamp, false,
      now, n.expiresAt⟩] })
  | deleteMessage i r =>
    (.ok (db.messages.countP fun x ↦ x.messageId = i && x.recipientHashId = r),
      { db with messages := db.messages.filter fun x ↦ !(x.messageId = i && x.recipientHashId = r) })
  | deleteMessagesOf u =>
    (.ok (db.messages.countP fun x ↦ x.senderHashId = u || x.recipientHashId = u),
      { db with messages := db.messages.filter fun x ↦ !(x.senderHashId = u || x.recipientHashId = u) })
  | purgeMessages n =>
    (.ok (db.messages.countP fun x ↦ x.expiresAt < n),
      { db with messages := db.messages.filter fun x ↦ !decide (x.expiresAt < n) })
  | loadRelay d since n limit =>
    (.ok ((((db.relayMessages.filter fun x ↦ x.forDeviceDilithiumPubkey = d &&
        decide (since.toInt < x.id) && decide (n < x.expiresAt)).insertionSort
      fun x y ↦ x.id ≤ y.id).take limit).map fun x ↦ (x.id, x.ciphertext, x.nonce)), db)
  | insertRelay n =>
    let id := db.seq.relayMessages
    (.ok id, { db with
      seq := { db.seq with relayMessages := id + 1 }
      relayMessages := db.relayMessages ++ [⟨id, n.forDeviceDilithiumPubkey, n.ciphertext,
        n.nonce, n.expiresAt⟩] })
  | deleteRelayUpTo d i =>
    (.ok (db.relayMessages.countP fun x ↦ x.forDeviceDilithiumPubkey = d && decide (x.id ≤ i.toInt)),
      { db with relayMessages := db.relayMessages.filter fun x ↦
          !(x.forDeviceDilithiumPubkey = d && decide (x.id ≤ i.toInt)) })
  | purgeRelay n =>
    (.ok (db.relayMessages.countP fun x ↦ x.expiresAt < n),
      { db with relayMessages := db.relayMessages.filter fun x ↦ !decide (x.expiresAt < n) })
  | selectBlob d n =>
    (first ((db.syncBlobs.filter fun x ↦ x.forDeviceDilithiumPubkey = d &&
      decide (n < x.expiresAt)).map fun x ↦ (x.ciphertext, x.signature)), db)
  | upsertBlob b =>
    (.ok 1, { db with
      syncBlobs :=
        if db.syncBlobs.any fun x ↦ x.forDeviceDilithiumPubkey = b.forDeviceDilithiumPubkey then
          db.syncBlobs.map fun x ↦
            if x.forDeviceDilithiumPubkey = b.forDeviceDilithiumPubkey then
              { x with ciphertext := b.ciphertext, signature := b.signature,
                       expiresAt := b.expiresAt }
            else x
        else db.syncBlobs ++ [b] })
  | deleteBlob d =>
    (.ok (db.syncBlobs.countP fun x ↦ x.forDeviceDilithiumPubkey = d),
      { db with syncBlobs := db.syncBlobs.filter fun x ↦ x.forDeviceDilithiumPubkey ≠ d })
  | purgeBlobs n =>
    (.ok (db.syncBlobs.countP fun x ↦ x.expiresAt < n),
      { db with syncBlobs := db.syncBlobs.filter fun x ↦ !decide (x.expiresAt < n) })

end Stmt

end ZenthDht
