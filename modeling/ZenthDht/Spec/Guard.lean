import ZenthDht.Model.Dispatch

/-!
# What each operation is performed after

The handlers read, check and then write.  `Guard` says once, for every operation that
matters, which request may perform it, with which arguments, and what that request has
read and verified by then.  All statements about the server are derived from it: the
modules `ZenthDht.Spec.Obeys` and `ZenthDht.Spec.Run` show that every job obeys it and
carry it to whole runs.

Everything is said about the *past* of the request, the list of the operations it has
performed with their results.
-/

namespace ZenthDht

open Conc

/-- The operations a job has performed so far, with their results. -/
abbrev Past : Type := List (Event Res)

/-- The operation `o` has been performed and gave `r`. -/
def Did (past : Past) (o : Op) (r : Res o) : Prop := (⟨o, r⟩ : Event Res) ∈ past

theorem did_append {past past' : Past} {o : Op} {r : Res o} :
    Did (past ++ past') o r ↔ Did past o r ∨ Did past' o r := List.mem_append

/-- What a job has done stays done. -/
theorem Did.mono {past past' : Past} {o : Op} {r : Res o} (h : Did past o r)
    (hsub : ∀ e ∈ past, e ∈ past') : Did past' o r := hsub _ h

/-- The clock has been read and `ts` was fresh at that reading. -/
def ReadFresh (past : Past) (ts : UInt64) : Prop := ∃ t, Did past .clock t ∧ fresh t ts

/-- `key` is the identity key of a row that was read for `u`. -/
def IdentityKey (past : Past) (u key : Bytes) : Prop :=
  ∃ row, Did past (.sql (.selectUser u)) (.ok row) ∧ key = row.identityKeyDilithium

/-- `key` is the recovery key, not an empty one, of a row that was read for `u`. -/
def RecoveryKey (past : Past) (u key : Bytes) : Prop :=
  ∃ row, Did past (.sql (.selectUser u)) (.ok row) ∧ row.recoveryDilithiumPubkey = some key ∧
    key ≠ []

/-- What a LOGIN proof has read when it comes to the verification: the user's row, the
challenge it names, and a time at which the challenge had not expired. -/
structure ProofRead (past : Past) (req : LoginRequest) (row : User) (proof : AuthProof)
    (challenge : AuthChallenge) (now : Nat) : Prop where
  length : req.userHashId.length = 32
  isProof : req.requestChallenge = false ∧ req.proof = some proof
  userRow : Did past (.sql (.selectUser req.userHashId)) (.ok row)
  challengeRow : Did past (.sql (.selectChallenge proof.challengeId row.userHashId)) (.ok challenge)
  clock : Did past .clock now
  unexpired : (now : Int) ≤ challenge.expiresAt

/-- `call.Submits codec past key message signature`: after `past`, the request has passed its
field checks and asks whether `signature` is a signature of `message` under `key`. -/
def Call.Submits (codec : Codec) (past : Past) (key message signature : Bytes) : Call → Prop
  | .login req => ∃ row proof challenge now, ProofRead past req row proof challenge now ∧
      key = row.identityKeyDilithium ∧
      message = proof.messageToVerify challenge.nonce row.userHashId ∧ signature = proof.proof
  | .delete req => req.userHashId.length = 32 ∧ ReadFresh past req.timestamp ∧
      IdentityKey past req.userHashId key ∧ message = req.signedData ∧
      signature = req.dilithiumSignature
  | .contact req => req.requesterHashId.length = 32 ∧ req.targetHashId.length = 32 ∧
      req.preKeyBundle ≠ [] ∧ IdentityKey past req.requesterHashId key ∧
      message = req.messageToVerify ∧ signature = req.dilithiumSignature
  | .lookupUser req => req.requesterHash.length = 32 ∧ req.targetHash.length = 32 ∧
      IdentityKey past req.requesterHash key ∧
      message = lookupMessage req.requesterHash req.targetHash req.timestamp ∧
      signature = req.dilithiumSignature
  | .fetchFriendRequests req | .fetchFriendResponses req | .fetchMyAccepted req =>
      req.userHash.length = 32 ∧ IdentityKey past req.userHash key ∧
      message = req.signedData ∧ signature = req.dilithiumSignature
  | .respondFriendRequest req => req.responderHashId.length = 32 ∧
      req.requesterHashId.length = 32 ∧ (req.accepted = true → req.preKeyBundle ≠ []) ∧
      IdentityKey past req.responderHashId key ∧ message = req.messageToVerify ∧
      signature = req.dilithiumSignature
  | .sendMessage env => IdentityKey past env.senderHashId key ∧ message = env.signedData codec ∧
      signature = env.dilithiumSignature
  | .fetchMessages req => IdentityKey past req.userHash key ∧ message = req.signedData ∧
      signature = req.dilithiumSignature
  | .ackMessage req => req.messageId ≠ [] ∧ IdentityKey past req.recipientHashId key ∧
      message = req.signedData ∧ signature = req.dilithiumSignature
  | .uploadPrekeys req => req.usernameHash.length = 32 ∧ ReadFresh past req.timestamp ∧
      IdentityKey past req.usernameHash key ∧
      message = prekeyMessage req.usernameHash req.timestamp ∧ signature = req.authSignature
  | .replenishPrekeys req => req.usernameHash.length = 32 ∧
      IdentityKey past req.usernameHash key ∧
      message = prekeyMessage req.usernameHash req.timestamp ∧ signature = req.authSignature
  | .checkPrekeyCount req => req.usernameHash.length = 32 ∧
      IdentityKey past req.usernameHash key ∧
      message = prekeyMessage req.usernameHash req.timestamp ∧ signature = req.authSignature
  | .fetchPrekeyBundle req => req.requesterHash.length = 32 ∧ req.targetHash.length = 32 ∧
      IdentityKey past req.requesterHash key ∧
      message = lookupMessage req.requesterHash req.targetHash req.timestamp ∧
      signature = req.authSignature
  | .publishRecoveryKey req => req.usernameHash.length = 32 ∧ req.recoveryDilithiumPubkey ≠ [] ∧
      ReadFresh past req.timestamp ∧ IdentityKey past req.usernameHash key ∧
      message = req.signedData ∧ signature = req.authSignature
  | .recoveryClaim req => req.usernameHash.length = 32 ∧ req.newIdentityDilithiumPubkey ≠ [] ∧
      ReadFresh past req.timestamp ∧ RecoveryKey past req.usernameHash key ∧
      message = req.signedData ∧ signature = req.recoverySignature
  | .relayPush req => req.forDeviceDilithiumPubkey ≠ [] ∧ ReadFresh past req.timestamp ∧
      key = req.senderDilithiumPubkey ∧ message = req.signedData ∧
      signature = req.senderSignature
  | .relayFetch req => ReadFresh past req.timestamp ∧ key = req.forDeviceDilithiumPubkey ∧
      message = req.signedData ∧ signature = req.signature
  | .relayAck req => ReadFresh past req.timestamp ∧ key = req.forDeviceDilithiumPubkey ∧
      message = req.signedData ∧ signature = req.signature
  | .syncPushBlob req => req.forDeviceDilithiumPubkey ≠ [] ∧ req.ciphertext ≠ [] ∧
      ReadFresh past req.timestamp ∧ key = req.senderDilithiumPubkey ∧
      message = req.signedData ∧ signature = req.authSignature
  | .syncFetchBlob req | .syncDeleteBlob req => req.forDeviceDilithiumPubkey ≠ [] ∧
      ReadFresh past req.timestamp ∧ key = req.verifyKey ∧ message = req.signedData ∧
      signature = req.signature
  | .register _ | .getUpdateManifest _ | .getUpdateChunk _ | .refused _ => False

/-- The signature of the request has been verified. -/
def Call.Vouched (codec : Codec) (past : Past) (call : Call) : Prop :=
  ∃ key message signature, call.Submits codec past key message signature ∧
    Did past (.verify key message signature) true

/-- A LOGIN proof has been verified: the facts of `ProofRead`, the verification, and the delete
of the challenge, whatever came of it. -/
def ProofVouched (past : Past) (req : LoginRequest) (row : User) (proof : AuthProof)
    (challenge : AuthChallenge) (now : Nat) : Prop :=
  ProofRead past req row proof challenge now ∧
    Did past (.verify row.identityKeyDilithium
      (proof.messageToVerify challenge.nonce row.userHashId) proof.proof) true ∧
    ∃ r, Did past (.sql (.deleteChallenge proof.challengeId)) r

/-- What precedes a SQL statement.  Statements that only read are free, except for the
selections of a challenge and of a one-time pre-key, which are followed by its use. -/
def Stmt.Guard (codec : Codec) (job : Job) (past : Past) : Stmt → Prop
  | .insertUser n => past = [] ∧ ∃ req, job = .request (.register req) ∧ n = req.newUser ∧
      req.usernameHash.length = 32
  | .updateRecoveryKey u k => ∃ req, job = .request (.publishRecoveryKey req) ∧
      u = req.usernameHash ∧ k = req.recoveryDilithiumPubkey ∧
      (Call.publishRecoveryKey req).Vouched codec past
  | .updateIdentity u k s b => ∃ req, job = .request (.recoveryClaim req) ∧
      u = req.usernameHash ∧ k = req.newIdentityDilithiumPubkey ∧ s = req.newIdentitySignature ∧
      b = req.newPreKeyBundle ∧ (Call.recoveryClaim req).Vouched codec past
  | .deleteUser u | .deleteSessionsOf u | .deleteMessagesOf u | .deleteFriendRequestsOf u =>
      ∃ req, job = .request (.delete req) ∧ u = req.userHashId ∧
        (Call.delete req).Vouched codec past
  | .deleteFriendResponses ids => ∃ req, job = .request (.delete req) ∧
      Did past (.sql (.selectFriendRequestIds req.userHashId)) (.ok ids) ∧
      (Call.delete req).Vouched codec past
  | .insertChallenge n => ∃ req row now, job = .request (.login req) ∧
      req.requestChallenge = true ∧ req.userHashId.length = 32 ∧ n.userHashId = req.userHashId ∧
      n.challengeId.length = 32 ∧ n.nonce.length = 32 ∧
      Did past (.sql (.selectUser req.userHashId)) (.ok row) ∧ Did past .clock now ∧
      n.expiresAt = now + seconds challengeExpirySeconds
  | .selectChallenge i _ => ∃ req proof, job = .request (.login req) ∧ req.proof = some proof ∧
      i = proof.challengeId
  | .deleteChallenge i => ∃ req row proof challenge, job = .request (.login req) ∧
      req.proof = some proof ∧ i = proof.challengeId ∧
      Did past (.sql (.selectUser req.userHashId)) (.ok row) ∧
      Did past (.sql (.selectChallenge i row.userHashId)) (.ok challenge)
  | .deleteChallengesOf u =>
      (∃ req, job = .request (.login req) ∧ req.requestChallenge = true ∧ u = req.userHashId) ∨
      (∃ req, job = .request (.delete req) ∧ u = req.userHashId ∧
        (Call.delete req).Vouched codec past)
  | .insertSession n =>
      (∃ req row proof challenge now, job = .request (.login req) ∧
        ProofVouched past req row proof challenge now ∧ n.userHashId = row.userHashId ∧
        n.sessionExpiry = now + hours sessionExpiryHours) ∨
      (∃ req now, job = .request (.recoveryClaim req) ∧
        (Call.recoveryClaim req).Vouched codec past ∧ n.userHashId = req.usernameHash ∧
        Did past .clock now ∧ n.sessionExpiry = now + days 30)
  | .insertFriendRequest n => ∃ req, job = .request (.contact req) ∧ n = req.newRequest ∧
      (Call.contact req).Vouched codec past
  | .updateFriendRequest requester target bundle signature message timestamp => ∃ req,
      job = .request (.contact req) ∧ requester = req.requesterHashId ∧
      target = req.targetHashId ∧ bundle = req.preKeyBundle ∧
      signature = req.dilithiumSignature ∧ message = nonEmpty req.encryptedMessage ∧
      timestamp = req.timestamp.toInt64 ∧ (Call.contact req).Vouched codec past
  | .insertFriendResponse n => ∃ req fr, job = .request (.respondFriendRequest req) ∧
      Did past (.sql (.selectFriendRequest req.requesterHashId req.responderHashId)) (.ok fr) ∧
      n = req.newResponse fr.id ∧ (Call.respondFriendRequest req).Vouched codec past
  | .updateFriendResponses i accepted bundle signature => ∃ req fr,
      job = .request (.respondFriendRequest req) ∧
      Did past (.sql (.selectFriendRequest req.requesterHashId req.responderHashId)) (.ok fr) ∧
      i = fr.id ∧ accepted = req.accepted ∧ bundle = nonEmpty req.preKeyBundle ∧
      signature = req.dilithiumSignature ∧ (Call.respondFriendRequest req).Vouched codec past
  | .insertPrekeys ps =>
      (∃ req, job = .request (.uploadPrekeys req) ∧
        ps = newPrekeys req.usernameHash req.oneTimePrekeys ∧
        (Call.uploadPrekeys req).Vouched codec past) ∨
      (∃ req, job = .request (.replenishPrekeys req) ∧
        ps = newPrekeys req.usernameHash req.newPrekeys ∧
        (Call.replenishPrekeys req).Vouched codec past)
  | .selectUnusedPrekey u => (∀ u r, ¬ Did past (.sql (.selectUnusedPrekey u)) r) ∧
      ∃ req, job = .request (.fetchPrekeyBundle req) ∧ u = req.targetHash ∧
        (Call.fetchPrekeyBundle req).Vouched codec past
  | .markPrekeyUsed i => ∃ req prekeyId publicKey, job = .request (.fetchPrekeyBundle req) ∧
      Did past (.sql (.selectUnusedPrekey req.targetHash)) (.ok (i, prekeyId, publicKey)) ∧
      (Call.fetchPrekeyBundle req).Vouched codec past
  | .insertMessage n => ∃ env now row, job = .request (.sendMessage env) ∧
      n.messageId = env.messageId ∧ n.senderHashId = env.senderHashId ∧
      n.recipientHashId = env.recipientHashId ∧ n.content = env.contentBytes codec ∧
      n.dilithiumSignature = env.dilithiumSignature ∧ n.timestamp = env.timestamp.toInt64 ∧
      Did past .clock now ∧ n.serverTimestamp = toMillis now ∧
      Did past (.sql (.selectUser env.recipientHashId)) (.ok row) ∧
      (Call.sendMessage env).Vouched codec past
  | .deleteMessage i r => ∃ req, job = .request (.ackMessage req) ∧ i = req.messageId ∧
      r = req.recipientHashId ∧ (Call.ackMessage req).Vouched codec past
  | .purgeMessages n | .purgeRelay n | .purgeBlobs n =>
      ∃ (tick now : Nat), job = .cleanup tick ∧ tick % 12 = 0 ∧ Did past .clock now ∧ n = now
  | .insertRelay n => ∃ req now, job = .request (.relayPush req) ∧ Did past .clock now ∧
      n = ⟨req.forDeviceDilithiumPubkey, req.ciphertext, req.nonce,
        expiryAfter now req.ttlSecs relayMaxTtl⟩ ∧
      (Call.relayPush req).Vouched codec past
  | .deleteRelayUpTo d i => ∃ req, job = .request (.relayAck req) ∧
      d = req.forDeviceDilithiumPubkey ∧ i = req.upToId ∧ (Call.relayAck req).Vouched codec past
  | .upsertBlob b => ∃ req now, job = .request (.syncPushBlob req) ∧ Did past .clock now ∧
      b = ⟨req.forDeviceDilithiumPubkey, req.ciphertext, req.signature,
        expiryAfter now req.ttlSecs blobMaxTtl⟩ ∧
      (Call.syncPushBlob req).Vouched codec past
  | .deleteBlob d => ∃ req, job = .request (.syncDeleteBlob req) ∧
      d = req.forDeviceDilithiumPubkey ∧ (Call.syncDeleteBlob req).Vouched codec past
  | .selectConfig _ | .selectUser _ | .selectSession _ _
  | .countFriendRequests _ _ | .selectFriendRequest _ _ | .loadFriendRequests _ _
  | .selectFriendRequestIds _ | .countFriendResponses _ | .loadFriendResponses _ _
  | .loadAccepted _ _ | .countUnusedPrekeys _ | .countMessages _ _ _ | .loadMessages _ _ _ _
  | .loadRelay _ _ _ _ | .selectBlob _ _ => True

/-- What the WebSocket handler has done when it registers a connection: exactly the steps of
`authenticate`, with success. -/
def Authenticated (past : Past) (u : Bytes) : Prop :=
  ∃ token session now, past = [⟨.receive, some (.binary (u ++ token))⟩,
      ⟨.sql (.selectSession token u), .ok session⟩, ⟨.clock, now⟩] ∧
    u.length = userHashSize ∧ token ≠ [] ∧ (now : Int) < session.sessionExpiry

/-- What precedes an operation. -/
def Guard (codec : Codec) (job : Job) (past : Past) : Op → Prop
  | .sql s => s.Guard codec job past
  | .verify key message signature => ∃ call, job = .request call ∧
      call.Submits codec past key message signature
  | .register u => (∃ rounds, job = .websocket rounds) ∧ Authenticated past u
  | .unregister u => (∃ rounds rx, job = .websocket rounds ∧ Did past (.register u) rx) ∨
      (∃ req, job = .request (.delete req) ∧ u = req.userHashId ∧
        (Call.delete req).Vouched codec past)
  | .select rx => (∃ rounds, job = .websocket rounds) ∧
      ∃ u rx₀, Did past (.register u) rx₀ ∧ rx.channel = rx₀.channel
  | .dropReceiver rx => (∃ rounds, job = .websocket rounds) ∧
      (∃ u, Did past (.register u) rx ∧ Did past (.unregister u) ()) ∧
      ∀ rx', ¬ Did past (.dropReceiver rx') ()
  | _ => True

/-- What a REGISTER has done when it reports success, and what the requests that hand stored
data out have read when they answer. -/
def Call.Answer (codec : Codec) (past : Past) (reply : Reply) : Call → Prop
  | .register req => reply.success = true →
      ∃ n : Nat, Did past (.sql (.insertUser req.newUser)) (.ok n)
  | .lookupUser req => ∀ r bundle, reply.payload = .lookupUser r → r.preKeyBundle = some bundle →
      ∃ row, Did past (.sql (.selectUser req.targetHash)) (.ok row) ∧
        codec.decodePreKeyBundle row.preKeyBundle = some bundle
  | .fetchPrekeyBundle req => ∀ r bundle, reply.payload = .fetchPrekeyBundle r →
      r.bundle = some bundle →
      ∃ row base, Did past (.sql (.selectUser req.targetHash)) (.ok row) ∧
        codec.decodePreKeyBundle row.preKeyBundle = some base ∧
        (bundle = base ∧
          Did past (.sql (.selectUnusedPrekey req.targetHash)) (.error .notFound) ∨
        ∃ (id : Nat) (prekeyId : Int32) (publicKey : Bytes) (n : Nat),
          Did past (.sql (.selectUnusedPrekey req.targetHash)) (.ok (id, prekeyId, publicKey)) ∧
          Did past (.sql (.markPrekeyUsed id)) (.ok n) ∧
          bundle = { base with preKeyId := prekeyId.toUInt32, preKeyPublic := publicKey })
  | .fetchFriendRequests req => ∀ r, reply.payload = .fetchFriendRequests r →
      ∃ since rows, Did past (.sql (.loadFriendRequests req.userHash since)) (.ok rows) ∧
        r.requests = rows.map FriendRequestModel.dto
  | .fetchFriendResponses req => ∀ r, reply.payload = .fetchFriendResponses r →
      ∃ since rows, Did past (.sql (.loadFriendResponses req.userHash since)) (.ok rows) ∧
        r.responses = rows.map FriendResponseModel.dto
  | .fetchMyAccepted req => ∀ r, reply.payload = .fetchFriendResponses r →
      ∃ since rows, Did past (.sql (.loadAccepted req.userHash since)) (.ok rows) ∧
        r.responses = rows.map (acceptedDto req.userHash)
  | _ => True

end ZenthDht
