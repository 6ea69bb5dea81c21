import ZenthDht.Model.Server

/-!
# Devices: relay mailboxes and sync blobs

`relay.rs` and `sync_blob.rs`.  Devices have no account: requests are verified under a
key of the request itself.
-/

namespace ZenthDht

open Conc

/-- `ttl.min(max).max(60)` seconds after now. -/
def expiryAfter (now : NaiveDateTime) (ttlSecs : UInt64) (maxTtl : Nat) : NaiveDateTime :=
  now + seconds (max (min ttlSecs.toNat maxTtl) 60)

/-! ## Relay -/

def relayMaxTtl : Nat := 86400

/-- The bytes signed: `for_device || timestamp`. -/
def RelayPushRequest.signedData (req : RelayPushRequest) : Bytes :=
  req.forDeviceDilithiumPubkey ++ le64 req.timestamp

def relayPushError (message : String) : Except String RelayPushResponse :=
  .ok { success := false, errorMessage := message }

def pushRelay (req : RelayPushRequest) : Handler (Except String RelayPushResponse) :=
  if req.forDeviceDilithiumPubkey = [] then pure (relayPushError "destinataire vide") else
  if req.ciphertext = [] || req.nonce.length ≠ 12 then
    pure (relayPushError "ciphertext ou nonce invalide") else
  if req.senderDilithiumPubkey = [] || req.senderSignature = [] then
    pure (relayPushError "sender_dilithium_pubkey et sender_signature requis") else do
  if !(← isTimestampFresh req.timestamp) then
    pure (relayPushError "Request timestamp expired") else
  if !(← Program.call (Op.limiter .relayPush req.senderDilithiumPubkey)) then
    pure (relayPushError "Rate limit dépassé - réessayez dans 1 minute") else
  if !(← verify req.senderDilithiumPubkey req.signedData req.senderSignature) then
    pure (relayPushError "Signature invalide")
  else
  let now ← utcNow
  match ← sql (.insertRelay {
      forDeviceDilithiumPubkey := req.forDeviceDilithiumPubkey, ciphertext := req.ciphertext,
      nonce := req.nonce, expiresAt := expiryAfter now req.ttlSecs relayMaxTtl }) with
  | .ok id => pure (.ok { success := true, relayId := id })
  | .error e => pure (relayPushError s!"DB error: {e.toString}")

/-- The bytes signed: `for_device || since_id || timestamp`. -/
def RelayFetchRequest.signedData (req : RelayFetchRequest) : Bytes :=
  req.forDeviceDilithiumPubkey ++ leI64 req.sinceId ++ le64 req.timestamp

/-- The page size: 50 for 0, and at most 200. -/
def RelayFetchRequest.effectiveLimit (req : RelayFetchRequest) : Nat :=
  if req.limit = 0 then 50 else min req.limit.toNat 200

def relayFetchError (message : String) : Except String RelayFetchResponse :=
  .ok { success := false, errorMessage := message }

def fetchRelay (req : RelayFetchRequest) : Handler (Except String RelayFetchResponse) :=
  if req.forDeviceDilithiumPubkey = [] then pure (relayFetchError "destinataire vide") else
  if req.signature = [] then pure (relayFetchError "signature requise") else do
  if !(← isTimestampFresh req.timestamp) then
    pure (relayFetchError "Request timestamp expired") else
  if !(← verify req.forDeviceDilithiumPubkey req.signedData req.signature) then
    pure (relayFetchError "Signature invalide")
  else
  let now ← utcNow
  match ← sql (.loadRelay req.forDeviceDilithiumPubkey req.sinceId now req.effectiveLimit) with
  | .error e => pure (.error s!"DB error: {e.toString}")
  | .ok rows => pure (.ok {
      success := true
      entries := rows.map fun (id, ciphertext, nonce) ↦ ⟨id, ciphertext, nonce⟩ })

/-- The bytes signed: `for_device || up_to_id || timestamp`. -/
def RelayAckRequest.signedData (req : RelayAckRequest) : Bytes :=
  req.forDeviceDilithiumPubkey ++ leI64 req.upToId ++ le64 req.timestamp

def relayAckError (message : String) : Except String RelayAckResponse :=
  .ok { success := false, errorMessage := message }

def ackRelay (req : RelayAckRequest) : Handler (Except String RelayAckResponse) :=
  if req.forDeviceDilithiumPubkey = [] then pure (relayAckError "destinataire vide") else
  if req.signature = [] then pure (relayAckError "signature requise") else do
  if !(← isTimestampFresh req.timestamp) then
    pure (relayAckError "Request timestamp expired") else
  if !(← verify req.forDeviceDilithiumPubkey req.signedData req.signature) then
    pure (relayAckError "Signature invalide")
  else
  match ← sql (.deleteRelayUpTo req.forDeviceDilithiumPubkey req.upToId) with
  | .ok _ => pure (.ok { success := true })
  | .error e => pure (relayAckError s!"DB error: {e.toString}")

/-! ## Sync blobs -/

def blobMaxTtl : Nat := 3600

/-- The bytes signed: `for_device || ciphertext || timestamp`. -/
def SyncPushBlobRequest.signedData (req : SyncPushBlobRequest) : Bytes :=
  req.forDeviceDilithiumPubkey ++ req.ciphertext ++ le64 req.timestamp

def pushBlobError (message : String) : Except String SyncPushBlobResponse :=
  .ok { success := false, errorMessage := message }

def pushBlob (req : SyncPushBlobRequest) : Handler (Except String SyncPushBlobResponse) :=
  if req.forDeviceDilithiumPubkey = [] then
    pure (pushBlobError "for_device_dilithium_pubkey vide") else
  if req.ciphertext = [] then pure (pushBlobError "ciphertext vide") else
  if req.senderDilithiumPubkey = [] || req.authSignature = [] then
    pure (pushBlobError "sender_dilithium_pubkey et auth_signature requis") else do
  if !(← isTimestampFresh req.timestamp) then
    pure (pushBlobError "Request timestamp expired") else
  if !(← Program.call (Op.limiter .blobPush req.senderDilithiumPubkey)) then
    pure (pushBlobError "Rate limit dépassé - réessayez dans 1 minute") else
  if !(← verify req.senderDilithiumPubkey req.signedData req.authSignature) then
    pure (pushBlobError "Signature invalide")
  else
  let now ← utcNow
  match ← sql (.upsertBlob {
      forDeviceDilithiumPubkey := req.forDeviceDilithiumPubkey, ciphertext := req.ciphertext,
      signature := req.signature, expiresAt := expiryAfter now req.ttlSecs blobMaxTtl }) with
  | .ok _ => pure (.ok { success := true })
  | .error e => pure (pushBlobError s!"DB error: {e.toString}")

/-- The key a fetch or delete is verified under: the requester's own if the request has one. -/
def SyncBlobRequest.verifyKey (req : SyncBlobRequest) : Bytes :=
  if req.requesterDilithiumPubkey = [] then req.forDeviceDilithiumPubkey
  else req.requesterDilithiumPubkey

/-- The bytes signed: `for_device || timestamp`. -/
def SyncBlobRequest.signedData (req : SyncBlobRequest) : Bytes :=
  req.forDeviceDilithiumPubkey ++ le64 req.timestamp

def fetchBlobError (message : String) : Except String SyncFetchBlobResponse :=
  .ok { success := false, errorMessage := message }

def fetchBlob (req : SyncBlobRequest) : Handler (Except String SyncFetchBlobResponse) :=
  if req.forDeviceDilithiumPubkey = [] then
    pure (fetchBlobError "for_device_dilithium_pubkey vide") else
  if req.signature = [] then pure (fetchBlobError "signature requise") else do
  if !(← isTimestampFresh req.timestamp) then
    pure (fetchBlobError "Request timestamp expired") else
  if !(← verify req.verifyKey req.signedData req.signature) then
    pure (fetchBlobError "Signature invalide")
  else
  let now ← utcNow
  match ← sql (.selectBlob req.forDeviceDilithiumPubkey now) with
  | .ok (ciphertext, signature) => pure (.ok { success := true, ciphertext, signature })
  | .error .notFound => pure (fetchBlobError "Blob introuvable ou expiré")
  | .error e => pure (fetchBlobError s!"DB error: {e.toString}")

def deleteBlobError (message : String) : Except String SyncDeleteBlobResponse :=
  .ok { success := false, errorMessage := message }

def deleteBlob (req : SyncBlobRequest) : Handler (Except String SyncDeleteBlobResponse) :=
  if req.forDeviceDilithiumPubkey = [] then
    pure (deleteBlobError "for_device_dilithium_pubkey vide") else
  if req.signature = [] then pure (deleteBlobError "signature requise") else do
  if !(← isTimestampFresh req.timestamp) then
    pure (deleteBlobError "Request timestamp expired") else
  if !(← verify req.verifyKey req.signedData req.signature) then
    pure (deleteBlobError "Signature invalide")
  else
  match ← sql (.deleteBlob req.forDeviceDilithiumPubkey) with
  | .ok _ => pure (.ok { success := true })
  | .error e => pure (deleteBlobError s!"DB error: {e.toString}")

end ZenthDht
