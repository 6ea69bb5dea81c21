import ZenthDht.Model.Server

/-!
# Messages: SEND_MESSAGE, FETCH_MESSAGES and ACK_MESSAGE

`send_message.rs`, `fetch_message.rs` and `ack_message.rs`.
-/

namespace ZenthDht

open Conc

/-! ## SEND_MESSAGE -/

/-- The content as it is signed and stored: its encoding, without its type. -/
def ZenthSignalEnvelope.contentBytes (codec : Codec) (env : ZenthSignalEnvelope) : Bytes :=
  match env.content with
  | some content => codec.encodeContent content
  | none => []

/-- The bytes signed: `sender || recipient || message_id || timestamp || content`. -/
def ZenthSignalEnvelope.signedData (codec : Codec) (env : ZenthSignalEnvelope) : Bytes :=
  env.senderHashId ++ env.recipientHashId ++ env.messageId ++ le64 env.timestamp ++
    env.contentBytes codec

def midThreshold : Nat := 1024 * 1024

def largeThreshold : Nat := 10 * 1024 * 1024

def maxThreshold : Nat := 25 * 1024 * 1024

/-- `now + Duration::hours(h)`, or `none` where `chrono` panics: a duration beyond `i64`
milliseconds, or a date out of range. -/
def addHours (now : NaiveDateTime) (h : Int64) : Option NaiveDateTime :=
  if (h.toInt * 3600000).natAbs < 2 ^ 63 ∧ now + hours h.toInt ≤ naiveDateTimeMax ∧
      naiveDateTimeMin ≤ now + hours h.toInt then
    some (now + hours h.toInt)
  else none

/-- The end of the year 9999, which stands for no expiry. -/
def neverExpires : NaiveDateTime := seconds 253402300799

/-- A message refused with its error. -/
def sendError (message : String) : Except String SendMessageResponse :=
  .ok { success := false, errorMessage := message }

/-- One of the two limiters of the sender, asked only about messages above its threshold. -/
def withinLimit (l : LimiterId) (threshold : Nat) (sender : Bytes) (size : Nat) : Handler Bool :=
  if threshold < size then Program.call (Op.limiter l sender) else pure true

/-- The size limits: too large, or too many large messages of one sender. -/
def checkSize (sender : Bytes) (size : Nat) : Handler (Option String) := do
  if maxThreshold < size then
    pure (some "Fichier trop volumineux : maximum 25 Mo par message (utilisez le transfert P2P pour les fichiers plus grands)")
  else
  if !(← withinLimit .largeMsg largeThreshold sender size) then
    pure (some "Limite dépassée : 1 fichier > 10 Mo autorisé par 30 secondes") else
  if !(← withinLimit .midMsg midThreshold sender size) then
    pure (some "Limite dépassée : 1 fichier > 1 Mo autorisé par 10 secondes") else
  pure none

/-- The expiry the sender asks for by `sequence_number`, in hours. -/
def expiryOf (sequenceNumber : UInt64) : Handler NaiveDateTime := do
  if sequenceNumber = 0 then pure neverExpires else
  match addHours (← utcNow) sequenceNumber.toInt64 with
  | some t => pure t
  | none => do
    let impossible ← (Program.call Op.panic : Handler Empty)
    nomatch impossible

/-- Notify the recipient from a task of its own. -/
def pushToRecipient (env : ZenthSignalEnvelope) : Handler Unit := do
  let timestamp ← currentTimestamp
  Program.call (Op.spawnSend env.recipientHashId
    ⟨timestamp, .messageReceived ⟨env.senderHashId, env.messageId, env.timestamp⟩⟩)

/-- The rest of SEND_MESSAGE once the server has stamped the message. -/
def storeMessage (codec : Codec) (env : ZenthSignalEnvelope) (serverTimestamp : Int64) :
    Handler (Except String SendMessageResponse) := do
  match ← checkSize env.senderHashId (env.contentBytes codec).length with
  | some message => pure (sendError message)
  | none =>
  let expiresAt ← expiryOf env.sequenceNumber
  match ← sql (.insertMessage {
      messageId := env.messageId, senderHashId := env.senderHashId,
      recipientHashId := env.recipientHashId, content := env.contentBytes codec,
      dilithiumSignature := env.dilithiumSignature, timestamp := env.timestamp.toInt64,
      serverTimestamp, expiresAt }) with
  | .error e => pure (.error e.toString)
  | .ok _ =>
    pushToRecipient env
    pure (.ok {
      success := true
      messageId := env.messageId
      serverTimestamp := serverTimestamp.toUInt64 })

def sendMessage (codec : Codec) (env : ZenthSignalEnvelope) :
    Handler (Except String SendMessageResponse) := do
  match ← sql (.selectUser env.senderHashId) with
  | .error .notFound => pure (sendError "Sender not found")
  | .error _ => pure (sendError "Database error")
  | .ok sender =>
  if !(← verify sender.identityKeyDilithium (env.signedData codec) env.dilithiumSignature) then
    pure (sendError "Invalid signature")
  else
  match ← sql (.selectUser env.recipientHashId) with
  | .error .notFound => pure (sendError "Recipient not found")
  | .error _ => pure (sendError "Database error")
  | .ok _ =>
  let serverTimestamp ← currentMillis
  storeMessage codec env serverTimestamp

/-! ## FETCH_MESSAGES -/

/-- The bytes signed: `user_hash || since_timestamp || limit || timestamp`. -/
def FetchMessagesRequest.signedData (req : FetchMessagesRequest) : Bytes :=
  req.userHash ++ le64 req.sinceTimestamp ++ le32 req.limit ++ le64 req.timestamp

/-- The page size: 100 for 0, and at most 200. -/
def FetchMessagesRequest.effectiveLimit (req : FetchMessagesRequest) : Nat :=
  if req.limit = 0 then 100 else min req.limit.toNat 200

/-- The content of a stored message: a pre-key message if it decodes as one that has a base
key or a message, else a regular message. -/
def decodeContent (codec : Codec) (content : Bytes) : Content :=
  match codec.decodePreKeyMessage content with
  | some msg =>
    if msg.baseKey ≠ [] ∨ msg.message.isSome then .prekeyMessage msg
    else .regularMessage ((codec.decodeSignalMessage content).getD default)
  | none => .regularMessage ((codec.decodeSignalMessage content).getD default)

/-- The envelope returned for a stored message. -/
def MessageModel.envelope (codec : Codec) (m : MessageModel) : ZenthSignalEnvelope where
  version := 1
  senderHashId := m.senderHashId
  recipientHashId := m.recipientHashId
  content := some (decodeContent codec m.content)
  dilithiumSignature := m.dilithiumSignature
  timestamp := m.timestamp.toUInt64
  messageId := m.messageId
  sequenceNumber := 0

def fetchMessages (codec : Codec) (req : FetchMessagesRequest) :
    Handler (Except String FetchMessagesResponse) := do
  match ← sql (.selectUser req.userHash) with
  | .error .notFound => pure (.ok {})
  | .error e => pure (.error e.toString)
  | .ok user =>
  if !(← verify user.identityKeyDilithium req.signedData req.dilithiumSignature) then
    pure (.ok {})
  else
  let now ← utcNow
  match ← sql (.countMessages req.userHash req.sinceTimestamp.toInt64 now) with
  | .error e => pure (.error e.toString)
  | .ok totalCount =>
  let since := if 0 < req.sinceTimestamp then some req.sinceTimestamp.toInt64 else none
  match ← sql (.loadMessages req.userHash since now req.effectiveLimit) with
  | .error e => pure (.error e.toString)
  | .ok dbMessages =>
  let serverTimestamp ← currentMillis
  pure (.ok {
    messages := dbMessages.map (MessageModel.envelope codec)
    timestamp := serverTimestamp.toUInt64
    remainingCount := UInt32.ofNat (totalCount - dbMessages.length) })

/-! ## ACK_MESSAGE -/

/-- The bytes signed: `message_id || recipient_hash_id || timestamp`. -/
def MessageAck.signedData (req : MessageAck) : Bytes :=
  req.messageId ++ req.recipientHashId ++ le64 req.timestamp

def ackMessage (req : MessageAck) : Handler (Except String Unit) :=
  if req.messageId = [] || req.recipientHashId = [] then
    pure (.error "message_id et recipient_hash_id requis") else
  if req.dilithiumSignature = [] then pure (.error "Signature Dilithium requise") else do
  match ← sql (.selectUser req.recipientHashId) with
  | .error .notFound => pure (.error "Destinataire introuvable")
  | .error e => pure (.error s!"DB error: {e.toString}")
  | .ok user =>
  if !(← verify user.identityKeyDilithium req.signedData req.dilithiumSignature) then
    pure (.error "Signature invalide")
  else
  match ← sql (.deleteMessage req.messageId req.recipientHashId) with
  | .error e => pure (.error s!"Suppression échouée: {e.toString}")
  | .ok _ => pure (.ok ())

end ZenthDht
