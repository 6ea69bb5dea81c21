import ZenthDht.Model.Server

/-!
# The WebSocket handler

`websocket/handler.rs`.  A frame that is not one of the handler's own methods is answered
by the dispatcher, which knows nothing of the connection it came from; such a request is a
job of its own in the model.

The connection loop has no bound of its own, so the model runs it for an arbitrary number
of rounds and then lets it wait for ever.
-/

namespace ZenthDht

open Conc

/-- `USER_HASH_SIZE`. -/
def userHashSize : Nat := 32

def verifySessionToken (sessionToken userHash : Bytes) : Handler Bool := do
  match ← sql (.selectSession sessionToken userHash) with
  | .ok session =>
    let now ← utcNow
    pure (decide (now < session.sessionExpiry))
  | .error _ => pure false

/-- The first frame is the user hash followed by a session token. -/
def authenticate : Handler (Option Bytes) := do
  match ← Program.call Op.receive with
  | some (.binary data) =>
    if data.length ≤ userHashSize then pure none else
    let userHash := data.take userHashSize
    let sessionToken := data.drop userHashSize
    if ← verifySessionToken sessionToken userHash then pure (some userHash) else pure none
  | _ => pure none

def buildNotification (payload : NotificationPayload) : Handler WsNotification := do
  let timestamp ← currentTimestamp
  pure ⟨timestamp, payload⟩

/-- The sender announces a transfer. -/
def wsFileAvailable (transferId : Option Bytes) (userHash : Bytes) : Handler WsOutput := do
  match transferId.bind parseTransferId with
  | some tid => Program.call (Op.relayRegister tid userHash); pure .ok
  | none => pure .ok

/-- The recipient asks for a chunk, which is forwarded to the sender. -/
def wsFileChunkRequest (req : Option WsFileChunkRequest) (requesterHash : Bytes) :
    Handler WsOutput := do
  match req with
  | none => pure (.error "payload WsFileChunkRequest invalide")
  | some req =>
  match parseTransferId req.transferId with
  | none => pure (.error "transfer_id invalide (doit être 16 bytes)")
  | some tid =>
  match ← Program.call (Op.relayGetSender tid) with
  | none => pure (.error "transfert inconnu ou expéditeur hors ligne")
  | some senderHash =>
    let n ← buildNotification (.fileChunkRequest { req with requesterHash })
    let _ ← Program.call (Op.sendToUser senderHash n)
    pure .ok

/-- The sender sends a chunk, which is forwarded to the recipient it names. -/
def wsFileChunk (chunk : Option WsFileChunkResponse) : Handler WsOutput := do
  match chunk with
  | none => pure (.error "payload WsFileChunkResponse invalide")
  | some chunk =>
  if chunk.recipientHash = [] then pure (.error "recipient_hash manquant") else
  let n ← buildNotification (.fileChunk chunk)
  let _ ← Program.call (Op.sendToUser chunk.recipientHash n)
  pure .ok

def wsCheckOnline (targetHash : Option Bytes) : Handler WsOutput := do
  match targetHash with
  | none => pure (.error "payload WsCheckOnlineRequest invalide")
  | some target => pure (.online (← Program.call (Op.isConnected target)))

def processWsRequest (codec : Codec) (data userHash : Bytes) : Handler WsOutput :=
  match codec.decodeWsRequest data with
  | .malformed e => pure (.error s!"Décodage DhtRequest échoué: {e}")
  | .fileAvailable tid => wsFileAvailable tid userHash
  | .fileChunkRequest req => wsFileChunkRequest req userHash
  | .fileChunk chunk => wsFileChunk chunk
  | .checkOnline target => wsCheckOnline target
  | .dht => pure .dht

/-- The connection loop, for at most `rounds` rounds of its `select!`. -/
def wsLoop (codec : Codec) (userHash : Bytes) : Nat → Receiver → Handler Unit
  | 0, _ => do
    let impossible ← (Program.call Op.panic : Handler Empty)
    nomatch impossible
  | rounds + 1, rx => do
    match ← Program.call (Op.select rx) with
    | .socket (.binary data) =>
      let response ← processWsRequest codec data userHash
      if ← Program.call (Op.socketSend response) then wsLoop codec userHash rounds rx else pure ()
    | .socket .ping =>
      if ← Program.call (Op.socketSend .pong) then wsLoop codec userHash rounds rx else pure ()
    | .socket .close | .socket .error | .socket .eof => pure ()
    | .socket .other => wsLoop codec userHash rounds rx
    | .broadcast (.ok msg) next =>
      if ← Program.call (Op.socketSend (.notification msg.payload)) then
        wsLoop codec userHash rounds { rx with next }
      else pure ()
    | .broadcast (.lagged _) next => wsLoop codec userHash rounds { rx with next }
    | .broadcast .closed _ => pure ()

def handleWebsocket (codec : Codec) (rounds : Nat) : Handler Unit := do
  match ← authenticate with
  | none => pure ()
  | some userHash =>
    let rx ← Program.call (Op.register userHash)
    wsLoop codec userHash rounds rx
    Program.call (Op.unregister userHash)
    Program.call (Op.relayUnregisterBySender userHash)
    Program.call (Op.dropReceiver rx)

end ZenthDht
