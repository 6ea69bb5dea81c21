import ZenthDht.Model.Wire

/-!
# The front of the server

`process_request` and `handle_post` of `decompose.rs`, and `websocket/handler.rs` as it reads and
writes frames: a body or a binary frame is decoded, dispatched by its method number, and answered
by a `DhtResponse`.  A request that comes on a WebSocket is carried out by the connection it came
on, which writes the answer before it reads anything else.

Answers stay structured up to the moment they are written; `HttpAnswer.body` and
`WireMessage.bytes` are what is written.
-/

namespace ZenthDht

open Conc

/-! ## Operations -/

/-- A frame as it arrives. -/
inductive WireFrame
  | binary (data : Bytes)
  | ping (data : Bytes)
  | close
  | error
  | eof
  | other
deriving DecidableEq

/-- What the handlers of a connection see of a frame. -/
def WireFrame.frame : WireFrame → Frame
  | .binary data => .binary data
  | .ping _ => .ping
  | .close => .close
  | .error => .error
  | .eof => .eof
  | .other => .other

/-- What is written to a socket. -/
inductive WireMessage
  | response (r : DhtResponse)
  | pong (data : Bytes)
  | notification (n : WsNotification)
deriving DecidableEq

inductive WireInput
  | socket (f : WireFrame)
  | broadcast (r : RecvResult) (next : Nat)
deriving DecidableEq

/-- The operations of the handlers, and those of a connection on its socket.  `stamp` is the
`current_timestamp()` of a response. -/
inductive FrontOp
  | core (o : Op)
  | stamp
  | receive
  | select (rx : Receiver)
  | send (m : WireMessage)
  | close
deriving DecidableEq

abbrev FrontRes : FrontOp → Type
  | .core o => Res o
  | .stamp => UInt64
  | .receive => Option WireFrame
  | .select _ => WireInput
  | .send _ => Bool
  | .close => Unit

abbrev Front : Type → Type := Program FrontRes

inductive FrontOracle
  | core (ω : Oracle)
  | frame (f : Option WireFrame)
  | flag (b : Bool)

/-- What an operation returns and does. -/
def frontPerform (verifyDetached : Bytes → Bytes → Bytes → Bool) :
    (o : FrontOp) → FrontOracle → World → Option (FrontRes o × World)
  | .core o, .core ω, w => perform verifyDetached o ω w
  | .core _, _, _ => none
  | .stamp, _, w => some (toSecs w.clock, w)
  | .receive, .frame f, w => some (f, w)
  | .receive, _, _ => none
  | .select _, .frame (some f), w => some (.socket f, w)
  | .select rx, _, w => (w.connections.recv rx).map fun (r, next) ↦ (.broadcast r next, w)
  | .send _, .flag b, w => some (b, w)
  | .send _, _, _ => none
  | .close, _, w => some ((), w)

/-- A handler as part of the front. -/
def lift {α : Type} : Handler α → Front α
  | .ret a => .ret a
  | .perform o k => .perform (.core o) fun r ↦ lift (k r)

/-! ## The dispatcher -/

@[match_pattern] abbrev methodUnknown : Int32 := 0
@[match_pattern] abbrev methodRegister : Int32 := 1
@[match_pattern] abbrev methodLogin : Int32 := 2
@[match_pattern] abbrev methodDelete : Int32 := 3
@[match_pattern] abbrev methodBlock : Int32 := 4
@[match_pattern] abbrev methodGroup : Int32 := 5
@[match_pattern] abbrev methodContact : Int32 := 6
@[match_pattern] abbrev methodReport : Int32 := 7
@[match_pattern] abbrev methodLookupUser : Int32 := 8
@[match_pattern] abbrev methodSendFriendRequest : Int32 := 9
@[match_pattern] abbrev methodFetchFriendRequests : Int32 := 10
@[match_pattern] abbrev methodRespondFriendRequest : Int32 := 11
@[match_pattern] abbrev methodSendMessage : Int32 := 12
@[match_pattern] abbrev methodFetchMessages : Int32 := 13
@[match_pattern] abbrev methodFetchFriendResponses : Int32 := 14
@[match_pattern] abbrev methodUploadPrekeys : Int32 := 15
@[match_pattern] abbrev methodFetchPrekeyBundle : Int32 := 16
@[match_pattern] abbrev methodCheckPrekeyCount : Int32 := 17
@[match_pattern] abbrev methodReplenishPrekeys : Int32 := 18
@[match_pattern] abbrev methodGetUpdateManifest : Int32 := 19
@[match_pattern] abbrev methodGetUpdateChunk : Int32 := 20
@[match_pattern] abbrev methodSyncPushBlob : Int32 := 21
@[match_pattern] abbrev methodSyncFetchBlob : Int32 := 22
@[match_pattern] abbrev methodSyncDeleteBlob : Int32 := 23
@[match_pattern] abbrev methodRelayPush : Int32 := 24
@[match_pattern] abbrev methodRelayFetch : Int32 := 25
@[match_pattern] abbrev methodRelayAck : Int32 := 26
@[match_pattern] abbrev methodFetchMyAccepted : Int32 := 27
@[match_pattern] abbrev methodAckMessage : Int32 := 28
@[match_pattern] abbrev methodPublishRecoveryKey : Int32 := 29
@[match_pattern] abbrev methodRecoveryClaim : Int32 := 30

/-- The `match` of `process_request`. -/
def dispatch (wire : Wire) (method : Int32) (payload : Bytes) : Call :=
  match method with
  | methodRegister => handleRegister wire payload
  | methodLogin => handleLogin wire payload
  | methodDelete => handleDelete wire payload
  | methodBlock => handleBlock payload
  | methodGroup => handleGroup payload
  | methodContact => handleContact wire payload
  | methodReport => handleReport payload
  | methodLookupUser => handleLookupUser wire payload
  | methodSendFriendRequest => handleContact wire payload
  | methodFetchFriendRequests => handleFetchFriendRequests wire payload
  | methodRespondFriendRequest => handleRespondFriendRequest wire payload
  | methodSendMessage => handleSendMessage wire payload
  | methodFetchMessages => handleFetchMessages wire payload
  | methodFetchFriendResponses => handleFetchFriendResponses wire payload
  | methodUploadPrekeys => handleUploadPrekeys wire payload
  | methodFetchPrekeyBundle => handleFetchPrekeyBundle wire payload
  | methodCheckPrekeyCount => handleCheckPrekeyCount wire payload
  | methodReplenishPrekeys => handleReplenishPrekeys wire payload
  | methodGetUpdateManifest => handleGetUpdateManifest wire payload
  | methodGetUpdateChunk => handleGetUpdateChunk wire payload
  | methodSyncPushBlob => handleSyncPushBlob wire payload
  | methodSyncFetchBlob => handleSyncFetchBlob wire payload
  | methodSyncDeleteBlob => handleSyncDeleteBlob wire payload
  | methodRelayPush => handleRelayPush wire payload
  | methodRelayFetch => handleRelayFetch wire payload
  | methodRelayAck => handleRelayAck wire payload
  | methodFetchMyAccepted => handleFetchMyAccepted wire payload
  | methodAckMessage => handleAckMessage wire payload
  | methodPublishRecoveryKey => handlePublishRecoveryKey wire payload
  | methodRecoveryClaim => handleRecoveryClaim wire payload
  | _ => .refused "Unknown method"

/-- The `DhtResponse` that wraps what a handler returns. -/
def Wire.response (wire : Wire) (req : DhtRequest) (reply : Reply) (timestamp : UInt64) :
    DhtResponse where
  success := reply.success
  method := req.method
  payload := wire.payload reply.payload
  errorMessage := reply.errorMessage
  timestamp := timestamp
  requestId := req.requestId

def processRequest (wire : Wire) (req : DhtRequest) : Front DhtResponse := do
  let reply ← lift (processCall wire.codec (dispatch wire req.method req.payload))
  let timestamp ← (Program.call FrontOp.stamp : Front UInt64)
  pure (wire.response req reply timestamp)

inductive StatusCode
  | ok
  | badRequest
deriving DecidableEq

structure HttpAnswer where
  status : StatusCode
  response : DhtResponse
deriving DecidableEq

/-- The body of the answer. -/
def HttpAnswer.body (wire : Wire) (a : HttpAnswer) : Bytes := wire.encodeResponse a.response

/-- An error that answers no request: no method and no request id. -/
def errorResponse (message : String) (timestamp : UInt64) : DhtResponse where
  success := false
  method := methodUnknown
  payload := []
  errorMessage := message
  timestamp := timestamp
  requestId := []

def handlePost (wire : Wire) (body : Bytes) : Front HttpAnswer :=
  match wire.dhtRequest body with
  | .error e => do
    let timestamp ← (Program.call FrontOp.stamp : Front UInt64)
    pure ⟨.badRequest, errorResponse s!"Error decodage: {e}" timestamp⟩
  | .ok req => do
    let response ← processRequest wire req
    pure ⟨if response.success then .ok else .badRequest, response⟩

/-! ## WebSocket connections -/

namespace Front

def encodeError (message : String) : Front DhtResponse := do
  let timestamp ← (Program.call FrontOp.stamp : Front UInt64)
  pure (errorResponse message timestamp)

def encodeResponse (wire : Wire) (method : WsMethod) (requestId payload : Bytes) :
    Front DhtResponse := do
  let timestamp ← (Program.call FrontOp.stamp : Front UInt64)
  pure ⟨true, wire.wsNumber method, payload, "", timestamp, requestId⟩

def encodeOk (wire : Wire) (method : WsMethod) (payload : Bytes) : Front DhtResponse :=
  encodeResponse wire method [] payload

/-- The sender announces a transfer. -/
def wsFileAvailable (wire : Wire) (payload userHash : Bytes) : Front DhtResponse := do
  match wire.wsFileAvailableRequest payload with
  | .ok req =>
    match parseTransferId req.transferId with
    | some tid =>
      lift (Program.call (Op.relayRegister tid userHash))
      encodeOk wire .wsFileAvailable []
    | none => encodeOk wire .wsFileAvailable []
  | .error _ => encodeOk wire .wsFileAvailable []

/-- The recipient asks for a chunk. -/
def wsFileChunkRequest (wire : Wire) (payload requesterHash : Bytes) : Front DhtResponse := do
  match wire.wsFileChunkRequest payload with
  | .error _ => encodeError "payload WsFileChunkRequest invalide"
  | .ok req =>
  match parseTransferId req.transferId with
  | none => encodeError "transfer_id invalide (doit être 16 bytes)"
  | some tid =>
  match ← lift (Program.call (Op.relayGetSender tid)) with
  | none => encodeError "transfert inconnu ou expéditeur hors ligne"
  | some senderHash =>
    let n ← lift (buildNotification (.fileChunkRequest { req with requesterHash }))
    let _ ← lift (Program.call (Op.sendToUser senderHash n))
    encodeOk wire .wsFileChunkRequest []

/-- The sender sends a chunk. -/
def wsFileChunk (wire : Wire) (payload : Bytes) : Front DhtResponse := do
  match wire.wsFileChunkResponse payload with
  | .error _ => encodeError "payload WsFileChunkResponse invalide"
  | .ok chunk =>
  if chunk.recipientHash = [] then encodeError "recipient_hash manquant" else
  let n ← lift (buildNotification (.fileChunk chunk))
  let _ ← lift (Program.call (Op.sendToUser chunk.recipientHash n))
  encodeOk wire .wsFileChunk []

def wsCheckOnline (wire : Wire) (payload requestId : Bytes) : Front DhtResponse := do
  match wire.wsCheckOnlineRequest payload with
  | .error _ => encodeError "payload WsCheckOnlineRequest invalide"
  | .ok req =>
    let online ← lift (Program.call (Op.isConnected req.targetHash))
    encodeResponse wire .wsCheckOnline requestId (wire.encodeOnline ⟨online⟩)

def processWsRequest (wire : Wire) (data userHash : Bytes) : Front DhtResponse :=
  match wire.dhtRequest data with
  | .error e => encodeError s!"Décodage DhtRequest échoué: {e}"
  | .ok req =>
    match wire.wsMethod req.method with
    | some .wsFileAvailable => wsFileAvailable wire req.payload userHash
    | some .wsFileChunkRequest => wsFileChunkRequest wire req.payload userHash
    | some .wsFileChunk => wsFileChunk wire req.payload
    | some .wsCheckOnline => wsCheckOnline wire req.payload req.requestId
    | none => processRequest wire req

/-- The first frame is the user hash followed by a session token. -/
def authenticate : Front (Option Bytes) := do
  match ← Program.call FrontOp.receive with
  | some (.binary data) =>
    if data.length ≤ userHashSize then pure none else
    let userHash := data.take userHashSize
    let sessionToken := data.drop userHashSize
    if ← lift (verifySessionToken sessionToken userHash) then pure (some userHash) else pure none
  | _ => pure none

/-- The connection loop, for at most `rounds` rounds of its `select!`. -/
def wsLoop (wire : Wire) (userHash : Bytes) : Nat → Receiver → Front Unit
  | 0, _ => do
    let impossible ← (lift (Program.call Op.panic) : Front Empty)
    nomatch impossible
  | rounds + 1, rx => do
    match ← Program.call (FrontOp.select rx) with
    | .socket (.binary data) =>
      let response ← processWsRequest wire data userHash
      if ← Program.call (FrontOp.send (.response response)) then wsLoop wire userHash rounds rx
      else pure ()
    | .socket (.ping data) =>
      if ← Program.call (FrontOp.send (.pong data)) then wsLoop wire userHash rounds rx
      else pure ()
    | .socket .close | .socket .error | .socket .eof => pure ()
    | .socket .other => wsLoop wire userHash rounds rx
    | .broadcast (.ok msg) next =>
      if ← Program.call (FrontOp.send (.notification msg.payload)) then
        wsLoop wire userHash rounds { rx with next }
      else pure ()
    | .broadcast (.lagged _) next => wsLoop wire userHash rounds { rx with next }
    | .broadcast .closed _ => pure ()

def handleWebsocket (wire : Wire) (rounds : Nat) : Front Unit := do
  match ← authenticate with
  | none => Program.call FrontOp.close
  | some userHash =>
    let rx ← lift (Program.call (Op.register userHash))
    wsLoop wire userHash rounds rx
    lift (Program.call (Op.unregister userHash))
    lift (Program.call (Op.relayUnregisterBySender userHash))
    lift (Program.call (Op.dropReceiver rx))

end Front

/-- The bytes that are written to a socket. -/
def WireMessage.bytes (wire : Wire) : WireMessage → Bytes
  | .response r => wire.encodeResponse r
  | .pong data => data
  | .notification n => wire.encodeNotification n

/-! ## The front as a machine -/

inductive FrontJob
  | post (body : Bytes)
  | websocket (rounds : Nat)
  | cleanup (tick : Nat)
deriving DecidableEq

def frontCode (wire : Wire) : FrontJob → Front (Option HttpAnswer)
  | .post body => do
    pure (some (← handlePost wire body))
  | .websocket rounds => do
    Front.handleWebsocket wire rounds
    pure none
  | .cleanup tick => do
    lift (cleanup tick)
    pure none

/-- The server with its front, over the generated code and signature verification. -/
def front (wire : Wire) (verifyDetached : Bytes → Bytes → Bytes → Bool) :
    Machine FrontRes World FrontJob (Option HttpAnswer) FrontOracle Act :=
  ⟨frontCode wire, frontPerform verifyDetached, act⟩

abbrev FrontState : Type := Config FrontRes World FrontJob (Option HttpAnswer)

abbrev FrontMoves : Type := List (Move FrontJob FrontOracle Act)

end ZenthDht
