import ZenthDht.Conc.Calls
import ZenthDht.Model.Front
import ZenthDht.Spec.Run

/-!
# The front against the server

The server answers requests that are decoded already, each by a thread of its own; the front
decodes them, and a connection answers a request on its socket before it goes on.  Here is what
the two have in common: the operations of the front that are operations of the server, the call
of a request, and `front_splits`, which puts every job of the front together from jobs of
the server.
-/

namespace ZenthDht

open Conc

/-! ## Observation -/

/-- A frame that is written, its contents apart where it answers a frame. -/
def WsOutput.kind : WsOutput → WsOutput
  | .notification n => .notification n
  | .pong => .pong
  | .ok | .error _ | .online _ | .dht => .dht

def WireMessage.kind : WireMessage → WsOutput
  | .notification n => .notification n
  | .pong _ => .pong
  | .response _ => .dht

def WireInput.input : WireInput → WsInput
  | .socket f => .socket f.frame
  | .broadcast r next => .broadcast r next

/-- What is compared of an event of the server: all of it but the contents of answers. -/
def serverEvent : Event Res → Option (Event Res)
  | ⟨.socketSend out, b⟩ => some ⟨.socketSend out.kind, b⟩
  | e => some e

/-- What is compared of an event of the front. -/
def frontEvent : Event FrontRes → Option (Event Res)
  | ⟨.core o, r⟩ => serverEvent ⟨o, r⟩
  | ⟨.receive, r⟩ => some ⟨.receive, r.map WireFrame.frame⟩
  | ⟨.select rx, r⟩ => some ⟨.select rx, r.input⟩
  | ⟨.send m, b⟩ => some ⟨.socketSend m.kind, b⟩
  | ⟨.stamp, _⟩ => none
  | ⟨.close, _⟩ => none

section

variable {wire : Wire} {verifyDetached : Bytes → Bytes → Bytes → Bool}

section Operations

variable (wire verifyDetached)

theorem showsAs_core (o : Op) : ShowsAs (server wire.codec verifyDetached)
    (front wire verifyDetached) serverEvent frontEvent (.core o) o id := by
  constructor
  · intro ω' w r' w₁ h
    cases ω' with
    | core ω => exact ⟨ω, h⟩
    | frame f => cases h
    | flag b => cases h
  · intro r'
    rfl

theorem showsAs_receive : ShowsAs (server wire.codec verifyDetached) (front wire verifyDetached)
    serverEvent frontEvent .receive .receive (Option.map WireFrame.frame) := by
  constructor
  · intro ω' w r' w₁ h
    cases ω' with
    | frame f =>
        obtain ⟨rfl, rfl⟩ := Prod.mk.inj (Option.some.inj h)
        exact ⟨.frame (f.map WireFrame.frame), rfl⟩
    | core ω => cases h
    | flag b => cases h
  · intro r'
    rfl

theorem showsAs_select (rx : Receiver) : ShowsAs (server wire.codec verifyDetached)
    (front wire verifyDetached) serverEvent frontEvent (.select rx) (.select rx)
    WireInput.input := by
  constructor
  · intro ω' w r' w₁ h
    have hrecv (h : ((w.connections.recv rx).map fun x ↦
        (WireInput.broadcast x.1 x.2, w)) = some (r', w₁)) :
        perform verifyDetached (.select rx) .none w = some (r'.input, w₁) := by
      obtain ⟨⟨r, next⟩, hr, he⟩ := Option.map_eq_some_iff.mp h
      obtain ⟨rfl, rfl⟩ := Prod.mk.inj he
      exact Option.map_eq_some_iff.mpr ⟨(r, next), hr, rfl⟩
    cases ω' with
    | frame f =>
        cases f with
        | none => exact ⟨.none, hrecv h⟩
        | some f =>
            obtain ⟨rfl, rfl⟩ := Prod.mk.inj (Option.some.inj h)
            exact ⟨.frame (some f.frame), rfl⟩
    | core ω => exact ⟨.none, hrecv h⟩
    | flag b => exact ⟨.none, hrecv h⟩
  · intro r'
    rfl

theorem showsAs_send {m : WireMessage} {out : WsOutput} (hkind : out.kind = m.kind) :
    ShowsAs (server wire.codec verifyDetached) (front wire verifyDetached) serverEvent frontEvent
      (.send m) (.socketSend out) id := by
  constructor
  · intro ω' w r' w₁ h
    cases ω' with
    | flag b =>
        obtain ⟨rfl, rfl⟩ := Prod.mk.inj (Option.some.inj h)
        exact ⟨.flag b, rfl⟩
    | core ω => cases h
    | frame f => cases h
  · intro r'
    show some (⟨.socketSend out.kind, r'⟩ : Event Res) = some ⟨.socketSend m.kind, r'⟩
    rw [hkind]

theorem unseen_stamp : Unseen (front wire verifyDetached) frontEvent .stamp := by
  constructor
  · intro ω' w r' w₁ h
    exact (Prod.mk.inj (Option.some.inj h)).2.symm
  · intro r'
    rfl

theorem unseen_close : Unseen (front wire verifyDetached) frontEvent .close := by
  constructor
  · intro ω' w r' w₁ h
    exact (Prod.mk.inj (Option.some.inj h)).2.symm
  · intro r'
    rfl

end Operations

/-! ## Programs of the server within the front -/

/-- What a job of the front leaves behind when it returns: an answer, and the calls it made. -/
abbrev FrontPost : Type := Option HttpAnswer → List (Job × Option Reply) → Prop

/-- A program of the front against its call and its own thread in the server. -/
abbrev FrontSplits (wire : Wire) (verifyDetached : Bytes → Bytes → Bytes → Bool)
    (post : FrontPost) :
    Front (Option HttpAnswer) → List (Job × Option Reply) →
      Option (Job × Handler (Option Reply)) → Option (Handler (Option Reply)) → Prop :=
  Splits (server wire.codec verifyDetached) (front wire verifyDetached) serverEvent frontEvent post

section Rules

variable {α β : Type} {post : FrontPost} {calls : List (Job × Option Reply)}
variable {main : Option (Handler (Option Reply))}

/-- The front carries out a program as its own thread does. -/
theorem splits_main (p : Handler β) {f : β → Front (Option HttpAnswer)}
    {k : β → Handler (Option Reply)}
    (h : ∀ b, FrontSplits wire verifyDetached post (f b) calls none (some (k b))) :
    FrontSplits wire verifyDetached post (lift p >>= f) calls none (some (p >>= k)) := by
  induction p with
  | ret b => exact h b
  | perform o q ih => exact .main (showsAs_core wire verifyDetached o) fun r' ↦ ih r'

/-- The front carries out a program as its call does. -/
theorem splits_sub (p : Handler β) {f : β → Front (Option HttpAnswer)} {j : Job}
    {g : β → Option Reply}
    (h : ∀ b, FrontSplits wire verifyDetached post (f b) (calls ++ [(j, g b)]) none main) :
    FrontSplits wire verifyDetached post (lift p >>= f) calls
      (some (j, p >>= fun b ↦ .ret (g b))) main := by
  induction p with
  | ret b => exact .done (h b)
  | perform o q ih => exact .sub (showsAs_core wire verifyDetached o) fun r' ↦ ih r'

/-- The front makes a call, stamps the answer and goes on. -/
theorem splits_call (p : Handler β) {f : β → UInt64 → Front (Option HttpAnswer)} {j : Job}
    {g : β → Option Reply} (hcode : code wire.codec j = p >>= fun b ↦ .ret (g b))
    (h : ∀ b s, FrontSplits wire verifyDetached post (f b s) (calls ++ [(j, g b)]) none main) :
    FrontSplits wire verifyDetached post
      (lift p >>= fun b ↦ .perform .stamp (f b)) calls none main := by
  have hsub : FrontSplits wire verifyDetached post (lift p >>= fun b ↦ .perform .stamp (f b))
      calls (some (j, code wire.codec j)) main := by
    rw [hcode]
    exact splits_sub p fun b ↦ .silent (unseen_stamp wire verifyDetached) (h b)
  -- a call is started by the operation that follows, which is its own first one or the stamp
  cases p with
  | ret b => exact .call j hsub
  | perform o q => exact .call j hsub

/-- The front stamps an answer and goes on. -/
theorem splits_stamp {k : UInt64 → Front (Option HttpAnswer)}
    (h : ∀ s, FrontSplits wire verifyDetached post (k s) calls none main) :
    FrontSplits wire verifyDetached post (.perform .stamp k) calls none main :=
  .silent (unseen_stamp wire verifyDetached) h

end Rules

/-! ## Requests -/

/-- The job of the server that a request is. -/
def Wire.job (wire : Wire) (req : DhtRequest) : Job :=
  .request (dispatch wire req.method req.payload)

section Requests

variable {post : FrontPost} {calls : List (Job × Option Reply)}
variable {main : Option (Handler (Option Reply))}

/-- A request is a call of the server, and its answer wraps the reply of the call. -/
theorem splits_processRequest (req : DhtRequest) {f : DhtResponse → Front (Option HttpAnswer)}
    (h : ∀ reply s, FrontSplits wire verifyDetached post (f (wire.response req reply s))
      (calls ++ [(wire.job req, some reply)]) none main) :
    FrontSplits wire verifyDetached post (processRequest wire req >>= f) calls none main := by
  rw [processRequest, Program.bind_assoc]
  exact splits_call (processCall wire.codec (dispatch wire req.method req.payload)) rfl h

/-- What a POST leaves behind: the answer to a body that does not decode, or the answer that wraps
the reply of its one call. -/
inductive PostAnswered (wire : Wire) (body : Bytes) : FrontPost
  | malformed {e : String} {s : UInt64} (h : wire.dhtRequest body = .error e) :
      PostAnswered wire body
        (some ⟨.badRequest, errorResponse s!"Error decodage: {e}" s⟩) []
  | replied {req : DhtRequest} {reply : Reply} {s : UInt64} (h : wire.dhtRequest body = .ok req) :
      PostAnswered wire body
        (some ⟨if reply.success then .ok else .badRequest, wire.response req reply s⟩)
        [(wire.job req, some reply)]

theorem splits_handlePost (body : Bytes) :
    FrontSplits wire verifyDetached (PostAnswered wire body) (frontCode wire (.post body)) [] none
      main := by
  rw [frontCode, handlePost]
  cases hdecode : wire.dhtRequest body with
  | error e => exact splits_stamp fun s ↦ .ret (.malformed hdecode)
  | ok req =>
      dsimp only
      rw [Program.bind_assoc]
      exact splits_processRequest req fun reply s ↦ .ret (.replied hdecode)

end Requests

/-! ## Connections -/

section Connections

variable {post : FrontPost} {calls : List (Job × Option Reply)} {u : Bytes}
variable {f : DhtResponse → Front (Option HttpAnswer)} {k : WsOutput → Handler (Option Reply)}

/-- Whatever is answered, the connection goes on the same way. -/
def GoesOn (wire : Wire) (verifyDetached : Bytes → Bytes → Bytes → Bool) (post : FrontPost)
    (f : DhtResponse → Front (Option HttpAnswer)) (k : WsOutput → Handler (Option Reply)) : Prop :=
  ∀ calls r out, out.kind = .dht →
    FrontSplits wire verifyDetached post (f r) calls none (some (k out))

theorem splits_encodeError (h : GoesOn wire verifyDetached post f k) (message : String) :
    FrontSplits wire verifyDetached post (Front.encodeError message >>= f) calls none
      (some (.ret (.error message) >>= k)) :=
  splits_stamp fun _ ↦ h _ _ _ rfl

theorem splits_encodeOk (h : GoesOn wire verifyDetached post f k) (method : WsMethod) :
    FrontSplits wire verifyDetached post (Front.encodeOk wire method [] >>= f) calls none
      (some (.ret .ok >>= k)) :=
  splits_stamp fun _ ↦ h _ _ _ rfl

/-- A notification is stamped, sent to its user and acknowledged. -/
theorem splits_forward (h : GoesOn wire verifyDetached post f k) (dest : Bytes)
    (payload : NotificationPayload) (method : WsMethod) :
    FrontSplits wire verifyDetached post
      ((do
        let n ← lift (buildNotification payload)
        let _ ← lift (Program.call (Op.sendToUser dest n))
        Front.encodeOk wire method []) >>= f) calls none
      (some ((do
        let n ← buildNotification payload
        let _ ← (Program.call (Op.sendToUser dest n) : Handler Bool)
        pure .ok) >>= k)) := by
  rw [Program.bind_assoc, Program.bind_assoc]
  refine splits_main (buildNotification payload) fun n ↦ ?_
  exact splits_main (.call (.sendToUser dest n)) fun _ ↦ splits_encodeOk h _

theorem splits_wsFileAvailable (h : GoesOn wire verifyDetached post f k) (payload : Bytes) :
    FrontSplits wire verifyDetached post (Front.wsFileAvailable wire payload u >>= f) calls none
      (some (wsFileAvailable
        ((wire.wsFileAvailableRequest payload).toOption.map (·.transferId)) u >>= k)) := by
  rw [Front.wsFileAvailable, wsFileAvailable]
  cases wire.wsFileAvailableRequest payload with
  | error e => exact splits_encodeOk h _
  | ok req =>
      simp only [Except.toOption, Option.map_some, Option.bind_some]
      cases parseTransferId req.transferId with
      | none => exact splits_encodeOk h _
      | some tid =>
          exact splits_main (.call (.relayRegister tid u)) fun _ ↦ splits_encodeOk h _

theorem splits_wsFileChunkRequest (h : GoesOn wire verifyDetached post f k) (payload : Bytes) :
    FrontSplits wire verifyDetached post (Front.wsFileChunkRequest wire payload u >>= f) calls none
      (some (wsFileChunkRequest (wire.wsFileChunkRequest payload).toOption u >>= k)) := by
  rw [Front.wsFileChunkRequest, wsFileChunkRequest.eq_def]
  cases wire.wsFileChunkRequest payload with
  | error e => exact splits_encodeError h _
  | ok req =>
      dsimp only [Except.toOption]
      cases parseTransferId req.transferId with
      | none => exact splits_encodeError h _
      | some tid =>
          refine splits_main (.call (.relayGetSender tid)) fun sender ↦ ?_
          cases sender with
          | none => exact splits_encodeError h _
          | some sender => exact splits_forward h _ _ _

theorem splits_wsFileChunk (h : GoesOn wire verifyDetached post f k) (payload : Bytes) :
    FrontSplits wire verifyDetached post (Front.wsFileChunk wire payload >>= f) calls none
      (some (wsFileChunk (wire.wsFileChunkResponse payload).toOption >>= k)) := by
  rw [Front.wsFileChunk, wsFileChunk.eq_def]
  cases wire.wsFileChunkResponse payload with
  | error e => exact splits_encodeError h _
  | ok chunk =>
      dsimp only [Except.toOption]
      by_cases hr : chunk.recipientHash = []
      · rw [if_pos hr, if_pos hr]
        exact splits_encodeError h _
      · rw [if_neg hr, if_neg hr]
        exact splits_forward h _ _ _

theorem splits_wsCheckOnline (h : GoesOn wire verifyDetached post f k) (payload requestId : Bytes) :
    FrontSplits wire verifyDetached post (Front.wsCheckOnline wire payload requestId >>= f) calls
      none (some (wsCheckOnline
        ((wire.wsCheckOnlineRequest payload).toOption.map (·.targetHash)) >>= k)) := by
  rw [Front.wsCheckOnline, wsCheckOnline.eq_def]
  cases wire.wsCheckOnlineRequest payload with
  | error e => exact splits_encodeError h _
  | ok req =>
      exact splits_main (.call (.isConnected req.targetHash)) fun online ↦
        splits_stamp fun _ ↦ h _ _ (.online online) rfl

/-- A frame is answered by the front where it is by the server; a request is a call of its own. -/
theorem splits_processWsRequest (h : GoesOn wire verifyDetached post f k) (data : Bytes) :
    FrontSplits wire verifyDetached post (Front.processWsRequest wire data u >>= f) calls none
      (some (processWsRequest wire.codec data u >>= k)) := by
  simp only [Front.processWsRequest, processWsRequest, Wire.codec, Wire.wsRequest]
  cases wire.dhtRequest data with
  | error e => exact splits_encodeError h _
  | ok req =>
      dsimp only
      cases wire.wsMethod req.method with
      | none => exact splits_processRequest req fun _ _ ↦ h _ _ _ rfl
      | some method =>
          cases method with
          | wsFileAvailable => exact splits_wsFileAvailable h _
          | wsFileChunkRequest => exact splits_wsFileChunkRequest h _
          | wsFileChunk => exact splits_wsFileChunk h _
          | wsCheckOnline => exact splits_wsCheckOnline h _ _

end Connections

section Loop

variable {post : FrontPost} {u : Bytes}
variable {f : Unit → Front (Option HttpAnswer)} {k : Unit → Handler (Option Reply)}

theorem splits_wsLoop (n : Nat) {rx : Receiver} {calls : List (Job × Option Reply)}
    (h : ∀ calls, FrontSplits wire verifyDetached post (f ()) calls none (some (k ()))) :
    FrontSplits wire verifyDetached post (Front.wsLoop wire u n rx >>= f) calls none
      (some (wsLoop wire.codec u n rx >>= k)) := by
  induction n generalizing rx calls with
  | zero =>
      rw [Front.wsLoop, wsLoop]
      refine splits_main (.call .panic) fun impossible ↦ ?_
      cases impossible
  | succ n ih =>
      -- what is sent in a round, the loop goes on after
      have hsent (m : WireMessage) (out : WsOutput) (hkind : out.kind = m.kind) (rx : Receiver)
          (calls : List (Job × Option Reply)) : FrontSplits wire verifyDetached post
            ((do
              if ← Program.call (FrontOp.send m) then Front.wsLoop wire u n rx
              else pure ()) >>= f) calls none
            (some ((do
              if ← Program.call (Op.socketSend out) then wsLoop wire.codec u n rx
              else pure ()) >>= k)) := by
        refine .main (showsAs_send wire verifyDetached hkind) fun sent ↦ ?_
        cases sent with
        | true => exact ih
        | false => exact h _
      rw [Front.wsLoop, wsLoop]
      refine .main (showsAs_select wire verifyDetached rx) fun input ↦ ?_
      cases input with
      | socket frame =>
          cases frame with
          | binary data =>
              show FrontSplits wire verifyDetached post ((Front.processWsRequest wire data u >>= _)
                >>= f) calls none (some ((processWsRequest wire.codec data u >>= _) >>= k))
              rw [Program.bind_assoc, Program.bind_assoc]
              exact splits_processWsRequest (fun calls r out hout ↦ hsent _ _ hout rx calls) data
          | ping data => exact hsent (.pong data) .pong rfl rx calls
          | other => exact ih
          | close => exact h _
          | error => exact h _
          | eof => exact h _
      | broadcast r next =>
          cases r with
          | ok msg => exact hsent (.notification msg.payload) _ rfl { rx with next } calls
          | lagged n => exact ih
          | closed => exact h _

end Loop

theorem splits_authenticate {post : FrontPost} {calls : List (Job × Option Reply)}
    {f : Option Bytes → Front (Option HttpAnswer)} {k : Option Bytes → Handler (Option Reply)}
    (h : ∀ a, FrontSplits wire verifyDetached post (f a) calls none (some (k a))) :
    FrontSplits wire verifyDetached post (Front.authenticate >>= f) calls none
      (some (authenticate >>= k)) := by
  rw [Front.authenticate, authenticate]
  refine .main (showsAs_receive wire verifyDetached) fun frame ↦ ?_
  cases frame with
  | none => exact h none
  | some frame =>
      cases frame with
      | binary data =>
          show FrontSplits wire verifyDetached post
            ((if data.length ≤ userHashSize then _ else _) >>= f) calls none
            (some ((if data.length ≤ userHashSize then _ else _) >>= k))
          by_cases hsize : data.length ≤ userHashSize
          · rw [if_pos hsize, if_pos hsize]
            exact h none
          · rw [if_neg hsize, if_neg hsize]
            show FrontSplits wire verifyDetached post ((lift (verifySessionToken _ _) >>= _) >>= f)
              calls none (some ((verifySessionToken _ _ >>= _) >>= k))
            rw [Program.bind_assoc, Program.bind_assoc]
            refine splits_main (verifySessionToken _ _) fun valid ↦ ?_
            cases valid with
            | true => exact h _
            | false => exact h none
      | ping data => exact h none
      | close => exact h none
      | error => exact h none
      | eof => exact h none
      | other => exact h none

theorem splits_handleWebsocket {post : FrontPost} (n : Nat) (hpost : ∀ calls, post none calls) :
    FrontSplits wire verifyDetached post (frontCode wire (.websocket n)) [] none
      (some (code wire.codec (.websocket n))) := by
  rw [frontCode, code, Front.handleWebsocket, handleWebsocket, Program.bind_assoc,
    Program.bind_assoc]
  refine splits_authenticate fun user ↦ ?_
  cases user with
  | none => exact .silent (unseen_close wire verifyDetached) fun _ ↦ .ret (hpost _)
  | some u =>
      refine splits_main (.call (.register u)) fun rx ↦ ?_
      show FrontSplits wire verifyDetached post ((Front.wsLoop wire u n rx >>= _) >>= _) _ none
        (some ((wsLoop wire.codec u n rx >>= _) >>= _))
      simp only [Program.bind_assoc]
      refine splits_wsLoop n fun calls ↦ ?_
      refine splits_main (.call (.unregister u)) fun _ ↦ ?_
      refine splits_main (.call (.relayUnregisterBySender u)) fun _ ↦ ?_
      exact splits_main (.call (.dropReceiver rx)) fun _ ↦ .ret (hpost _)

theorem splits_cleanup {post : FrontPost} (tick : Nat) (hpost : post none []) :
    FrontSplits wire verifyDetached post (frontCode wire (.cleanup tick)) [] none
      (some (code wire.codec (.cleanup tick))) :=
  splits_main (cleanup tick) fun _ ↦ .ret hpost

/-! ## Jobs -/

/-- The thread of the server that a job of the front is; a POST has none of its own. -/
def FrontJob.own : FrontJob → Option Job
  | .post _ => none
  | .websocket rounds => some (.websocket rounds)
  | .cleanup tick => some (.cleanup tick)

/-- What a job of the front leaves behind. -/
def frontPost (wire : Wire) : FrontJob → FrontPost
  | .post body => PostAnswered wire body
  | .websocket _ | .cleanup _ => fun a _ ↦ a = none

/-- The jobs of the front are put together from jobs of the server. -/
theorem front_splits (wire : Wire) (verifyDetached : Bytes → Bytes → Bytes → Bool) :
    (server wire.codec verifyDetached).SplitsCode (front wire verifyDetached) serverEvent
      frontEvent (frontPost wire) FrontJob.own := by
  intro job
  cases job with
  | post body => exact splits_handlePost body
  | websocket rounds => exact splits_handleWebsocket rounds fun _ ↦ rfl
  | cleanup tick => exact splits_cleanup tick rfl

end

/-! ## What a run leaves behind -/

/-- The job of a POST that has been answered, with its answer. -/
def FrontState.answered (c : FrontState) (t : Nat) : Option (FrontJob × HttpAnswer) :=
  match c.pool[t]? with
  | some ⟨job, .ret (some a)⟩ => some (job, a)
  | _ => none

theorem frontAnswered_iff {c : FrontState} {t : Nat} {job : FrontJob} {a : HttpAnswer} :
    c.answered t = some (job, a) ↔ c.pool[t]? = some ⟨job, .ret (some a)⟩ := by
  unfold FrontState.answered
  split
  next hp => simp [hp]
  next hp =>
    constructor
    · intro h
      cases h
    · intro h
      exact absurd h (hp job a)

/-! ## A concrete front -/

namespace Sample

/-- The number of one of the methods of the WebSocket handler. -/
def wsNumber : WsMethod → Int32
  | .wsFileAvailable => 100
  | .wsFileChunkRequest => 101
  | .wsFileChunk => 102
  | .wsCheckOnline => 103

def wsMethod (n : Int32) : Option WsMethod :=
  if n = 100 then some .wsFileAvailable
  else if n = 101 then some .wsFileChunkRequest
  else if n = 102 then some .wsFileChunk
  else if n = 103 then some .wsCheckOnline
  else none

theorem wsMethod_eq_some (n : Int32) (m : WsMethod) : wsMethod n = some m ↔ n = wsNumber m := by
  constructor
  · intro h
    unfold wsMethod at h
    split at h
    · cases h
      assumption
    split at h
    · cases h
      assumption
    split at h
    · cases h
      assumption
    split at h
    · cases h
      assumption
    · cases h
  · rintro rfl
    cases m <;> rfl

/-- A decoder that nothing is sent to. -/
def unused {α : Type} : Decoder α := fun _ ↦ .error ""

/-- A request is its method and its payload; its request id is the method again.  The payload of a
REGISTER is the number of the user, that of a LOGIN is empty to ask for a challenge of user 1 and
anything else to answer it. -/
def wire : Wire where
  dhtRequest data :=
    match data with
    | [] => .error "empty"
    | m :: payload => .ok ⟨Int32.ofNat m.toNat, payload, [m]⟩
  registrationRequest data :=
    match data with
    | [i] => .ok ⟨word i, [1], key i, [1], [i], 0⟩
    | _ => .error "not a user"
  loginRequest data :=
    if data = [] then .ok ⟨"0.1.2", word 1, true, none⟩
    else .ok ⟨"0.1.2", word 1, false, some ⟨word 7, signature, 5⟩⟩
  deleteRequest := unused
  friendRequest := unused
  lookupUserRequest := unused
  fetchFriendRequestsRequest := unused
  friendResponse := unused
  zenthSignalEnvelope := unused
  fetchMessagesRequest := unused
  fetchFriendResponsesRequest := unused
  uploadPreKeysRequest := unused
  fetchPreKeyBundleRequest := unused
  checkPreKeyCountRequest := unused
  replenishPreKeysRequest := unused
  updateManifestRequest := unused
  updateChunkRequest := unused
  syncPushBlobRequest := unused
  syncFetchBlobRequest := unused
  syncDeleteBlobRequest := unused
  relayPushRequest := unused
  relayFetchRequest := unused
  relayAckRequest := unused
  messageAck := unused
  publishRecoveryKeyRequest := unused
  recoveryClaimRequest := unused
  wsFileAvailableRequest data := .ok ⟨data⟩
  wsFileChunkRequest := unused
  wsFileChunkResponse := unused
  wsCheckOnlineRequest data := .ok ⟨data⟩
  encodePayload _ := [1]
  encodeOnline r := if r.online then [1] else [0]
  encodeResponse r := r.payload
  encodeNotification _ := []
  decodePreKeyBundle := codec.decodePreKeyBundle
  encodePreKeyMessage := codec.encodePreKeyMessage
  decodePreKeyMessage := codec.decodePreKeyMessage
  encodeSignalMessage := codec.encodeSignalMessage
  decodeSignalMessage := codec.decodeSignalMessage
  decodeBase64 := codec.decodeBase64
  wsMethod := wsMethod
  wsNumber := wsNumber
  wsMethod_eq_some := wsMethod_eq_some

/-- Thread `t` of the front takes `n` steps of which nothing is left open. -/
def frontSteps (t n : Nat) : FrontMoves := List.replicate n (.step t (.core .none))

/-- Thread `t` answers a POST in `n` steps. -/
def posts (t n : Nat) (body : Bytes) : FrontMoves := .spawn (.post body) :: frontSteps t n

/-- The state a run of the front leads to. -/
def frontFinal (signed : List (Bytes × Bytes)) (ms : FrontMoves) : Option FrontState :=
  (front wire (verify signed)).run (.start (.initial 0 0)) ms

/-- Somebody posts nothing, and user 1 registers. -/
def postRun : FrontMoves := posts 0 1 [] ++ posts 1 2 [1, 1]

/-- User 1 registers, asks for a challenge and answers it. -/
def frontLogin : FrontMoves :=
  posts 0 2 [1, 1] ++
  posts 1 2 [2] ++ [.step 1 (.core (random 7)), .step 1 (.core (random 8))] ++ frontSteps 1 5 ++
  posts 2 6 [2, 0] ++ .step 2 (.core (random 9)) :: frontSteps 2 3

/-- User 1 opens a connection with the session, pings, registers user 2 over it and asks whether
user 1 is there. -/
def socketRun : FrontMoves :=
  frontLogin ++
  [.spawn (.websocket 3), .step 3 (.frame (some (.binary (word 1 ++ word 9))))] ++
    frontSteps 3 3 ++
  [.step 3 (.frame (some (.ping [7]))), .step 3 (.flag true)] ++
  .step 3 (.frame (some (.binary [1, 2]))) :: frontSteps 3 2 ++ [.step 3 (.flag true)] ++
  .step 3 (.frame (some (.binary (103 :: word 1)))) :: frontSteps 3 2

end Sample

end ZenthDht
