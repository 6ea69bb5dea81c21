import ZenthDht.Conc.Dialogue
import ZenthDht.Safety.Front
import ZenthDht.Safety.Sessions
import ZenthDht.Spec.Memory

/-!
# What goes over a socket

A connection asks for a session first.  Once it is admitted it answers what it reads, frame by
frame and in order, before it reads on: a client may match the answers by their order, and has to
where the handler's own methods answer without a request id.  The answer to a request wraps the
reply of the dispatcher to the operations the connection has performed for it, as a POST does.
-/

namespace ZenthDht

open Conc

/-- The operations of the front that a job has performed, with their results. -/
abbrev FrontPast : Type := List (Event FrontRes)

/-! ## The dialogue -/

/-- What a connection reads and has to write something for. -/
inductive Incoming
  | frame (data : Bytes)
  | ping (data : Bytes)
  | notification (n : WsNotification)
deriving DecidableEq

def WireInput.incoming : WireInput → Option Incoming
  | .socket (.binary data) => some (.frame data)
  | .socket (.ping data) => some (.ping data)
  | .broadcast (.ok msg) _ => some (.notification msg.payload)
  | _ => none

def incomingOf : Event FrontRes → Option Incoming
  | ⟨.select _, i⟩ => i.incoming
  | _ => none

def writtenOf : Event FrontRes → Option WireMessage
  | ⟨.send m, _⟩ => some m
  | _ => none

/-- An event of the server as one of the front. -/
def coreEvent (e : Event Res) : Event FrontRes := ⟨.core e.1, e.2⟩

/-- What answers one of the handler's own methods. -/
structure AnswersOwn (wire : Wire) (req : DhtRequest) (method : WsMethod) (r : DhtResponse) :
    Prop where
  own : wire.wsMethod req.method = some method
  answer : (∃ message, r = errorResponse message r.timestamp) ∨
    ∃ payload, r = ⟨true, req.method, payload, "", r.timestamp,
      if method = .wsCheckOnline then req.requestId else []⟩

/-- What answers a frame after the events `es`, of which the stamp of the answer is one.  For a
request these are the operations performed for it and the stamp. -/
inductive AnswersFrame (wire : Wire) (data : Bytes) (es : FrontPast) (r : DhtResponse) : Prop
  | malformed {e : String} (h : wire.dhtRequest data = .error e)
      (hr : r = errorResponse s!"Décodage DhtRequest échoué: {e}" r.timestamp)
  | own {req : DhtRequest} {method : WsMethod} (h : wire.dhtRequest data = .ok req)
      (hr : AnswersOwn wire req method r)
  | dispatched {req : DhtRequest} {done : Past} {reply : Reply} (h : wire.dhtRequest data = .ok req)
      (hm : wire.wsMethod req.method = none)
      (hdone : (processCall wire.codec (dispatch wire req.method req.payload)).Reaches done
        (.ret reply))
      (hes : es = done.map coreEvent ++ [⟨.stamp, r.timestamp⟩])
      (hr : r = wire.response req reply r.timestamp)

/-- What answers an input after the events since it was read. -/
inductive AnswersIncoming (wire : Wire) : Incoming → FrontPast → WireMessage → Prop
  | frame {data : Bytes} {es : FrontPast} {r : DhtResponse} (h : AnswersFrame wire data es r)
      (hs : (⟨.stamp, r.timestamp⟩ : Event FrontRes) ∈ es) :
      AnswersIncoming wire (.frame data) es (.response r)
  | ping (data : Bytes) : AnswersIncoming wire (.ping data) [] (.pong data)
  | notification (n : WsNotification) :
      AnswersIncoming wire (.notification n) [] (.notification n)

/-- The dialogue of a connection. -/
def socketDialogue (wire : Wire) : Dialogue FrontRes Incoming WireMessage where
  input := incomingOf
  output := writtenOf
  Answers := AnswersIncoming wire

/-! ## The guard of a connection -/

/-- What a connection does before it is admitted. -/
def FrontOp.atDoor : FrontOp → Bool
  | .receive | .close | .core .clock | .core (.sql (.selectSession _ _)) => true
  | _ => false

/-- A connection has been admitted as `u`: its first frame was `u` and a token, and the row it read
for them has not expired. -/
def Entered (u : Bytes) (session : Session) (past : FrontPast) : Prop :=
  ∃ token now rest, past = ⟨.receive, some (.binary (u ++ token))⟩ ::
      coreEvent ⟨.sql (.selectSession token u), .ok session⟩ :: coreEvent ⟨.clock, now⟩ :: rest ∧
    u.length = userHashSize ∧ token ≠ [] ∧ (now : Int) < session.sessionExpiry

/-- The operation is not one of the socket. -/
def FrontOp.offSocket : FrontOp → Bool
  | .core _ | .stamp => true
  | _ => false

/-- The operation is done in the name of `u`, if it names a user it is done for. -/
def FrontOp.ActsFor (u : Bytes) : FrontOp → Prop
  | .core (.register v) | .core (.relayRegister _ v) | .core (.relayUnregisterBySender v) => v = u
  | .core (.sendToUser _ n) => ∀ q, n.payload = .fileChunkRequest q → q.requesterHash = u
  | _ => True

def FrontOp.Reads : FrontOp → Prop
  | .select _ => True
  | _ => False

def FrontOp.writes : FrontOp → Option WireMessage
  | .send m => some m
  | _ => none

/-- What an admitted connection does. -/
structure Proper (wire : Wire) (past : FrontPast) (u : Bytes) (session : Session) (o : FrontOp) :
    Prop where
  admitted : Entered u session past
  actsFor : o.ActsFor u
  turn : (socketDialogue wire).Guard FrontOp.Reads FrontOp.writes past o

/-- What a connection does. -/
def SocketGuard (wire : Wire) (past : FrontPast) (o : FrontOp) : Prop :=
  o.atDoor = true ∨ ∃ u session, Proper wire past u session o

section Programs

variable {wire : Wire} {u : Bytes} {session : Session} {past : FrontPast} {α : Type}
variable {owed : Option (Incoming × FrontPast)}

theorem Entered.mono {past' : FrontPast} (h : Entered u session past) (hp : past <+: past') :
    Entered u session past' := by
  obtain ⟨token, now, tail, rfl, hu, htoken, hnow⟩ := h
  obtain ⟨more, rfl⟩ := hp
  exact ⟨token, now, tail ++ more, rfl, hu, htoken, hnow⟩

/-- An operation off the socket leaves the dialogue where it is. -/
theorem quiet_of_offSocket {e : Event FrontRes} (h : e.1.offSocket = true) :
    (socketDialogue wire).Quiet e := by
  obtain ⟨o, r⟩ := e
  cases o with
  | core o => exact ⟨rfl, rfl⟩
  | stamp => exact ⟨rfl, rfl⟩
  | _ => cases h

theorem turn_of_offSocket {o : FrontOp} (h : o.offSocket = true) :
    (socketDialogue wire).Guard FrontOp.Reads FrontOp.writes past o := by
  constructor
  · intro hreads
    cases o with
    | select rx => cases h
    | _ => cases hreads
  · intro m hm
    cases o with
    | send m => cases h
    | _ => cases hm

/-- An admitted connection does what it does off the socket with the dialogue where it is. -/
theorem proper_of_offSocket {post : FrontPast → α → Prop} {p : Front α}
    (h : p.Obeys (fun _ o ↦ o.offSocket = true ∧ o.ActsFor u) post past)
    (ha : Entered u session past) (ho : (socketDialogue wire).Owes past owed) :
    p.Obeys (SocketGuard wire) (fun past' a ↦ post past' a ∧ Entered u session past' ∧
      ∃ es, past' = past ++ es ∧
        (socketDialogue wire).Owes past' (Dialogue.since es owed)) past := by
  have hall := (h.adds fun _ _ hg ↦ hg.1).and (Program.obeys_extends p)
  refine hall.mono ?_ ?_
  · rintro past' o ⟨⟨hoff, hacts⟩, hext⟩
    exact .inr ⟨u, session, ha.mono hext, hacts, turn_of_offSocket hoff⟩
  · rintro past' a ⟨⟨hpost, es, rfl, hes⟩, hext⟩
    exact ⟨hpost, ha.mono hext, es, rfl, ho.quiets fun e he ↦ quiet_of_offSocket (hes e he)⟩

/-- What the front records of a program of the server. -/
theorem lift_records {β : Type} {p₀ p : Handler β} {es₀ : Past} (hr : p₀.Reaches es₀ p)
    {Q : Op → Prop} {before : Past} (hQ : p.Obeys (fun _ o ↦ Q o) (fun _ _ ↦ True) before) :
    (lift p).Obeys (fun _ o ↦ ∃ o', o = .core o' ∧ Q o') (fun past' b ↦
      ∃ es, past' = past ++ es.map coreEvent ∧ p₀.Reaches (es₀ ++ es) (.ret b)) past := by
  induction p generalizing es₀ before past with
  | ret b => exact ⟨[], by simp, by rwa [List.append_nil]⟩
  | perform o k ih =>
      refine ⟨⟨o, rfl, hQ.1⟩, fun (r : Res o) ↦ ?_⟩
      have hstep : p₀.Reaches (es₀ ++ [⟨o, r⟩]) (k r) := .snoc r hr
      refine (ih r hstep (hQ.2 r)).mono (fun _ _ h ↦ h) ?_
      rintro past' b ⟨es, rfl, hes⟩
      refine ⟨⟨o, r⟩ :: es, ?_, ?_⟩
      · show past ++ [coreEvent ⟨o, r⟩] ++ es.map coreEvent = _
        simp
      · simpa using hes

/-- A request acts for nobody but its sender: what it does is not done in the name of the
connection it came on. -/
theorem processCall_actsFor (call : Call) : (processCall wire.codec call).Obeys
    (fun _ o ↦ FrontOp.ActsFor u (.core o)) (fun _ _ ↦ True) [] := by
  refine ((processCall_reaches call).and (processCall_obeys wire.codec call)).mono ?_
    fun _ _ _ ↦ trivial
  rintro past o ⟨hreach, hguard⟩
  cases o with
  | register v =>
      obtain ⟨⟨rounds, hjob⟩, -⟩ := hguard
      cases hjob
  | relayRegister tid v =>
      obtain ⟨rounds, hjob⟩ := hreach
      cases hjob
  | relayUnregisterBySender v =>
      obtain ⟨rounds, hjob⟩ := hreach
      cases hjob
  | sendToUser v n =>
      intro q hq
      rcases hreach with ⟨rounds, hjob⟩ | hfile
      · cases hjob
      · rw [hq] at hfile
        cases hfile
  | _ => trivial

/-- A request that comes on a connection is answered by the reply of the dispatcher. -/
theorem processRequest_answers (req : DhtRequest) : (processRequest wire req).Obeys
    (fun _ o ↦ o.offSocket = true ∧ o.ActsFor u) (fun past' r ↦ ∃ done reply,
      (processCall wire.codec (dispatch wire req.method req.payload)).Reaches done (.ret reply) ∧
      past' = past ++ (done.map coreEvent ++ [⟨.stamp, r.timestamp⟩]) ∧
      r = wire.response req reply r.timestamp) past := by
  have hacts : (processCall wire.codec (dispatch wire req.method req.payload)).Obeys
      (fun _ o ↦ FrontOp.ActsFor u (.core o)) (fun _ _ ↦ True) [] := processCall_actsFor _
  refine ((lift_records .refl hacts).mono ?_ fun _ _ h ↦ h).bind ?_
  · rintro _ _ ⟨o', rfl, hacts⟩
    exact ⟨rfl, hacts⟩
  · rintro past' reply ⟨done, rfl, hdone⟩
    refine ⟨⟨rfl, trivial⟩, fun s ↦ ⟨done, reply, by simpa using hdone, ?_, rfl⟩⟩
    rw [List.append_assoc]
    rfl

section Own

variable {req : DhtRequest} {method : WsMethod}

/-- One of the handler's own methods, done for `u` since `start`, answers as it should. -/
abbrev OwnAnswers (wire : Wire) (u : Bytes) (start past : FrontPast) (req : DhtRequest)
    (method : WsMethod) (p : Front DhtResponse) : Prop :=
  p.Obeys (fun _ o ↦ o.offSocket = true ∧ o.ActsFor u) (fun past' r ↦
    AnswersOwn wire req method r ∧
      ∃ es, past' = start ++ es ∧ (⟨.stamp, r.timestamp⟩ : Event FrontRes) ∈ es) past

variable {start : FrontPast}

theorem encodeError_answers (hm : wire.wsMethod req.method = some method) (message : String)
    (hstart : start <+: past) :
    OwnAnswers wire u start past req method (Front.encodeError message) := by
  obtain ⟨es, rfl⟩ := hstart
  refine ⟨⟨rfl, trivial⟩, fun s ↦ ⟨⟨hm, .inl ⟨message, rfl⟩⟩, _, List.append_assoc .., ?_⟩⟩
  exact List.mem_append_right _ (List.mem_singleton_self _)

theorem encodeResponse_answers (hm : wire.wsMethod req.method = some method) {requestId : Bytes}
    (hid : requestId = if method = .wsCheckOnline then req.requestId else []) (payload : Bytes)
    (hstart : start <+: past) : OwnAnswers wire u start past req method
      (Front.encodeResponse wire method requestId payload) := by
  subst hid
  obtain ⟨es, rfl⟩ := hstart
  refine ⟨⟨rfl, trivial⟩, fun s ↦ ⟨⟨hm, .inr ⟨payload, ?_⟩⟩, _, List.append_assoc .., ?_⟩⟩
  · rw [(wire.wsMethod_eq_some _ _).mp hm]
  · exact List.mem_append_right _ (List.mem_singleton_self _)

/-- An operation that is done in the name of `u`, and what follows. -/
theorem core_answers (o : Op) (ho : FrontOp.ActsFor u (.core o)) {k : Res o → Front DhtResponse}
    (hstart : start <+: past)
    (h : ∀ r past, start <+: past → OwnAnswers wire u start past req method (k r)) :
    OwnAnswers wire u start past req method (.perform (.core o) k) :=
  ⟨⟨rfl, ho⟩, fun r ↦ h r _ (hstart.trans (List.prefix_append _ _))⟩

theorem wsFileAvailable_answers (hm : wire.wsMethod req.method = some .wsFileAvailable)
    (payload : Bytes) : OwnAnswers wire u past past req .wsFileAvailable
      (Front.wsFileAvailable wire payload u) := by
  have hok {past' : FrontPast} (hstart : past <+: past') :
      OwnAnswers wire u past past' req .wsFileAvailable (Front.encodeOk wire .wsFileAvailable []) :=
    encodeResponse_answers hm rfl _ hstart
  unfold Front.wsFileAvailable
  cases wire.wsFileAvailableRequest payload with
  | error e => exact hok List.prefix_rfl
  | ok frame =>
      dsimp only
      cases parseTransferId frame.transferId with
      | none => exact hok List.prefix_rfl
      | some tid =>
          exact core_answers (.relayRegister tid u) rfl List.prefix_rfl fun _ _ hstart ↦ hok hstart

theorem wsFileChunkRequest_answers (hm : wire.wsMethod req.method = some .wsFileChunkRequest)
    (payload : Bytes) : OwnAnswers wire u past past req .wsFileChunkRequest
      (Front.wsFileChunkRequest wire payload u) := by
  unfold Front.wsFileChunkRequest
  cases wire.wsFileChunkRequest payload with
  | error e => exact encodeError_answers hm _ List.prefix_rfl
  | ok frame =>
      dsimp only
      cases parseTransferId frame.transferId with
      | none => exact encodeError_answers hm _ List.prefix_rfl
      | some tid =>
          refine core_answers (.relayGetSender tid) trivial List.prefix_rfl
            fun sender past hstart ↦ ?_
          cases sender with
          | none => exact encodeError_answers hm _ hstart
          | some sender =>
              refine core_answers .clock trivial hstart fun now past hstart ↦
                core_answers (.sendToUser sender _) ?_ hstart fun _ past hstart ↦
                  encodeResponse_answers hm rfl _ hstart
              -- the notification carries the hash of the connection, not that of the frame
              rintro q ⟨⟩
              rfl

theorem wsFileChunk_answers (hm : wire.wsMethod req.method = some .wsFileChunk) (payload : Bytes) :
    OwnAnswers wire u past past req .wsFileChunk (Front.wsFileChunk wire payload) := by
  unfold Front.wsFileChunk
  cases wire.wsFileChunkResponse payload with
  | error e => exact encodeError_answers hm _ List.prefix_rfl
  | ok chunk =>
      dsimp only
      split
      · exact encodeError_answers hm _ List.prefix_rfl
      · refine core_answers .clock trivial List.prefix_rfl fun now past hstart ↦
          core_answers (.sendToUser chunk.recipientHash _) ?_ hstart fun _ past hstart ↦
            encodeResponse_answers hm rfl _ hstart
        rintro q ⟨⟩

theorem wsCheckOnline_answers (hm : wire.wsMethod req.method = some .wsCheckOnline)
    (payload : Bytes) : OwnAnswers wire u past past req .wsCheckOnline
      (Front.wsCheckOnline wire payload req.requestId) := by
  unfold Front.wsCheckOnline
  cases wire.wsCheckOnlineRequest payload with
  | error e => exact encodeError_answers hm _ List.prefix_rfl
  | ok frame =>
      exact core_answers (.isConnected frame.targetHash) trivial List.prefix_rfl
        fun online _ hstart ↦ encodeResponse_answers hm rfl _ hstart

end Own

/-- What a connection does for a frame answers the frame. -/
theorem processWsRequest_answers (data : Bytes) : (Front.processWsRequest wire data u).Obeys
    (fun _ o ↦ o.offSocket = true ∧ o.ActsFor u) (fun past' r ↦ ∃ es, past' = past ++ es ∧
      AnswersFrame wire data es r ∧ (⟨.stamp, r.timestamp⟩ : Event FrontRes) ∈ es) past := by
  unfold Front.processWsRequest
  cases hdecode : wire.dhtRequest data with
  | error e =>
      refine ⟨⟨rfl, trivial⟩, fun s ↦ ⟨_, rfl, .malformed hdecode rfl, ?_⟩⟩
      exact List.mem_singleton_self _
  | ok req =>
      dsimp only
      have hown {method : WsMethod} {p : Front DhtResponse}
          (h : OwnAnswers wire u past past req method p) :
          p.Obeys (fun _ o ↦ o.offSocket = true ∧ o.ActsFor u) (fun past' r ↦
            ∃ es, past' = past ++ es ∧ AnswersFrame wire data es r ∧
              (⟨.stamp, r.timestamp⟩ : Event FrontRes) ∈ es) past :=
        h.mono (fun _ _ hg ↦ hg) fun _ _ ⟨hr, es, hpast, hs⟩ ↦ ⟨es, hpast, .own hdecode hr, hs⟩
      cases hm : wire.wsMethod req.method with
      | none =>
          refine (processRequest_answers req).mono (fun _ _ hg ↦ hg) ?_
          rintro past' r ⟨done, reply, hdone, hpast, hr⟩
          refine ⟨_, hpast, .dispatched hdecode hm hdone rfl hr, ?_⟩
          exact List.mem_append_right _ (List.mem_singleton_self _)
      | some method =>
          cases method with
          | wsFileAvailable => exact hown (wsFileAvailable_answers hm _)
          | wsFileChunkRequest => exact hown (wsFileChunkRequest_answers hm _)
          | wsFileChunk => exact hown (wsFileChunk_answers hm _)
          | wsCheckOnline => exact hown (wsCheckOnline_answers hm _)

/-! ## The loop -/

/-- Where the connection of `u` stands between two rounds. -/
structure AtRest (wire : Wire) (u : Bytes) (session : Session) (past : FrontPast) : Prop where
  admitted : Entered u session past
  settled : (socketDialogue wire).Owes past none

/-- An answer settles what is owed. -/
theorem send_proper {i : Incoming} {es : FrontPast} {m : WireMessage} (ha : Entered u session past)
    (ho : (socketDialogue wire).Owes past (some (i, es))) (hm : AnswersIncoming wire i es m) :
    SocketGuard wire past (.send m) ∧ ∀ sent, AtRest wire u session (past ++ [⟨.send m, sent⟩]) := by
  refine ⟨.inr ⟨u, session, ha, trivial, fun hreads ↦ hreads.elim, ?_⟩, fun sent ↦ ⟨?_, ?_⟩⟩
  · rintro _ ⟨⟩
    exact ⟨i, es, ho, hm⟩
  · exact ha.mono (List.prefix_append _ _)
  · exact ho.write rfl rfl hm

theorem wsLoop_proper (n : Nat) {rx : Receiver} (h : AtRest wire u session past) :
    (Front.wsLoop wire u n rx).Obeys (SocketGuard wire) (fun past' _ ↦ Entered u session past')
      past := by
  induction n generalizing past rx with
  | zero =>
      refine ⟨.inr ⟨u, session, h.admitted, trivial, turn_of_offSocket rfl⟩, fun impossible ↦ ?_⟩
      cases impossible
  | succ n ih =>
      have hsend {past es : FrontPast} {i : Incoming} {m : WireMessage} (rx : Receiver)
          (ha : Entered u session past) (ho : (socketDialogue wire).Owes past (some (i, es)))
          (hm : AnswersIncoming wire i es m) :
          ((Program.call (FrontOp.send m) : Front Bool) >>= fun sent ↦
            if sent then Front.wsLoop wire u n rx else pure ()).Obeys (SocketGuard wire)
            (fun past' _ ↦ Entered u session past') past := by
        obtain ⟨hguard, hidle⟩ := send_proper ha ho hm
        refine ⟨hguard, fun sent ↦ ?_⟩
        cases sent with
        | true => exact ih (hidle true)
        | false => exact (hidle false).admitted
      unfold Front.wsLoop
      refine ⟨.inr ⟨u, session, h.admitted, trivial, fun _ ↦ h.settled, ?_⟩, fun input ↦ ?_⟩
      · rintro _ ⟨⟩
      have ha : Entered u session (past ++ [⟨.select rx, input⟩]) :=
        h.admitted.mono (List.prefix_append _ _)
      have hquiet (hi : input.incoming = none) :
          (socketDialogue wire).Owes (past ++ [⟨.select rx, input⟩]) none :=
        h.settled.quiet ⟨hi, rfl⟩
      have hread {i : Incoming} (hi : input.incoming = some i) :
          (socketDialogue wire).Owes (past ++ [⟨.select rx, input⟩]) (some (i, [])) :=
        h.settled.read hi rfl
      cases input with
      | socket frame =>
          cases frame with
          | binary data =>
              refine (proper_of_offSocket (processWsRequest_answers data) ha (hread rfl)).bind ?_
              rintro past' r ⟨⟨es, rfl, hr, hs⟩, ha, es', hes', ho⟩
              obtain rfl := List.append_cancel_left hes'
              exact hsend rx ha ho (.frame hr hs)
          | ping data => exact hsend rx ha (hread rfl) (.ping data)
          | other => exact ih ⟨ha, hquiet rfl⟩
          | close => exact ha
          | error => exact ha
          | eof => exact ha
      | broadcast r next =>
          cases r with
          | ok msg => exact hsend _ ha (hread rfl) (.notification msg.payload)
          | lagged k => exact ih ⟨ha, hquiet rfl⟩
          | closed => exact ha

/-- A frame of more than a user hash is a user hash and a token. -/
theorem take_of_lt {data : Bytes} (h : ¬ data.length ≤ userHashSize) :
    (data.take userHashSize).length = userHashSize ∧ data.drop userHashSize ≠ [] := by
  constructor
  · rw [List.length_take]
    omega
  · intro hnil
    have := List.length_drop (i := userHashSize) (l := data)
    rw [hnil, List.length_nil] at this
    omega

/-- A connection is admitted by the session it has found, or does nothing. -/
theorem authenticate_proper : Front.authenticate.Obeys (SocketGuard wire)
    (fun past' a ↦ ∀ u, a = some u → ∃ session, AtRest wire u session past') [] := by
  unfold Front.authenticate
  refine ⟨.inl rfl, fun frame ↦ ?_⟩
  have hnone {past : FrontPast} : (pure none : Front (Option Bytes)).Obeys (SocketGuard wire)
      (fun past' a ↦ ∀ u, a = some u → ∃ session, AtRest wire u session past') past := by
    rintro u ⟨⟩
  cases frame with
  | none => exact hnone
  | some frame =>
      cases frame with
      | binary data =>
          show Program.Obeys _ _ _ (if data.length ≤ userHashSize then _ else _)
          split
          · exact hnone
          next hlen =>
            refine ⟨.inl rfl, fun r ↦ ?_⟩
            cases r with
            | error e => exact hnone
            | ok session =>
                refine ⟨.inl rfl, fun now ↦ ?_⟩
                show Program.Obeys _ _ _ (if decide ((now : Int) < session.sessionExpiry) then _ else _)
                split
                next hnow =>
                  rintro u ⟨⟩
                  obtain ⟨hu, htoken⟩ := take_of_lt hlen
                  refine ⟨session, ⟨⟨_, now, [], ?_, hu, htoken, of_decide_eq_true hnow⟩, ?_⟩⟩
                  · rw [List.take_append_drop]
                    rfl
                  · exact (((Dialogue.Owes.nil.quiet ⟨rfl, rfl⟩).quiet ⟨rfl, rfl⟩).quiet ⟨rfl, rfl⟩)
                · exact hnone
      | ping data => exact hnone
      | close => exact hnone
      | error => exact hnone
      | eof => exact hnone
      | other => exact hnone

theorem handleWebsocket_proper (n : Nat) :
    (Front.handleWebsocket wire n).Obeys (SocketGuard wire) (fun _ _ ↦ True) [] := by
  unfold Front.handleWebsocket
  refine authenticate_proper.bind fun past' a ha ↦ ?_
  cases a with
  | none => exact ⟨.inl rfl, fun _ ↦ trivial⟩
  | some u =>
      obtain ⟨session, hadm, hset⟩ := ha u rfl
      have hproper {o : Op} {past : FrontPast} (ho : FrontOp.ActsFor u (.core o))
          (ha : Entered u session past) : SocketGuard wire past (.core o) :=
        .inr ⟨u, session, ha, ho, turn_of_offSocket rfl⟩
      refine ⟨hproper rfl hadm, fun rx ↦ ?_⟩
      have hidle : AtRest wire u session (past' ++ [⟨.core (.register u), rx⟩]) :=
        ⟨hadm.mono (List.prefix_append _ _), hset.quiet ⟨rfl, rfl⟩⟩
      refine (wsLoop_proper n hidle).bind fun past a ha ↦ ?_
      refine ⟨hproper trivial ha, fun _ ↦ ?_⟩
      have ha := ha.mono (List.prefix_append past [⟨.core (.unregister u), ()⟩])
      refine ⟨hproper rfl ha, fun _ ↦ ?_⟩
      exact ⟨hproper trivial (ha.mono (List.prefix_append _ _)), fun _ ↦ trivial⟩

end Programs

/-! ## Runs -/

section Run

variable {wire : Wire} {verifyDetached : Bytes → Bytes → Bytes → Bool} {w : World}
variable {ms' : FrontMoves} {c' : FrontState} {t n : Nat} {rest : Front (Option HttpAnswer)}

theorem websocket_proper (n : Nat) :
    (frontCode wire (.websocket n)).Obeys (SocketGuard wire) (fun _ _ ↦ True) [] :=
  (handleWebsocket_proper n).bind fun _ _ _ ↦ trivial

/-- What a connection does, it converses by. -/
theorem SocketGuard.turn {past : FrontPast} {o : FrontOp} (h : SocketGuard wire past o) :
    (socketDialogue wire).Guard FrontOp.Reads FrontOp.writes past o := by
  rcases h with hdoor | ⟨u, session, hproper⟩
  · constructor
    · intro hreads
      cases o with
      | select rx => cases hdoor
      | _ => cases hreads
    · intro m hm
      cases o with
      | send m => cases hdoor
      | _ => cases hm
  · exact hproper.turn

/-- **Every answer has its place.**  In every run, what a connection has written answers what it
has read, one by one and in order: a frame by one response, a ping by a pong with the same data, a
notification by itself.  At most the last input is not answered, and none is when the connection
reads on.  The response to a request bears its method and request id and wraps the reply of the
dispatcher to the operations performed between the frame and the response; the handler's own methods
answer under their method, and with a request id only where they look for a user. -/
theorem socket_answers (h : (front wire verifyDetached).run (.start w) ms' = some c')
    (ht : c'.pool[t]? = some ⟨.websocket n, rest⟩) :
    (∃ owed, (socketDialogue wire).Owes (past t c'.trace) owed ∧
      (socketDialogue wire).InOrder (past t c'.trace) (owed.map Prod.fst).toList) ∧
    ∀ rx k, rest = .perform (.select rx) k →
      (socketDialogue wire).Owes (past t c'.trace) none := by
  have hreaches := (Machine.traced_of_run h).1 t _ ht
  have hproper : (frontCode wire (.websocket n)).Obeys
      ((socketDialogue wire).Guard FrontOp.Reads FrontOp.writes) (fun _ _ ↦ True) [] :=
    (websocket_proper n).mono (fun _ _ hg ↦ hg.turn) fun _ _ hp ↦ hp
  have howes : ∃ owed, (socketDialogue wire).Owes (past t c'.trace) owed := by
    refine Dialogue.owes_of_reaches ?_ ?_ hproper hreaches
    · rintro ⟨o, r⟩ i hi
      cases o with
      | select rx => exact ⟨trivial, rfl⟩
      | _ => cases hi
    · rintro ⟨o, r⟩ m hm
      cases o with
      | send m' => exact hm
      | _ => cases hm
  obtain ⟨owed, howed⟩ := howes
  refine ⟨⟨owed, howed, howed.inOrder⟩, ?_⟩
  rintro rx k rfl
  exact (hreaches.obeys hproper).1.1 trivial

/-- The messages that user 1 signs. -/
def Sample.socketSigned : List (Bytes × Bytes) := [(key 1, word 8 ++ word 1 ++ le64 5)]

theorem socket_answers_socketRun : ∃ c' rest,
    Sample.frontFinal Sample.socketSigned Sample.socketRun = some c' ∧
    c'.pool[3]? = some ⟨.websocket 3, rest⟩ ∧
    (past 3 c'.trace).filterMap incomingOf =
      [.ping [7], .frame [1, 2], .frame (103 :: Sample.word 1)] ∧
    ∃ owed, (socketDialogue Sample.wire).Owes (past 3 c'.trace) owed ∧
      (socketDialogue Sample.wire).InOrder (past 3 c'.trace) (owed.map Prod.fst).toList := by
  have hrun : ((Sample.frontFinal Sample.socketSigned Sample.socketRun).map fun c' ↦
      (c'.pool[3]?.map Thread.job, (past 3 c'.trace).filterMap incomingOf)) =
      some (some (.websocket 3), [.ping [7], .frame [1, 2], .frame (103 :: Sample.word 1)]) := by
    decide +kernel
  obtain ⟨c', hc', hfacts⟩ := Option.map_eq_some_iff.mp hrun
  obtain ⟨hjob, hin⟩ := Prod.mk.inj hfacts
  obtain ⟨⟨job, rest⟩, hpool, rfl⟩ := Option.map_eq_some_iff.mp hjob
  exact ⟨c', rest, hc', hpool, hin, (socket_answers hc' hpool).1⟩

/-- The statement of the front that reads a session, as an event of the server. -/
theorem mem_of_observed {c : State} {tr : List (Nat × Event FrontRes)} {token u : Bytes}
    {session : Session} (hseen : observed serverEvent c.trace = observed frontEvent tr)
    (he : (t, coreEvent ⟨.sql (.selectSession token u), .ok session⟩) ∈ tr) :
    ∃ i, (i, ⟨.sql (.selectSession token u), .ok session⟩) ∈ c.trace := by
  have hmem : (⟨.sql (.selectSession token u), .ok session⟩ : Event Res) ∈
      observed frontEvent tr := List.mem_filterMap.mpr ⟨_, he, rfl⟩
  rw [← hseen] at hmem
  obtain ⟨⟨i, o, r⟩, hi, ho⟩ := List.mem_filterMap.mp hmem
  refine ⟨i, ?_⟩
  cases o with
  | socketSend out => cases ho
  | _ =>
      rw [← Option.some.inj ho]
      exact hi

/-- **Nobody is served before a signature.**  In every run of the front from an empty database, a
connection does nothing but read its first frame, look the session up and look at the clock, until
it has read a session of `u` that has not expired, for the token it presented; and that session was
inserted by a LOGIN proof or a RECOVERY_CLAIM that had verified a signature of `u`.  From then on
whatever it does under a name it does under that of `u`. -/
theorem socket_admitted {clock instant : Nat}
    (h : (front wire verifyDetached).run (.start (.initial clock instant)) ms' = some c')
    (ht : c'.pool[t]? = some ⟨.websocket n, rest⟩) {before after : List (Nat × Event FrontRes)}
    {e : Event FrontRes} (htr : c'.trace = before ++ (t, e) :: after)
    (he : e.1.atDoor = false) :
    ∃ u session, Entered u session (past t before) ∧ e.1.ActsFor u ∧ session.userHashId = u ∧
      ∃ ms c earlier, (server wire.codec verifyDetached).run (.start (.initial clock instant)) ms =
          some c ∧ observed serverEvent c.trace = observed frontEvent before ∧
        earlier <+: c.trace ∧ SessionOrigin c earlier session := by
  obtain ⟨o, r⟩ := e
  obtain ⟨ms₁, ω, ms₂, c₁, j, k, w₂, rfl, h₁, rfl, ht₁, hp, hrun₂⟩ :=
    Machine.event_moment h htr (Nat.zero_le _)
  obtain rfl : j = .websocket n := by
    obtain ⟨hlt, -⟩ := List.getElem?_eq_some_iff.mp ht₁
    obtain ⟨th, hth, hjob⟩ := Machine.job_of_run hrun₂ (List.getElem?_set_self hlt)
    rw [ht] at hth
    obtain rfl := Option.some.inj hth
    exact hjob.symm
  have hguard := ((Machine.traced_of_run h₁).1 t _ ht₁).obeys (websocket_proper n)
  rcases hguard.1 with hdoor | ⟨u, session, hproper⟩
  · rw [he] at hdoor
    cases hdoor
  obtain ⟨token, now, tail, hpast, hu, htoken, hnow⟩ := hproper.admitted
  obtain ⟨ms, c, owner, hrun, hmatch⟩ := front_matches h₁
  have hseen := hmatch.observed
  have hread : (t, coreEvent ⟨.sql (.selectSession token u), .ok session⟩) ∈ c₁.trace := by
    rw [← mem_past, hpast]
    simp
  obtain ⟨i, hi⟩ := mem_of_observed hseen hread
  have hc : Reachable wire.codec verifyDetached c := ⟨clock, instant, ms, hrun⟩
  obtain ⟨pre, post, htr₁⟩ := List.append_of_mem hi
  obtain ⟨c₀, c₀', -, h₀, rfl, -, hsel, m, ms₀, hs, hrun₀⟩ := hc.executed htr₁
  obtain ⟨hmem, -, hhash⟩ := selectSession_sound hsel
  refine ⟨u, session, hproper.admitted, hproper.actsFor, hhash, ms, c, c₀.trace, hrun, hseen, ?_,
    h₀.session_origin hmem (hs.run_cons hrun₀)⟩
  rw [htr₁]
  exact List.prefix_append _ _

theorem socket_admitted_socketRun : ∃ c' before,
    Sample.frontFinal Sample.socketSigned Sample.socketRun = some c' ∧
    ∃ session, Entered (Sample.word 1) session (past 3 before) ∧
      ∃ ms c earlier, (server Sample.wire.codec (Sample.verify Sample.socketSigned)).run
          (.start (.initial 0 0)) ms = some c ∧
        observed serverEvent c.trace = observed frontEvent before ∧
        earlier <+: c.trace ∧ SessionOrigin c earlier session := by
  have hrun : ((Sample.frontFinal Sample.socketSigned Sample.socketRun).map fun c' ↦
      (c'.pool[3]?.map Thread.job,
        c'.trace.any fun e ↦ e.1 = 3 && e.2.1 = .core (.register (Sample.word 1)))) =
      some (some (.websocket 3), true) := by decide +kernel
  obtain ⟨c', hc', hfacts⟩ := Option.map_eq_some_iff.mp hrun
  obtain ⟨hjob, hreg⟩ := Prod.mk.inj hfacts
  obtain ⟨⟨job, rest⟩, hpool, rfl⟩ := Option.map_eq_some_iff.mp hjob
  obtain ⟨⟨t, o, rx⟩, hmem, he⟩ := List.any_eq_true.mp hreg
  simp only [Bool.and_eq_true, decide_eq_true_eq] at he
  obtain ⟨rfl, rfl⟩ := he
  obtain ⟨before, after, htr⟩ := List.append_of_mem hmem
  obtain ⟨u, session, hadm, hacts, -, horigin⟩ := socket_admitted hc' hpool htr rfl
  obtain rfl : Sample.word 1 = u := hacts
  exact ⟨c', before, hc', session, hadm, horigin⟩

end Run

end ZenthDht
