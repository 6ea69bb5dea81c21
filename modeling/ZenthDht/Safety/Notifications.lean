import ZenthDht.Data.Log
import ZenthDht.Safety.Connections

/-!
# Notifications reach their user in order

A connection reads the channel it was registered on from the place it was registered at, and
writes what it reads to its socket.  The channel belongs to one user for as long as it exists, and
only `send_to_user` for that user writes to it.  So what is delivered on a connection was sent to
its user after it was registered, in the same order and without repetition; and as long as the
channel is still the one in the map and the connection does not fall behind by more than the
capacity of the channel, nothing is missing (`notifications_in_order`).
-/

namespace ZenthDht

open Conc

/-! ## What a connection has received and delivered -/

/-- The payload a receiver returns. -/
def receivedOf : Event Res → Option WsNotification
  | ⟨.select _, .broadcast (.ok msg) _⟩ => some msg.payload
  | _ => none

/-- The notification written to a socket. -/
def deliveredOf : Event Res → Option WsNotification
  | ⟨.socketSend (.notification n), true⟩ => some n
  | _ => none

/-- The number of the message that a receiver reads next. -/
def positionOf : Event Res → Option Nat
  | ⟨.select _, .broadcast _ next⟩ => some next
  | _ => none

def received (past' : Past) : List WsNotification := past'.filterMap receivedOf

def delivered (past' : Past) : List WsNotification := past'.filterMap deliveredOf

/-- The position of the receiver that a connection was registered with. -/
def cursor (rx : Receiver) (past' : Past) : Nat := (past'.filterMap positionOf).getLast?.getD rx.next

/-- Nothing is received or delivered, and the receiver does not move. -/
structure Silent (e : Event Res) : Prop where
  received : receivedOf e = none
  delivered : deliveredOf e = none
  position : positionOf e = none

section Events

variable {rx : Receiver} {past' : Past} {e : Event Res}

theorem received_snoc : received (past' ++ [e]) = received past' ++ (receivedOf e).toList := by
  rw [received, List.filterMap_append]
  cases h : receivedOf e <;> simp [received, h]

theorem delivered_snoc : delivered (past' ++ [e]) = delivered past' ++ (deliveredOf e).toList := by
  rw [delivered, List.filterMap_append]
  cases h : deliveredOf e <;> simp [delivered, h]

theorem cursor_snoc : cursor rx (past' ++ [e]) = (positionOf e).getD (cursor rx past') := by
  unfold cursor
  rw [List.filterMap_append]
  cases h : positionOf e <;> simp [h]

theorem Silent.received_snoc (h : Silent e) : ZenthDht.received (past' ++ [e]) =
    ZenthDht.received past' := by
  simp [ZenthDht.received_snoc, h.received]

theorem Silent.delivered_snoc (h : Silent e) : ZenthDht.delivered (past' ++ [e]) =
    ZenthDht.delivered past' := by
  simp [ZenthDht.delivered_snoc, h.delivered]

theorem Silent.cursor_snoc (h : Silent e) : cursor rx (past' ++ [e]) = cursor rx past' := by
  simp [ZenthDht.cursor_snoc, h.position]

theorem received_of_silent (h : ∀ e ∈ past', Silent e) : received past' = [] :=
  List.filterMap_eq_nil_iff.mpr fun e he ↦ (h e he).received

theorem delivered_of_silent (h : ∀ e ∈ past', Silent e) : delivered past' = [] :=
  List.filterMap_eq_nil_iff.mpr fun e he ↦ (h e he).delivered

theorem cursor_of_silent (h : ∀ e ∈ past', Silent e) : cursor rx past' = rx.next := by
  have hnone : past'.filterMap positionOf = [] :=
    List.filterMap_eq_nil_iff.mpr fun e he ↦ (h e he).position
  simp [cursor, hnone]

end Events

/-! ## The order of a connection -/

variable {codec : Codec} {verifyDetached : Bytes → Bytes → Bytes → Bool}
variable {c c' c₁ c₂ : State} {m : Move Job Oracle Act} {ms : Moves} {t : Nat}
variable {u : Bytes} {rx rx₀ : Receiver} {past' : Past}

/-- A connection delivers what it has received, and its receiver is where its past has left it. -/
def DeliveryOrder (past' : Past) (o : Op) : Prop :=
  delivered past' <+: received past' ∧ ∀ rx, o = .select rx →
    ∃ u rx₀, Did past' (.register u) rx₀ ∧ rx = ⟨rx₀.channel, cursor rx₀ past'⟩

/-- At the head of the loop everything received has been delivered. -/
structure Tracks (u : Bytes) (rx₀ rx : Receiver) (past' : Past) : Prop where
  registered : Did past' (.register u) rx₀
  receiver : rx = ⟨rx₀.channel, cursor rx₀ past'⟩
  all : delivered past' = received past'

theorem Tracks.silent {e : Event Res} (h : Tracks u rx₀ rx past') (he : Silent e) :
    Tracks u rx₀ rx (past' ++ [e]) :=
  ⟨did_append.mpr (.inl h.registered), by rw [he.cursor_snoc]; exact h.receiver,
    by rw [he.delivered_snoc, he.received_snoc, h.all]⟩

theorem Tracks.order (h : Tracks u rx₀ rx past') {o : Op} (ho : ∀ rx, o ≠ .select rx) :
    DeliveryOrder past' o := by
  exact ⟨h.all ▸ List.prefix_rfl, fun rx hrx ↦ absurd hrx (ho rx)⟩

/-- A silent operation of the loop. -/
theorem obeys_silent {α : Type} {post : Past → α → Prop} {o : Op} {f : Res o → Handler α}
    (h : Tracks u rx₀ rx past') (ho : ∀ rx, o ≠ .select rx) (hsilent : ∀ r, Silent ⟨o, r⟩)
    (hf : ∀ r past, Tracks u rx₀ rx past → (f r).Obeys DeliveryOrder post past) :
    (Program.call o >>= f).Obeys DeliveryOrder post past' :=
  ⟨h.order ho, fun r ↦ hf r _ (h.silent (hsilent r))⟩

/-- The requests a connection answers itself are no deliveries. -/
theorem processWsRequest_delivery (data v : Bytes) (h : Tracks u rx₀ rx past') :
    (processWsRequest codec data v).Obeys DeliveryOrder
      (fun past out ↦ Tracks u rx₀ rx past ∧ ∀ n, out ≠ .notification n) past' := by
  unfold processWsRequest
  split
  · exact ⟨h, nofun⟩
  · unfold wsFileAvailable
    split
    · exact obeys_silent h nofun (fun _ ↦ ⟨rfl, rfl, rfl⟩) fun _ _ h ↦ ⟨h, nofun⟩
    · exact ⟨h, nofun⟩
  · unfold wsFileChunkRequest
    split
    · exact ⟨h, nofun⟩
    split
    · exact ⟨h, nofun⟩
    refine obeys_silent h nofun (fun _ ↦ ⟨rfl, rfl, rfl⟩) fun r past h ↦ ?_
    split
    · exact ⟨h, nofun⟩
    · refine obeys_silent (o := .clock) h nofun (fun _ ↦ ⟨rfl, rfl, rfl⟩) fun r past h ↦ ?_
      exact obeys_silent h nofun (fun _ ↦ ⟨rfl, rfl, rfl⟩) fun _ _ h ↦ ⟨h, nofun⟩
  · unfold wsFileChunk
    split
    · exact ⟨h, nofun⟩
    split
    · exact ⟨h, nofun⟩
    · refine obeys_silent (o := .clock) h nofun (fun _ ↦ ⟨rfl, rfl, rfl⟩) fun r past h ↦ ?_
      exact obeys_silent h nofun (fun _ ↦ ⟨rfl, rfl, rfl⟩) fun _ _ h ↦ ⟨h, nofun⟩
  · unfold wsCheckOnline
    split
    · exact ⟨h, nofun⟩
    · exact obeys_silent h nofun (fun _ ↦ ⟨rfl, rfl, rfl⟩) fun _ _ h ↦ ⟨h, nofun⟩
  · exact ⟨h, nofun⟩

theorem wsLoop_delivery (rounds : Nat) (h : Tracks u rx₀ rx past') :
    (wsLoop codec u rounds rx).Obeys DeliveryOrder
      (fun past _ ↦ Did past (.register u) rx₀ ∧ delivered past <+: received past) past' := by
  induction rounds generalizing rx past' with
  | zero => exact ⟨h.order (by simp), fun r ↦ by cases r⟩
  | succ rounds ih =>
      -- an answer or a pong
      have hanswer (out : WsOutput) (hout : ∀ n, out ≠ .notification n) {past : Past}
          (h : Tracks u rx₀ rx past) :
          ((Program.call (Op.socketSend out) : Handler Bool) >>= fun b ↦
            if b then wsLoop codec u rounds rx else pure ()).Obeys DeliveryOrder
            (fun past _ ↦ Did past (.register u) rx₀ ∧ delivered past <+: received past) past := by
        refine obeys_silent h (by simp) (fun r ↦ ⟨rfl, ?_, rfl⟩) fun b past h ↦ ?_
        · cases out with
          | notification n => exact absurd rfl (hout n)
          | _ => rfl
        split
        · exact ih h
        · exact ⟨h.registered, h.all ▸ List.prefix_rfl⟩
      have hfront {past : Past} (h : delivered past = received past) :
          delivered past <+: received past := h ▸ List.prefix_rfl
      unfold wsLoop
      refine ⟨⟨hfront h.all, fun rx' hrx ↦ ?_⟩, fun input ↦ ?_⟩
      · obtain rfl := Op.select.inj hrx
        exact ⟨u, rx₀, h.registered, h.receiver⟩
      have hreg : Did (past' ++ [⟨.select rx, input⟩]) (.register u) rx₀ :=
        did_append.mpr (.inl h.registered)
      cases input with
      | socket f =>
          have hsocket : Tracks u rx₀ rx (past' ++ [⟨.select rx, .socket f⟩]) :=
            h.silent ⟨rfl, rfl, rfl⟩
          cases f with
          | binary data =>
              refine (processWsRequest_delivery data u hsocket).bind fun past out hp ↦ ?_
              exact hanswer out hp.2 hp.1
          | ping => exact hanswer .pong (by simp) hsocket
          | close | error | eof => exact ⟨hreg, hfront hsocket.all⟩
          | other => exact ih hsocket
      | broadcast r next =>
          have hcursor : cursor rx₀ (past' ++ [⟨.select rx, .broadcast r next⟩]) = next :=
            cursor_snoc
          have hrx : ({ rx with next } : Receiver) =
              ⟨rx₀.channel, cursor rx₀ (past' ++ [⟨.select rx, .broadcast r next⟩])⟩ := by
            rw [hcursor, h.receiver]
          cases r with
          | ok msg =>
              have hgot : received (past' ++ [⟨.select rx, .broadcast (.ok msg) next⟩]) =
                  delivered (past' ++ [⟨.select rx, .broadcast (.ok msg) next⟩]) ++
                    [msg.payload] := by
                rw [received_snoc, delivered_snoc, h.all]
                simp [receivedOf, deliveredOf]
              refine ⟨⟨hgot ▸ List.prefix_append _ _, by simp⟩, fun sent ↦ ?_⟩
              cases sent with
              | true =>
                  refine ih ⟨did_append.mpr (.inl hreg), ?_, ?_⟩
                  · rw [hrx, cursor_snoc (e := ⟨.socketSend (.notification msg.payload), true⟩)]
                    rfl
                  · rw [delivered_snoc, received_snoc, hgot]
                    simp [receivedOf, deliveredOf]
              | false =>
                  refine ⟨did_append.mpr (.inl hreg), ?_⟩
                  rw [delivered_snoc, received_snoc, hgot]
                  simp [receivedOf, deliveredOf]
          | lagged missed =>
              refine ih ⟨hreg, hrx, ?_⟩
              rw [delivered_snoc, received_snoc, h.all]
              rfl
          | closed =>
              refine ⟨hreg, hfront ?_⟩
              rw [delivered_snoc, received_snoc, h.all]
              rfl

/-- A silent operation before the connection is registered. -/
theorem obeys_silently {α : Type} {post : Past → α → Prop} {o : Op} {f : Res o → Handler α}
    (h : ∀ e ∈ past', Silent e) (ho : ∀ rx, o ≠ .select rx) (hsilent : ∀ r, Silent ⟨o, r⟩)
    (hf : ∀ r past, (∀ e ∈ past, Silent e) → (f r).Obeys DeliveryOrder post past) :
    (Program.call o >>= f).Obeys DeliveryOrder post past' := by
  refine ⟨⟨?_, fun rx hrx ↦ absurd hrx (ho rx)⟩, fun r ↦ hf r _ fun e he ↦ ?_⟩
  · rw [delivered_of_silent h]
    exact List.nil_prefix
  · rcases List.mem_append.mp he with he | he
    · exact h e he
    · obtain rfl := List.mem_singleton.mp he
      exact hsilent r

theorem authenticate_delivery :
    authenticate.Obeys DeliveryOrder (fun past _ ↦ ∀ e ∈ past, Silent e) [] := by
  unfold authenticate verifySessionToken
  refine obeys_silently (fun _ he ↦ nomatch he) nofun (fun _ ↦ ⟨rfl, rfl, rfl⟩) fun frame past h ↦ ?_
  split
  · split
    · exact h
    refine (Program.obeys_bind _ _).mpr
      (obeys_silently h nofun (fun _ ↦ ⟨rfl, rfl, rfl⟩) fun r past h ↦ ?_)
    cases r with
    | error e => exact h
    | ok session =>
        refine obeys_silently (o := .clock) h nofun (fun _ ↦ ⟨rfl, rfl, rfl⟩) fun now past h ↦ ?_
        change Program.Obeys _ _ _ (if decide ((now : Int) < session.sessionExpiry) then _ else _)
        split
        · exact h
        · exact h
  · exact h

theorem handleWebsocket_delivery (rounds : Nat) :
    (handleWebsocket codec rounds).Obeys DeliveryOrder
      (fun past _ ↦ delivered past <+: received past) [] := by
  unfold handleWebsocket
  refine authenticate_delivery.bind fun past r h ↦ ?_
  cases r with
  | none =>
      change delivered past <+: received past
      rw [delivered_of_silent h]
      exact List.nil_prefix
  | some u =>
  refine ⟨⟨?_, by simp⟩, fun rx ↦ ?_⟩
  · rw [delivered_of_silent h]
    exact List.nil_prefix
  have hsilent : Silent ⟨.register u, rx⟩ := ⟨rfl, rfl, rfl⟩
  have htracks : Tracks u rx rx (past ++ [⟨.register u, rx⟩]) := by
    refine ⟨by simp [Did], ?_, ?_⟩
    · rw [hsilent.cursor_snoc, cursor_of_silent h]
    · rw [hsilent.delivered_snoc, hsilent.received_snoc, delivered_of_silent h,
        received_of_silent h]
  refine (wsLoop_delivery rounds htracks).bind fun past _ hp ↦ ?_
  -- nothing is received or delivered while the connection is taken down
  have hdown {past : Past} {e : Event Res} (h : delivered past <+: received past) (he : Silent e) :
      delivered (past ++ [e]) <+: received (past ++ [e]) := by
    rwa [he.delivered_snoc, he.received_snoc]
  have h₁ := hdown (e := ⟨.unregister u, ()⟩) hp.2 ⟨rfl, rfl, rfl⟩
  have h₂ := hdown (e := ⟨.relayUnregisterBySender u, ()⟩) h₁ ⟨rfl, rfl, rfl⟩
  have h₃ := hdown (e := ⟨.dropReceiver rx, ()⟩) h₂ ⟨rfl, rfl, rfl⟩
  exact ⟨⟨hp.2, by simp⟩, fun _ ↦ ⟨⟨h₁, by simp⟩, fun _ ↦ ⟨⟨h₂, by simp⟩, fun _ ↦ h₃⟩⟩⟩

theorem code_delivery (codec : Codec) (job : Job) :
    (code codec job).Obeys (fun past o ↦ ∀ rounds, job = .websocket rounds → DeliveryOrder past o)
      (fun past _ ↦ ∀ rounds, job = .websocket rounds → delivered past <+: received past) [] := by
  by_cases hws : ∃ rounds, job = .websocket rounds
  · obtain ⟨rounds, rfl⟩ := hws
    have hjob : (code codec (.websocket rounds)).Obeys DeliveryOrder
        (fun past _ ↦ delivered past <+: received past) [] :=
      (handleWebsocket_delivery rounds).bind fun _ _ h ↦ h
    exact hjob.mono (fun _ _ h _ _ ↦ h) fun _ _ h _ _ ↦ h
  · exact Program.obeys_of_forall _ (fun _ _ rounds hjob ↦ absurd ⟨rounds, hjob⟩ hws)
      fun _ _ rounds hjob ↦ absurd ⟨rounds, hjob⟩ hws

/-- A thread that has registered a connection is that of a connection. -/
theorem Reachable.websocket (h : Reachable codec verifyDetached c)
    (hreg : (t, ⟨.register u, rx⟩) ∈ c.trace) : ∃ rounds, Runs c t (.websocket rounds) := by
  obtain ⟨clock, instant, ms, h⟩ := h
  obtain ⟨q, hq⟩ := List.getElem?_of_mem hreg
  obtain ⟨job, hj, ⟨rounds, rfl⟩, -⟩ := guard_at (code_obeys codec) h hq
  exact ⟨rounds, hj⟩

/-- A connection that is about to perform an operation does so in order. -/
theorem Reachable.deliveryOrder {job : Job} {o : Op} {k : Res o → Handler (Option Reply)}
    (h : Reachable codec verifyDetached c) (hreg : (t, ⟨.register u, rx⟩) ∈ c.trace)
    (ht : c.pool[t]? = some ⟨job, .perform o k⟩) : DeliveryOrder (past t c.trace) o := by
  obtain ⟨rounds, hj⟩ := h.websocket hreg
  obtain rfl := hj.unique ⟨_, ht⟩
  obtain ⟨clock, instant, ms, h⟩ := h
  exact Machine.guard_of_run (code_delivery codec) h ht rounds rfl

/-- Wherever a connection is, it has delivered what it has received, but for the last. -/
theorem Reachable.delivered_prefix (h : Reachable codec verifyDetached c)
    (hreg : (t, ⟨.register u, rx⟩) ∈ c.trace) :
    delivered (past t c.trace) <+: received (past t c.trace) := by
  obtain ⟨rounds, rest, ht⟩ := h.websocket hreg
  obtain ⟨clock, instant, ms, h⟩ := h
  cases rest with
  | ret a => exact Machine.post_of_run (code_delivery codec) h ht rounds rfl
  | perform o k => exact (Machine.guard_of_run (code_delivery codec) h ht rounds rfl).1

/-! ## What is sent -/

/-- The payload that a move passes to `send_to_user` for the user `u`. -/
def sendsTo (u : Bytes) (c : State) : Move Job Oracle Act → Option WsNotification
  | .step t _ =>
    match c.performs t with
    | some (_, .sendToUser v n) => if v = u then some n else none
    | _ => none
  | .act (.runSpawned i) => (c.world.spawned[i]?).bind fun p ↦ if p.1 = u then some p.2 else none
  | _ => none

namespace ConnectionManager

variable {cm : ConnectionManager} {v : Bytes} {n : WsNotification} {ch : Nat}

/-- The payloads sent on a channel. -/
def payloads (cm : ConnectionManager) (ch : Nat) : List WsNotification :=
  (cm.logOf ch).map BroadcastMessage.payload

theorem payloads_modify (ch ch' : Nat) (f : Channel → Channel) (hf : ∀ x, (f x).log = x.log) :
    payloads { cm with channels := cm.channels.modify ch f } ch' = cm.payloads ch' := by
  unfold payloads logOf
  rw [List.getElem?_modify]
  cases cm.channels[ch']? with
  | none => rfl
  | some x =>
      simp only [Option.map_eq_map, Option.map_some, Option.getD_some]
      split
      · rw [hf]
      · rfl

theorem payloads_register : (cm.register v).2.payloads ch = cm.payloads ch := by
  unfold register
  split
  · exact payloads_modify _ _ _ fun _ ↦ rfl
  · unfold payloads logOf
    dsimp only
    rw [List.getElem?_append]
    split
    · rfl
    next hlt =>
      rw [List.getElem?_eq_none (not_lt.mp hlt)]
      cases ch - cm.channels.length <;> rfl

theorem payloads_unregister : (cm.unregister v).payloads ch = cm.payloads ch := by
  unfold unregister
  split
  · exact payloads_modify _ _ _ fun _ ↦ rfl
  · rfl

/-- A send to a user is appended to the user's channel, if that has a receiver. -/
theorem payloads_sendToUser : (cm.sendToUser v n).2.payloads ch = cm.payloads ch ++
    if cm.connections v = some ch ∧ cm.receiversOf ch ≠ 0 then [n] else [] := by
  unfold sendToUser
  split
  next ch' hv =>
    rw [hv]
    by_cases hch : ch' = ch
    · subst hch
      change (if cm.receiversOf ch' = 0 then _ else _ : Bool × ConnectionManager).2.payloads ch' = _
      by_cases h : cm.receiversOf ch' = 0
      · simp [h]
      · rw [if_neg h, if_pos ⟨rfl, h⟩]
        cases hx : cm.channels[ch']? with
        | none => exact absurd (by simp [receiversOf, hx]) h
        | some x => simp [payloads, logOf, hx]
    · have hno : ¬ (some ch' = some ch ∧ cm.receiversOf ch ≠ 0) := fun h ↦
        hch (Option.some.inj h.1)
      rw [if_neg hno, List.append_nil]
      split
      · rfl
      · unfold payloads logOf
        simp [List.getElem?_modify, if_neg hch]
  next hv =>
    rw [if_neg (by simp [hv]), List.append_nil]

/-- What a receiver returns, by the payloads of its channel. -/
theorem recv_cases {rx : Receiver} {r : RecvResult} {next : Nat}
    (h : cm.recv rx = some (r, next)) :
    (∃ msg, r = .ok msg ∧ next = rx.next + 1 ∧
      (cm.payloads rx.channel)[rx.next]? = some msg.payload) ∨
    (∃ missed, r = .lagged missed ∧ rx.next ≤ next ∧ next ≤ (cm.payloads rx.channel).length ∧
      broadcastCapacity < ((cm.payloads rx.channel).drop rx.next).length) ∨
    r = .closed ∧ next = rx.next := by
  unfold recv at h
  cases hx : cm.channels[rx.channel]? with
  | none => simp [hx] at h
  | some x =>
      have hp : cm.payloads rx.channel = x.log.map BroadcastMessage.payload := by
        simp [payloads, logOf, hx]
      simp only [hx] at h
      split at h
      next hlag =>
        obtain ⟨rfl, rfl⟩ := Prod.mk.inj (Option.some.inj h)
        refine .inr (.inl ⟨_, rfl, by omega, ?_, ?_⟩)
        · rw [hp, List.length_map]
          omega
        · rw [hp, List.length_drop, List.length_map]
          omega
      · split at h
        next msg hmsg =>
          obtain ⟨rfl, rfl⟩ := Prod.mk.inj (Option.some.inj h)
          exact .inl ⟨msg, rfl, rfl, by rw [hp, List.getElem?_map, hmsg]; rfl⟩
        · split at h
          · cases h
          · obtain ⟨rfl, rfl⟩ := Prod.mk.inj (Option.some.inj h)
            exact .inr (.inr ⟨rfl, rfl⟩)

/-- A send to any user, on a channel that belongs to `u`. -/
theorem payloads_sendToUser_of_owner (hown : ∀ v, cm.connections v = some ch → v = u) :
    (cm.sendToUser v n).2.payloads ch = cm.payloads ch ++
      if cm.connections u = some ch ∧ cm.receiversOf ch ≠ 0 then
        (if v = u then some n else none).toList else [] := by
  rw [payloads_sendToUser]
  by_cases hv : v = u
  · subst hv
    simp
  · rw [if_neg fun h ↦ hv (hown v h.1), if_neg hv]
    simp

end ConnectionManager

/-- What a move does to a channel that belongs to `u`. -/
theorem Step.payloads {ch : Nat} (hs : (server codec verifyDetached).Step c m c')
    (hown : ∀ v, c.world.connections.connections v = some ch → v = u) :
    c'.world.connections.payloads ch = c.world.connections.payloads ch ++
      if c.world.connections.connections u = some ch ∧
        c.world.connections.receiversOf ch ≠ 0 then (sendsTo u c m).toList else [] := by
  have hsame {cm : ConnectionManager} (hcm : cm.payloads ch = c.world.connections.payloads ch)
      (hnone : sendsTo u c m = none) : cm.payloads ch = c.world.connections.payloads ch ++
      if c.world.connections.connections u = some ch ∧
        c.world.connections.receiversOf ch ≠ 0 then (sendsTo u c m).toList else [] := by
    simp [hcm, hnone]
  cases hs with
  | spawn j => exact hsame rfl rfl
  | @act a w ha =>
      cases a with
      | tick clock instant =>
          simp only [server, act] at ha
          split at ha
          · obtain rfl := Option.some.inj ha
            exact hsame rfl rfl
          · cases ha
      | setConfig config =>
          obtain rfl := Option.some.inj ha
          exact hsame rfl rfl
      | reorder db =>
          simp only [server, act] at ha
          split at ha
          · obtain rfl := Option.some.inj ha
            exact hsame rfl rfl
          · cases ha
      | runSpawned i =>
          obtain ⟨⟨v, n⟩, hi, rfl⟩ := Option.map_eq_some_iff.mp ha
          have hsends : sendsTo u c (.act (.runSpawned i)) = if v = u then some n else none := by
            simp only [sendsTo, hi, Option.bind_some]
          rw [hsends]
          exact ConnectionManager.payloads_sendToUser_of_owner hown
  | @step t ω j o k r w ht hp =>
      have hperf : c.performs t = some (j, o) := performs_iff.mpr ⟨k, ht⟩
      by_cases hsend : ∃ v n, o = .sendToUser v n
      · obtain ⟨v, n, rfl⟩ := hsend
        obtain ⟨rfl, rfl⟩ := Prod.mk.inj (Option.some.inj hp)
        have hsends : sendsTo u c (.step t ω) = if v = u then some n else none := by
          simp only [sendsTo, hperf]
        rw [hsends]
        exact ConnectionManager.payloads_sendToUser_of_owner hown
      · have hnone : sendsTo u c (.step t ω) = none := by
          cases o with
          | sendToUser v n => exact absurd ⟨v, n, rfl⟩ hsend
          | _ => simp only [sendsTo, hperf]
        have hcon := perform_connects hp
        refine @hsame w.connections ?_ hnone
        generalize w.connections = cm' at hcon
        cases hcon with
        | register v => exact ConnectionManager.payloads_register
        | unregister v => exact ConnectionManager.payloads_unregister
        | dropReceiver rx => exact ConnectionManager.payloads_modify _ _ _ fun _ ↦ rfl
        | closed rx next _ => rfl
        | other _ _ _ _ _ => rfl
        | sent _ v n he => exact absurd ⟨v, n, he _ _ rfl⟩ hsend

/-! ## Subscriptions -/

/-- Thread `t` has registered a connection of `u` with the receiver `rx`, whose channel is in the
map for nobody else, and not for `u` any more once the connection has removed its entry. -/
structure Subscribed (c : State) (t : Nat) (u : Bytes) (rx : Receiver) : Prop where
  registered : (t, ⟨.register u, rx⟩) ∈ c.trace
  exists_channel : rx.channel < c.world.connections.channels.length
  owner : ∀ v, c.world.connections.connections v = some rx.channel → v = u
  kept : c.world.connections.connections u = some rx.channel → (t, ⟨.unregister u, ()⟩) ∉ c.trace

/-- The payloads in the channel that the connection has not read. -/
def pending (c : State) (t : Nat) (rx : Receiver) : List WsNotification :=
  (c.world.connections.payloads rx.channel).drop (cursor rx (past t c.trace))

/-- An entry with an existing channel was there before the operation, and it was not removed. -/
theorem Connects.entry_of {cm cm' : ConnectionManager} {e : Option (Event Res)}
    (h : Connects cm e cm') {ch : Nat} (hlt : ch < cm.channels.length)
    (hu : cm'.connections u = some ch) :
    cm.connections u = some ch ∧ e ≠ some ⟨.unregister u, ()⟩ := by
  cases h with
  | register v =>
      refine ⟨?_, nofun⟩
      unfold ConnectionManager.register at hu
      split at hu
      · exact hu
      next hv =>
        by_cases e : u = v
        · subst e
          simp only [Function.update_self, Option.some.injEq] at hu
          omega
        · simpa only [Function.update_of_ne e] using hu
  | unregister v =>
      rw [ConnectionManager.connections_unregister] at hu
      by_cases e : u = v
      · subst e
        simp at hu
      · rw [Function.update_of_ne e] at hu
        refine ⟨hu, fun h ↦ e ?_⟩
        exact (Op.unregister.inj (congrArg Sigma.fst (Option.some.inj h))).symm
  | dropReceiver rx => exact ⟨hu, nofun⟩
  | sent e v n he =>
      rw [ConnectionManager.connections_sendToUser] at hu
      exact ⟨hu, fun h ↦ nomatch he _ _ h⟩
  | closed rx next _ => exact ⟨hu, nofun⟩
  | other e _ hun _ _ =>
      exact ⟨hu, fun h ↦ hun u (congrArg Sigma.fst (Option.some.inj h))⟩
  | quiet => exact ⟨hu, nofun⟩

/-- Channels are never taken away. -/
theorem Connects.length_le {cm cm' : ConnectionManager} {e : Option (Event Res)}
    (h : Connects cm e cm') : cm.channels.length ≤ cm'.channels.length := by
  cases h with
  | register v =>
      unfold ConnectionManager.register
      split <;> simp
  | unregister v =>
      unfold ConnectionManager.unregister
      split <;> simp
  | dropReceiver rx => simp [ConnectionManager.dropReceiver]
  | sent e v n _ =>
      unfold ConnectionManager.sendToUser
      repeat' split
      all_goals simp
  | _ => exact le_rfl

theorem Subscribed.step (hsub : Subscribed c t u rx)
    (hs : (server codec verifyDetached).Step c m c') : Subscribed c' t u rx := by
  rcases Step.connects hs with ⟨htr, hcon⟩ | ⟨t₀, job, o, r, k, -, -, htr, hcon⟩
  · refine ⟨htr ▸ hsub.registered, hsub.exists_channel.trans_le hcon.length_le, fun v hv ↦ ?_,
      fun hu ↦ ?_⟩
    · exact hsub.owner v (hcon.entry_of hsub.exists_channel hv).1
    · rw [htr]
      exact hsub.kept (hcon.entry_of hsub.exists_channel hu).1
  · refine ⟨htr ▸ List.mem_append_left _ hsub.registered,
      hsub.exists_channel.trans_le hcon.length_le, fun v hv ↦ ?_, fun hu hmem ↦ ?_⟩
    · exact hsub.owner v (hcon.entry_of hsub.exists_channel hv).1
    · obtain ⟨hold, hne⟩ := hcon.entry_of hsub.exists_channel hu
      rw [htr] at hmem
      rcases List.mem_append.mp hmem with hmem | hmem
      · exact hsub.kept hold hmem
      · obtain ⟨-, he⟩ := Prod.mk.inj (List.mem_singleton.mp hmem)
        exact hne (congrArg some he.symm)

/-- While the channel is in the map, the connection has a receiver of it. -/
theorem Subscribed.receiversOf_ne_zero (hsub : Subscribed c t u rx)
    (h : Reachable codec verifyDetached c)
    (hu : c.world.connections.connections u = some rx.channel) :
    c.world.connections.receiversOf rx.channel ≠ 0 := by
  have hholds : Holds (past t c.trace) rx.channel := by
    refine ⟨⟨u, rx, did_past.mpr hsub.registered, rfl⟩, fun rx' hdrop ↦ hsub.kept hu ?_⟩
    exact h.unregistered_of_drop hsub.registered (did_past.mp hdrop)
  obtain ⟨holders, -, hlen, hmem⟩ := h.counted rx.channel
  have hpos := List.length_pos_of_mem ((hmem t).mpr hholds)
  omega

/-- What one move does to a connection's receiver: nothing, or it reads from its channel, which the
move leaves as it is. -/
theorem Subscribed.advances (hsub : Subscribed c t u rx) (h : Reachable codec verifyDetached c)
    (hs : (server codec verifyDetached).Step c m c') :
    (cursor rx (past t c'.trace) = cursor rx (past t c.trace) ∧
      received (past t c'.trace) = received (past t c.trace)) ∨
    (c'.world.connections = c.world.connections ∧ sendsTo u c m = none ∧
      Advances broadcastCapacity (c.world.connections.payloads rx.channel)
        (cursor rx (past t c.trace)) (received (past t c.trace))
        (cursor rx (past t c'.trace)) (received (past t c'.trace))) := by
  cases hs with
  | spawn j => exact .inl ⟨rfl, rfl⟩
  | act ha => exact .inl ⟨rfl, rfl⟩
  | @step t₀ ω j o k r w ht hp =>
      by_cases htt : t₀ = t
      · subst htt
        dsimp only
        rw [past_snoc_self]
        by_cases hsel : ∃ rx', o = .select rx'
        · obtain ⟨rx', rfl⟩ := hsel
          -- the receiver of the connection is where its past has left it
          obtain ⟨u', rx₀, hreg, rfl⟩ := (h.deliveryOrder hsub.registered ht).2 rx' rfl
          obtain ⟨-, rfl⟩ := h.register_once hsub.registered (did_past.mp hreg)
          have hsends : sendsTo u c (.step t₀ ω) = none := by
            simp only [sendsTo, performs_iff.mpr ⟨k, ht⟩]
          rw [cursor_snoc, received_snoc]
          obtain ⟨rfl, ⟨f, -, rfl⟩ | ⟨res, next, hrecv, rfl⟩⟩ := perform_select hp
          · exact .inl ⟨rfl, List.append_nil _⟩
          · rcases ConnectionManager.recv_cases hrecv with ⟨msg, rfl, rfl, hmsg⟩ |
              ⟨missed, rfl, hle, hle', hcap⟩ | ⟨rfl, rfl⟩
            · exact .inr ⟨rfl, hsends, .read hmsg⟩
            · refine .inr ⟨rfl, hsends, ?_⟩
              rw [show receivedOf ⟨.select _, .broadcast (.lagged missed) next⟩ = none from rfl]
              simp only [Option.toList_none, List.append_nil]
              exact .skip hle hle' hcap
            · exact .inl ⟨rfl, List.append_nil _⟩
        · have hno : receivedOf ⟨o, r⟩ = none ∧ positionOf ⟨o, r⟩ = none := by
            cases o with
            | select rx' => exact absurd ⟨rx', rfl⟩ hsel
            | _ => exact ⟨rfl, rfl⟩
          rw [cursor_snoc, received_snoc, hno.1, hno.2]
          exact .inl ⟨rfl, List.append_nil _⟩
      · dsimp only
        rw [past_snoc_ne htt]
        exact .inl ⟨rfl, rfl⟩

/-! ## Runs -/

/-- A receiver starts at the end of its channel. -/
theorem ConnectionManager.register_next (cm : ConnectionManager) (u : Bytes) :
    (cm.register u).1.next = ((cm.register u).2.payloads (cm.register u).1.channel).length := by
  rw [payloads_register]
  unfold register payloads logOf
  split
  next ch hu =>
    cases cm.channels[ch]? with
    | none => simp
    | some x => simp
  · simp

/-- A connection that has just been registered has received nothing and is at the end of its
channel. -/
theorem subscribed_of_register (h₁ : Reachable codec verifyDetached c₁)
    (hs : (server codec verifyDetached).Step c₁ m c₂)
    (hreg : c₂.trace = c₁.trace ++ [(t, ⟨.register u, rx⟩)]) :
    Subscribed c₂ t u rx ∧ received (past t c₂.trace) = [] ∧ cursor rx (past t c₂.trace) = rx.next ∧
      rx.next = (c₂.world.connections.payloads rx.channel).length := by
  have h₂ : Reachable codec verifyDetached c₂ := h₁.run (hs.run_cons Machine.run_nil)
  cases hs with
  | spawn j => simp at hreg
  | act ha => simp at hreg
  | @step t₀ ω j o k r w ht hp =>
      obtain ⟨rfl, hevent⟩ := Prod.mk.inj (List.cons.inj (List.append_cancel_left hreg)).1
      obtain ⟨rfl, hr⟩ := Sigma.mk.inj hevent
      obtain rfl := eq_of_heq hr
      obtain ⟨rfl, rfl⟩ := Prod.mk.inj (Option.some.inj hp)
      obtain ⟨-, token, session, now, hpast, -⟩ := h₁.guard ht
      have hself : (c₁.world.connections.register u).2.connections u =
          some (c₁.world.connections.register u).1.channel :=
        ConnectionManager.connections_register_self
      obtain ⟨x, hx, -⟩ := h₂.wellFormed.isOpen hself
      have hsilent : ∀ e ∈ past t₀ c₁.trace ++ [⟨.register u, (c₁.world.connections.register u).1⟩],
          Silent e := by
        rw [hpast]
        intro e he
        simp only [List.cons_append, List.nil_append, List.mem_cons, List.not_mem_nil,
          or_false] at he
        rcases he with rfl | rfl | rfl | rfl <;> exact ⟨rfl, rfl, rfl⟩
      dsimp only
      rw [past_snoc_self]
      refine ⟨⟨by simp, (List.getElem?_eq_some_iff.mp hx).1,
        fun v hv ↦ h₂.wellFormed.injective hv hself, fun _ ↦ ?_⟩, received_of_silent hsilent,
        cursor_of_silent hsilent, ConnectionManager.register_next _ _⟩
      rw [← mem_past, past_snoc_self, hpast]
      simp

/-- The receiver of a connection follows its channel. -/
structure Reader (c : State) (t : Nat) (u : Bytes) (rx : Receiver) : Prop where
  subscribed : Subscribed c t u rx
  follows : Follows (c.world.connections.payloads rx.channel) rx.next
    (cursor rx (past t c.trace)) (received (past t c.trace))

/-- The receiver has skipped nothing. -/
def Gapless (c : State) (t : Nat) (rx : Receiver) : Prop :=
  Caught (c.world.connections.payloads rx.channel) rx.next (cursor rx (past t c.trace))
    (received (past t c.trace))

/-- What was sent on the channel since the connection was registered. -/
def sentSince (c : State) (rx : Receiver) : List WsNotification :=
  (c.world.connections.payloads rx.channel).drop rx.next

section Steps

variable (hr : Reader c t u rx) (h : Reachable codec verifyDetached c)
  (hs : (server codec verifyDetached).Step c m c')

include hr hs

theorem Reader.sentSince_step : sentSince c' rx = sentSince c rx ++
    if c.world.connections.connections u = some rx.channel ∧
      c.world.connections.receiversOf rx.channel ≠ 0 then (sendsTo u c m).toList else [] := by
  unfold sentSince
  rw [Step.payloads hs hr.subscribed.owner, List.drop_append_of_le_length hr.follows.start_le]

include h

theorem Reader.step : Reader c' t u rx := by
  refine ⟨hr.subscribed.step hs, ?_⟩
  rcases hr.subscribed.advances h hs with ⟨hcur, hgot⟩ | ⟨hcm, -, hreads⟩
  · rw [hcur, hgot, Step.payloads hs hr.subscribed.owner]
    exact hr.follows.append _
  · rw [hcm]
    exact hr.follows.advance hreads

theorem Reader.gapless_step (hg : Gapless c t rx) (hcap : (pending c t rx).length ≤ broadcastCapacity) :
    Gapless c' t rx := by
  unfold Gapless
  rcases hr.subscribed.advances h hs with ⟨hcur, hgot⟩ | ⟨hcm, -, hreads⟩
  · rw [hcur, hgot, Step.payloads hs hr.subscribed.owner]
    exact Caught.append hg hr.follows _
  · rw [hcm]
    exact Caught.advance hg hreads hcap

end Steps

/-- **Notifications.**  What has been delivered on a connection is a sublist of what was passed to
`send_to_user` for its user since it was registered.  While its channel is in the map and at most
`BROADCAST_CAPACITY` payloads are pending, it is a beginning of that list, and what has been
received and is pending is all of it. -/
theorem notifications_in_order (h₁ : Reachable codec verifyDetached c₁)
    (hs : (server codec verifyDetached).Step c₁ m c₂)
    (hreg : c₂.trace = c₁.trace ++ [(t, ⟨.register u, rx⟩)])
    (h : (server codec verifyDetached).run c₂ ms = some c) :
    (delivered (past t c.trace)).Sublist
      ((server codec verifyDetached).seen (sendsTo u) c₂ ms) ∧
    ((server codec verifyDetached).Along (fun d _ ↦
        d.world.connections.connections u = some rx.channel ∧
        (pending d t rx).length ≤ broadcastCapacity) c₂ ms →
      delivered (past t c.trace) <+: (server codec verifyDetached).seen (sendsTo u) c₂ ms ∧
      received (past t c.trace) ++ pending c t rx =
        (server codec verifyDetached).seen (sendsTo u) c₂ ms) := by
  obtain ⟨hsub, hgot, hcur, hnext⟩ := subscribed_of_register h₁ hs hreg
  have h₂ : Reachable codec verifyDetached c₂ := h₁.run (hs.run_cons Machine.run_nil)
  have hreader : Reader c₂ t u rx := by
    refine ⟨hsub, ?_⟩
    rw [hcur, hgot, hnext]
    exact .refl _
  have hempty : sentSince c₂ rx = [] := List.drop_eq_nil_of_le hnext.ge
  have hc : Reachable codec verifyDetached c := h₂.run h
  have hinv : (Reachable codec verifyDetached c ∧ Reader c t u rx) ∧
      (sentSince c rx).Sublist ([] ++ (server codec verifyDetached).seen (sendsTo u) c₂ ms) := by
    refine Machine.Along.seen (S := fun _ _ ↦ True) (I := fun l d ↦
      (Reachable codec verifyDetached d ∧ Reader d t u rx) ∧ (sentSince d rx).Sublist l) ?_
      (Machine.along_of_forall fun _ _ _ _ _ _ ↦ trivial) h ⟨⟨h₂, hreader⟩, hempty ▸ .refl _⟩
    rintro l d mv d' ⟨⟨hd, hr⟩, hlog⟩ - hs
    refine ⟨⟨hd.run (hs.run_cons Machine.run_nil), hr.step hd hs⟩, ?_⟩
    rw [hr.sentSince_step hs]
    refine hlog.append ?_
    split
    · exact List.Sublist.refl _
    · exact List.nil_sublist _
  obtain ⟨⟨-, hr⟩, hlog⟩ := hinv
  have hfront := hc.delivered_prefix hr.subscribed.registered
  constructor
  · have hreceived := (List.sublist_append_left _ _).trans hr.follows.sublist
    exact hfront.sublist.trans (hreceived.trans hlog)
  · intro halong
    have hinv : (Reachable codec verifyDetached c ∧ Reader c t u rx) ∧ Gapless c t rx ∧
        sentSince c rx = [] ++ (server codec verifyDetached).seen (sendsTo u) c₂ ms := by
      refine Machine.Along.seen (I := fun l d ↦ (Reachable codec verifyDetached d ∧
        Reader d t u rx) ∧ Gapless d t rx ∧ sentSince d rx = l) ?_ halong h
        ⟨⟨h₂, hreader⟩, ?_, hempty⟩
      · rintro l d mv d' ⟨⟨hd, hr⟩, hg, rfl⟩ ⟨hentry, hcap⟩ hs
        refine ⟨⟨hd.run (hs.run_cons Machine.run_nil), hr.step hd hs⟩,
          hr.gapless_step hd hs hg hcap, ?_⟩
        rw [hr.sentSince_step hs,
          if_pos ⟨hentry, hr.subscribed.receiversOf_ne_zero hd hentry⟩]
      · unfold Gapless
        rw [hcur, hgot, hnext]
        exact .refl _
    obtain ⟨-, hg, hsent⟩ := hinv
    have hall : received (past t c.trace) ++ pending c t rx =
        (server codec verifyDetached).seen (sendsTo u) c₂ ms := Eq.trans hg hsent
    refine ⟨hfront.trans ?_, hall⟩
    rw [← hall]
    exact List.prefix_append _ _

namespace Sample

theorem register_event {signed : List (Bytes × Bytes)} {c c' : State} {t : Nat} {ω : Oracle}
    {u : Bytes} (hs : (system signed).next c (.step t ω) = some c')
    (hlast : (c'.trace.getLast?).bind (registeredUser ·.2) = some u) :
    ∃ rx, c'.trace = c.trace ++ [(t, ⟨.register u, rx⟩)] := by
  cases Machine.step_of_next hs with
  | @step _ _ j o k r w ht hp =>
      rw [List.getLast?_append, List.getLast?_singleton, Option.some_or, Option.bind_some] at hlast
      unfold registeredUser at hlast
      split at hlast
      next v rx heq =>
        obtain rfl := Option.some.inj hlast
        exact ⟨rx, congrArg (fun e ↦ c.trace ++ [(t, e)]) heq⟩
      · exact nomatch hlast

def friendCall : FriendRequest := ⟨word 2, word 1, [3], signature, [], 6⟩

def notifySigned : List (Bytes × Bytes) := (key 2, friendCall.messageToVerify) :: loginSigned

/-- User 2 asks for the friendship of user 1, whose connection is thread 3. -/
def notifyMoves : Moves :=
  registers 4 2 ++ .spawn (.request (.contact friendCall)) :: steps 5 6 ++
  [.step 3 .none, .step 3 (.flag true)]

/-- What user 1 is told. -/
def friendNotice : WsNotification := ⟨6, .friendRequestReceived ⟨word 2, [3], [], 6⟩⟩

end Sample

open Sample in
/-- The friend request is delivered on the connection of user 1. -/
theorem notifications_in_order_notifyMoves : ∃ c₁ c₂ c : State,
    final notifySigned loginRun.dropLast = some c₁ ∧
    (system notifySigned).next c₁ (.step 3 .none) = some c₂ ∧
    (system notifySigned).run c₂ notifyMoves = some c ∧
    delivered (past 3 c.trace) = [friendNotice] ∧
    (delivered (past 3 c.trace)).Sublist
      ((system notifySigned).seen (sendsTo (word 1)) c₂ notifyMoves) := by
  have hrun : ((final notifySigned loginRun.dropLast).bind fun c₁ ↦
      ((system notifySigned).next c₁ (.step 3 .none)).bind fun c₂ ↦
        ((system notifySigned).run c₂ notifyMoves).map fun c ↦
          ((c₂.trace.getLast?).bind (registeredUser ·.2), delivered (past 3 c.trace))) =
      some (some (word 1), [friendNotice]) := by decide +kernel
  obtain ⟨c₁, h₁, hrun⟩ := Option.bind_eq_some_iff.mp hrun
  obtain ⟨c₂, hs, hrun⟩ := Option.bind_eq_some_iff.mp hrun
  obtain ⟨c, h, hview⟩ := Option.map_eq_some_iff.mp hrun
  obtain ⟨hlast, hdelivered⟩ := Prod.mk.inj hview
  obtain ⟨rx, hreg⟩ := register_event hs hlast
  exact ⟨c₁, c₂, c, h₁, hs, h, hdelivered,
    (notifications_in_order ⟨0, 0, _, h₁⟩ (Machine.step_of_next hs) hreg h).1⟩

end ZenthDht
