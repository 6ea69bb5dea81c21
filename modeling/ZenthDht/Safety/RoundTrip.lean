import ZenthDht.Safety.Durability
import ZenthDht.Spec.Fetch

/-!
# Messages sent and fetched

SEND_MESSAGE verifies the sender's signature over the addressed envelope and stores the encoding
of its content, without the type.  FETCH_MESSAGES guesses the type: what decodes as a pre-key
message with a base key or a message is one, and everything else is a regular message.

So an envelope comes back as it was signed exactly when its content is not taken for one of the
other type (`Content.Recognised`, `fetched_as_sent`).
-/

namespace ZenthDht

open Conc

variable {codec : Codec} {verifyDetached : Bytes → Bytes → Bytes → Bool}

/-- The content is not taken for one of the other type: a pre-key message has a base key or a
message, and the encoding of a regular message does not decode as such a pre-key message. -/
def Content.Recognised (codec : Codec) : Content → Prop
  | .prekeyMessage msg => msg.baseKey ≠ [] ∨ msg.message.isSome
  | .regularMessage msg => ∀ other,
      codec.decodePreKeyMessage (codec.encodeSignalMessage msg) = some other →
      other.baseKey = [] ∧ other.message = none

/-- The fetched envelope `e` has what the sender of `env` signed. -/
structure ZenthSignalEnvelope.SameSigned (env e : ZenthSignalEnvelope) : Prop where
  senderHashId : e.senderHashId = env.senderHashId
  recipientHashId : e.recipientHashId = env.recipientHashId
  messageId : e.messageId = env.messageId
  timestamp : e.timestamp = env.timestamp
  dilithiumSignature : e.dilithiumSignature = env.dilithiumSignature
  content : e.content = env.content

theorem ZenthSignalEnvelope.SameSigned.signedData {env e : ZenthSignalEnvelope}
    (h : env.SameSigned e) : e.signedData codec = env.signedData codec := by
  simp only [ZenthSignalEnvelope.signedData, ZenthSignalEnvelope.contentBytes, h.senderHashId,
    h.recipientHashId, h.messageId, h.timestamp, h.content]

section Codec

variable (hprekey : ∀ msg, codec.decodePreKeyMessage (codec.encodePreKeyMessage msg) = some msg)
variable (hsignal : ∀ msg, codec.decodeSignalMessage (codec.encodeSignalMessage msg) = some msg)
include hprekey hsignal

theorem decodeContent_encodeContent (content : Content) :
    decodeContent codec (codec.encodeContent content) = content ↔ content.Recognised codec := by
  cases content with
  | prekeyMessage msg =>
      simp only [decodeContent, Codec.encodeContent, hprekey, Content.Recognised]
      split <;> simp_all
  | regularMessage msg =>
      simp only [decodeContent, Codec.encodeContent, hsignal, Content.Recognised, Option.getD_some]
      cases hdecode : codec.decodePreKeyMessage (codec.encodeSignalMessage msg) with
      | none => simp
      | some other =>
          by_cases hother : other.baseKey ≠ [] ∨ other.message.isSome
          · simp only [hother, if_true, reduceCtorEq, false_iff]
            intro h
            obtain ⟨hkey, hmsg⟩ := h other rfl
            simp [hkey, hmsg] at hother
          · simp only [hother, if_false, true_iff]
            rintro _ ⟨⟩
            simpa using hother

/-- The envelope of a stored message, against the one that was sent. -/
theorem sameSigned_envelope {env : ZenthSignalEnvelope} {content : Content} {x : MessageModel}
    (hcontent : env.content = some content) (hsender : x.senderHashId = env.senderHashId)
    (hrecipient : x.recipientHashId = env.recipientHashId) (hid : x.messageId = env.messageId)
    (hstored : x.content = env.contentBytes codec)
    (hsignature : x.dilithiumSignature = env.dilithiumSignature)
    (htimestamp : x.timestamp = env.timestamp.toInt64) :
    env.SameSigned (x.envelope codec) ↔ content.Recognised codec := by
  have hbytes : x.content = codec.encodeContent content := by
    rw [hstored, ZenthSignalEnvelope.contentBytes, hcontent]
  rw [← decodeContent_encodeContent hprekey hsignal content, ← hbytes]
  constructor
  · intro h
    exact Option.some.inj (h.content.trans hcontent)
  · intro h
    refine ⟨hsender, hrecipient, hid, ?_, hsignature, ?_⟩
    · simp [MessageModel.envelope, htimestamp]
    · rw [hcontent, MessageModel.envelope, h]

end Codec

/-- The rows that a poll has loaded. -/
def loadedRows : Event Res → Option (List MessageModel)
  | ⟨.sql (.loadMessages _ _ _ _), .ok rows⟩ => some rows
  | _ => none

theorem load_of_loadedRows {e : Event Res} {rows : List MessageModel}
    (h : loadedRows e = some rows) :
    ∃ r since now limit, e = ⟨.sql (.loadMessages r since now limit), .ok rows⟩ := by
  unfold loadedRows at h
  split at h
  · obtain rfl := Option.some.inj h
    exact ⟨_, _, _, _, rfl⟩
  · exact nomatch h

/-- The page a poll has loaded is the one it answers with. -/
theorem messages_of_load {c : State} {t : Nat} {req : FetchMessagesRequest} {reply : Reply}
    {resp : FetchMessagesResponse} {r : Bytes} {since : Option Int64} {now : NaiveDateTime}
    {limit : Nat} {rows : List MessageModel} (h : Reachable codec verifyDetached c)
    (hanswer : c.answered t = some (.request (.fetchMessages req), reply))
    (hresp : reply.payload = .fetchMessages resp)
    (hload : (t, ⟨.sql (.loadMessages r since now limit), .ok rows⟩) ∈ c.trace) :
    resp.messages = rows.map (MessageModel.envelope codec) := by
  obtain ⟨clock, instant, ms, hms⟩ := h
  have hpast := Machine.post_of_run (code_fetchOrder codec) hms (answered_iff.mp hanswer) req rfl
    reply resp rfl hresp
  rcases hpast with ⟨-, hnone⟩ | ⟨user, now', total, rows', ts, hpast, rfl⟩
  · exact absurd (did_past.mpr hload) (hnone r since now limit rows)
  · have hmem := mem_past.mpr hload
    rw [hpast] at hmem
    obtain ⟨-, rfl⟩ : (r = req.userHash ∧ since = req.loadSince ∧ now = now' ∧
        limit = req.effectiveLimit) ∧ rows = rows' := by
      simpa [FetchMessagesRequest.answeredPast, FetchMessagesRequest.loadedPast,
        FetchMessagesRequest.countedPast, FetchMessagesRequest.timedPast,
        FetchMessagesRequest.signedPast] using hmem
    rfl

/-- The row that a step of a SEND_MESSAGE adds is that of its envelope, whose signature the
request has verified. -/
theorem stored_of_send {c c₁ : State} {t : Nat} {ω : Oracle} {env : ZenthSignalEnvelope}
    {x : MessageModel} (h : Reachable codec verifyDetached c)
    (hstep : (server codec verifyDetached).Step c (.step t ω) c₁)
    (hjob : Runs c t (.request (.sendMessage env))) (hold : x ∉ c.world.db.messages)
    (hnew : x ∈ c₁.world.db.messages) :
    SignedByUser c.trace t env.senderHashId (env.signedData codec) ∧
      x.senderHashId = env.senderHashId ∧ x.recipientHashId = env.recipientHashId ∧
      x.messageId = env.messageId ∧ x.content = env.contentBytes codec ∧
      x.dilithiumSignature = env.dilithiumSignature ∧ x.timestamp = env.timestamp.toInt64 := by
  rcases Step.db hstep with hsame | ⟨t', job, s, he⟩
  · exact absurd (hsame.messages.mem_iff.mpr hnew) hold
  obtain rfl := he.of_step hstep
  obtain ⟨k, hpool, -⟩ := he.pool
  obtain rfl := Runs.unique ⟨_, hpool⟩ hjob
  rw [he.db] at hnew
  obtain ⟨n, rfl, rfl⟩ := (mem_messages_exec hnew).resolve_left hold
  obtain ⟨_, now, row, ⟨⟩, hid, hsender, hrecipient, hcontent, hsignature, hts, -, -, -, key,
    message, signature, ⟨hk, rfl, rfl⟩, hv⟩ := h.executes he
  exact ⟨h.signedByUser hk hv, hsender, hrecipient, hid, hcontent, hsignature, hts⟩

/-- **The round trip.**  For a message that a SEND_MESSAGE of `env` stored and a FETCH_MESSAGES
loaded: what the poll returns for it has the fields and the content of `env`, and gives the bytes
that were verified under the sender's key, if and only if the content of `env` is not taken for
one of the other type. -/
theorem fetched_as_sent
    (hprekey : ∀ msg, codec.decodePreKeyMessage (codec.encodePreKeyMessage msg) = some msg)
    (hsignal : ∀ msg, codec.decodeSignalMessage (codec.encodeSignalMessage msg) = some msg)
    {c c₁ c' : State} {ms : Moves} {t t' i : Nat} {ω : Oracle} {env : ZenthSignalEnvelope}
    {content : Content} {req : FetchMessagesRequest} {reply : Reply}
    {resp : FetchMessagesResponse} {event : Event Res} {rows : List MessageModel}
    {x y : MessageModel}
    (h : Reachable codec verifyDetached c)
    (hstep : (server codec verifyDetached).Step c (.step t ω) c₁)
    (hjob : Runs c t (.request (.sendMessage env))) (hcontent : env.content = some content)
    (hold : x ∉ c.world.db.messages) (hnew : x ∈ c₁.world.db.messages)
    (hrun : (server codec verifyDetached).run c₁ ms = some c')
    (hload : (t', event) ∈ c'.trace) (hrows : loadedRows event = some rows)
    (hy : rows[i]? = some y) (hid : y.id = x.id)
    (hanswer : c'.answered t' = some (.request (.fetchMessages req), reply))
    (hresp : reply.payload = .fetchMessages resp) :
    ∃ e message, resp.messages[i]? = some e ∧ SignedByUser c.trace t env.senderHashId message ∧
      (env.SameSigned e ∧ e.signedData codec = message ↔ content.Recognised codec) := by
  have hc₁ : Reachable codec verifyDetached c₁ := h.run (hstep.run_cons Machine.run_nil)
  obtain ⟨hsigned, hsender, hrecipient, hmid, hstored, hsignature, htimestamp⟩ :=
    stored_of_send h hstep hjob hold hnew
  obtain ⟨r, since, now, limit, rfl⟩ := load_of_loadedRows hrows
  have hmem {d : State} (hd : ((Stmt.loadMessages r since now limit).exec d.world.clock
      d.world.db).1 = .ok rows) : y ∈ d.world.db.messages :=
    (loadMessages_sound hd (List.mem_of_getElem? hy)).1
  obtain rfl : y = x := by
    rcases read_of_run hrun hload with hload | ⟨d, ms₁, ms₂, h₁, hd, -⟩
    · obtain ⟨d, ms₁, hd, hr, h₁⟩ := hc₁.read hload
      exact (keeps_messages.run hd.keyed.messages h₁ (hmem hr) hnew hid.symm).symm
    · exact keeps_messages.run hc₁.keyed.messages h₁ hnew (hmem hd) hid
  refine ⟨y.envelope codec, env.signedData codec, ?_, hsigned, ?_⟩
  · rw [messages_of_load (hc₁.run hrun) hanswer hresp hload, List.getElem?_map, hy]
    rfl
  · rw [← sameSigned_envelope hprekey hsignal hcontent hsender hrecipient hmid hstored hsignature
      htimestamp]
    exact ⟨And.left, fun hsame ↦ ⟨hsame, hsame.signedData⟩⟩

namespace Sample

/-- Each byte marked, and an end mark. -/
def frame : Bytes → Bytes
  | [] => [0]
  | x :: b => 1 :: x :: frame b

def unframe : Bytes → Option (Bytes × Bytes)
  | 0 :: rest => some ([], rest)
  | 1 :: x :: rest => (unframe rest).map fun p ↦ (x :: p.1, p.2)
  | _ => none

theorem unframe_frame (b rest : Bytes) : unframe (frame b ++ rest) = some (b, rest) := by
  induction b with
  | nil => rfl
  | cons x b ih => simp [frame, unframe, ih]

/-- A message whose fields are all default has no bytes, as in every `proto3` encoding. -/
def encodePreKeyMessage (msg : PreKeyMessage) : Bytes :=
  if msg = ⟨[], none, []⟩ then []
  else match msg.message with
    | none => frame msg.baseKey ++ 0 :: msg.other
    | some inner => frame msg.baseKey ++ 1 :: (frame inner.other ++ msg.other)

def decodePreKeyMessage (b : Bytes) : Option PreKeyMessage :=
  if b = [] then some ⟨[], none, []⟩
  else match unframe b with
    | some (baseKey, 0 :: other) => some ⟨baseKey, none, other⟩
    | some (baseKey, 1 :: rest) => (unframe rest).map fun p ↦ ⟨baseKey, some ⟨p.1⟩, p.2⟩
    | _ => none

/-- A codec of both types of messages. -/
def mailCodec : Codec := { Sample.codec with encodePreKeyMessage, decodePreKeyMessage }

theorem decode_prekeyMessage (msg : PreKeyMessage) :
    mailCodec.decodePreKeyMessage (mailCodec.encodePreKeyMessage msg) = some msg := by
  obtain ⟨baseKey, message, other⟩ := msg
  change decodePreKeyMessage (encodePreKeyMessage _) = _
  unfold encodePreKeyMessage
  split
  next h => simp [decodePreKeyMessage, h]
  · cases message with
    | none => simp [decodePreKeyMessage, unframe_frame]
    | some inner => simp [decodePreKeyMessage, unframe_frame]

theorem decode_signalMessage (msg : SignalMessage) :
    mailCodec.decodeSignalMessage (mailCodec.encodeSignalMessage msg) = some msg := rfl

/-- An envelope from user 1 to user 2. -/
def mail (content : Content) : ZenthSignalEnvelope :=
  ⟨1, word 1, word 2, some content, signature, 3, [9], 0⟩

/-- User 2 asks for all its messages. -/
def poll : FetchMessagesRequest := ⟨word 2, 0, 0, 4, signature⟩

/-- The server with what both users have signed. -/
abbrev mailSystem (content : Content) : Machine Res World Job (Option Reply) Oracle Act :=
  server mailCodec (verify [(key 1, (mail content).signedData mailCodec), (key 2, poll.signedData)])

/-- The state a run of it leads to. -/
def mailFinal (content : Content) (ms : Moves) : Option State :=
  (mailSystem content).run (.start (.initial 0 0)) ms

/-- User 1 sends, up to the insert of the message. -/
def mailRun (content : Content) : Moves :=
  registers 0 1 ++ registers 1 2 ++ .spawn (.request (.sendMessage (mail content))) :: steps 2 4

/-- The insert of the message. -/
def storeRun : Moves := steps 2 1

/-- The run after it. -/
def pollRun : Moves := steps 2 2 ++ .spawn (.request (.fetchMessages poll)) :: steps 3 6

/-- The reply to user 1. -/
def mailReply : Reply := ⟨true, .sendMessage { success := true, messageId := [9] }, ""⟩

/-- The reply to user 2. -/
def pollReply (content : Content) : Reply :=
  ⟨true, .fetchMessages { messages := [mail content] }, ""⟩

/-- A message whose fields are all default. -/
def blankPrekey : Content := .prekeyMessage ⟨[], none, []⟩

def blankRegular : Content := .regularMessage ⟨[]⟩

def blankRow : MessageModel :=
  ⟨1, [9], word 1, word 2, [], signature, 3, 0, false, 0, neverExpires⟩

end Sample

open Sample in
/-- A pre-key message whose fields are all default is accepted and comes back as a regular
message. -/
theorem prekey_message_fetched_as_regular :
    (∀ msg, mailCodec.decodePreKeyMessage (mailCodec.encodePreKeyMessage msg) = some msg) ∧
    (∀ msg, mailCodec.decodeSignalMessage (mailCodec.encodeSignalMessage msg) = some msg) ∧
    ∃ c, mailFinal blankPrekey (mailRun blankPrekey ++ storeRun ++ pollRun) = some c ∧
      c.answered 2 = some (.request (.sendMessage (mail blankPrekey)), mailReply) ∧
      c.answered 3 = some (.request (.fetchMessages poll), pollReply blankRegular) ∧
      ¬ (mail blankPrekey).SameSigned (mail blankRegular) := by
  have hrun : (mailFinal blankPrekey (mailRun blankPrekey ++ storeRun ++ pollRun)).map
      (fun c ↦ (c.answered 2, c.answered 3)) = some
        (some (.request (.sendMessage (mail blankPrekey)), mailReply),
          some (.request (.fetchMessages poll), pollReply blankRegular)) := by decide +kernel
  obtain ⟨c, hc, hview⟩ := Option.map_eq_some_iff.mp hrun
  obtain ⟨hsend, hfetch⟩ := Prod.mk.inj hview
  refine ⟨decode_prekeyMessage, decode_signalMessage, c, hc, hsend, hfetch, fun hsame ↦ ?_⟩
  exact nomatch hsame.content

open Sample in
theorem fetched_as_sent_mailRun : ∃ c e,
    mailFinal blankRegular (mailRun blankRegular ++ storeRun ++ pollRun) = some c ∧
    c.answered 3 = some (.request (.fetchMessages poll), pollReply blankRegular) ∧
    [mail blankRegular][0]? = some e ∧ (mail blankRegular).SameSigned e := by
  have hbefore : (mailFinal blankRegular (mailRun blankRegular)).map (fun c ↦
      (c.world.db.messages, (c.pool[2]?).map Thread.job)) =
        some ([], some (.request (.sendMessage (mail blankRegular)))) := by decide +kernel
  have hstored : (mailFinal blankRegular (mailRun blankRegular ++ storeRun)).map (fun c ↦
      c.world.db.messages) = some [blankRow] := by decide +kernel
  have hafter : (mailFinal blankRegular (mailRun blankRegular ++ storeRun ++ pollRun)).map (fun c ↦
        (c.answered 3, c.trace.map fun e ↦ (e.1, loadedRows e.2))) = some
      (some (.request (.fetchMessages poll), pollReply blankRegular),
        [(0, none), (1, none), (2, none), (2, none), (2, none), (2, none), (2, none), (2, none),
         (2, none), (3, none), (3, none), (3, none), (3, none), (3, some [blankRow]),
         (3, none)]) := by decide +kernel
  obtain ⟨c', hc', hview'⟩ := Option.map_eq_some_iff.mp hafter
  obtain ⟨hanswer, htrace⟩ := Prod.mk.inj hview'
  obtain ⟨c₁, hc₁, hrun⟩ := Machine.run_append.mp hc'
  obtain ⟨c, hc, hlast⟩ := Machine.run_append.mp hc₁
  obtain ⟨d, hd, hview⟩ := Option.map_eq_some_iff.mp hbefore
  obtain rfl : d = c := Option.some.inj (hd.symm.trans hc)
  obtain ⟨d', hd', hmessages⟩ := Option.map_eq_some_iff.mp hstored
  obtain rfl : d' = c₁ := Option.some.inj (hd'.symm.trans hc₁)
  obtain ⟨hnone, hjob⟩ := Prod.mk.inj hview
  obtain ⟨⟨job, rest⟩, hpool, rfl⟩ := Option.map_eq_some_iff.mp hjob
  obtain ⟨d'', hstep, hd''⟩ := Machine.run_cons.mp hlast
  obtain rfl := Option.some.inj hd''
  have hmem : (3, some [blankRow]) ∈ c'.trace.map fun e ↦ (e.1, loadedRows e.2) := by
    rw [htrace]
    exact List.mem_of_getElem? (i := 13) rfl
  obtain ⟨⟨t', event⟩, hload, hpage⟩ := List.mem_map.mp hmem
  obtain ⟨rfl, hrows⟩ : t' = 3 ∧ loadedRows event = some [blankRow] := Prod.mk.inj hpage
  obtain ⟨e, message, he, -, hiff⟩ := fetched_as_sent (i := 0) (y := blankRow)
    decode_prekeyMessage decode_signalMessage ⟨0, 0, _, hc⟩ (Machine.step_of_next hstep)
    ⟨rest, hpool⟩ rfl (x := blankRow) (by simp [hnone]) (by simp [hmessages]) hrun hload hrows rfl
    rfl hanswer rfl
  refine ⟨c', e, hc', hanswer, he, (hiff.mpr ?_).1⟩
  rintro other ⟨⟩
  exact ⟨rfl, rfl⟩

end ZenthDht
