import ZenthDht.Spec.Run

/-!
# Stored messages and relay entries are durable

A row of `messages` or `relay_messages` keeps its fields from the moment it is stored, and it
leaves the table only for a reason its recipient, an account holder or its expiry gave.  The
reasons are `MessageRemoved` and `RelayRemoved`; both name the statement in the history that
took the row out and what the job behind it had verified or read by then.
-/

namespace ZenthDht

open Conc

variable {codec : Codec} {verifyDetached : Bytes → Bytes → Bytes → Bool}
variable {c c' : State} {ms ms' : Moves}

/-- Why the message `x` left the table: an acknowledgement its recipient signed, a DELETE its
sender or recipient signed, or the purge at a clock after its expiry. -/
def MessageRemoved (c : State) (tr : History) (t : Nat) (s : Stmt)
    (x : MessageModel) : Prop :=
  (∃ req, Runs c t (.request (.ackMessage req)) ∧
    s = .deleteMessage x.messageId x.recipientHashId ∧
    SignedByUser tr t x.recipientHashId
      (x.messageId ++ x.recipientHashId ++ le64 req.timestamp)) ∨
  (∃ req u, Runs c t (.request (.delete req)) ∧ (u = x.senderHashId ∨ u = x.recipientHashId) ∧
    s = .deleteMessagesOf u ∧ SignedByUser tr t u (u ++ le64 req.timestamp)) ∨
  (∃ tick now, Runs c t (.cleanup tick) ∧ tick % 12 = 0 ∧ (t, ⟨.clock, now⟩) ∈ tr ∧
    s = .purgeMessages (now : Nat) ∧ x.expiresAt < (now : Nat))

/-- Why the relay entry `x` left the table: an acknowledgement up to its id signed by the device
with a fresh timestamp, or the purge at a clock after its expiry. -/
def RelayRemoved (c : State) (tr : History) (t : Nat) (s : Stmt)
    (x : RelayMessage) : Prop :=
  (∃ req, Runs c t (.request (.relayAck req)) ∧
    s = .deleteRelayUpTo x.forDeviceDilithiumPubkey req.upToId ∧ (x.id : Int) ≤ req.upToId.toInt ∧
    FreshFor tr t req.timestamp ∧
    (t, ⟨.verify x.forDeviceDilithiumPubkey
      (x.forDeviceDilithiumPubkey ++ leI64 req.upToId ++ le64 req.timestamp)
      req.signature, true⟩) ∈ tr) ∨
  (∃ tick now, Runs c t (.cleanup tick) ∧ tick % 12 = 0 ∧ (t, ⟨.clock, now⟩) ∈ tr ∧
    s = .purgeRelay (now : Nat) ∧ x.expiresAt < (now : Nat))

/-- A statement that is in the history of `c'` and was not in that of `c`. -/
def Since (c c' : State) (before : History) (t : Nat) (s : Stmt) : Prop :=
  c.trace.length ≤ before.length ∧ ∃ r after, c'.trace = before ++ (t, ⟨.sql s, r⟩) :: after

theorem Executes.since {c₁ c₂ : State} {t : Nat} {job : Job} {s : Stmt} {ms₁ ms₂ : Moves}
    (h₁ : (server codec verifyDetached).run c ms₁ = some c₁) (he : Executes c₁ t job s c₂)
    (h₂ : (server codec verifyDetached).run c₂ ms₂ = some c') : Since c c' c₁.trace t s := by
  obtain ⟨ext, hext⟩ := Machine.trace_of_run h₁
  obtain ⟨post, hpost⟩ := he.history h₂
  exact ⟨by simp [hext], _, post, hpost⟩

/-! ## Messages -/

theorem message_removed (h : Reachable codec verifyDetached c)
    (hrun : (server codec verifyDetached).run c ms = some c') {x : MessageModel}
    (hx : x ∈ c.world.db.messages) (hx' : x ∉ c'.world.db.messages) :
    ∃ before t s, Since c c' before t s ∧ MessageRemoved c' before t s x := by
  obtain ⟨ms₁, c₁, m, t, job, s, c₂, ms₂, h₁, -, he, hin, hout, h₂⟩ :=
    db_crossing (P := fun db ↦ x ∈ db.messages) (fun hsame ↦ hsame.messages.mem_iff.mp) hrun hx hx'
  have hc₁ := h.run h₁
  have hjob := he.runs.run h₂
  have hguard := hc₁.executes he
  refine ⟨c₁.trace, t, s, he.since h₁ h₂, ?_⟩
  rw [he.db] at hout
  rcases (messages_exec hin).resolve_left hout with rfl | rfl | rfl | ⟨now, rfl, hexp⟩
  · obtain ⟨req, rfl, hi, hr, key, message, signature, ⟨-, hk, rfl, rfl⟩, hv⟩ := hguard
    left
    refine ⟨req, hjob, rfl, ?_⟩
    rw [hi, hr]
    exact hc₁.signedByUser hk hv
  · obtain ⟨req, rfl, hu, key, message, signature, ⟨-, -, hk, rfl, rfl⟩, hv⟩ := hguard
    refine .inr (.inl ⟨req, _, hjob, .inl rfl, rfl, ?_⟩)
    rw [hu]
    exact hc₁.signedByUser hk hv
  · obtain ⟨req, rfl, hu, key, message, signature, ⟨-, -, hk, rfl, rfl⟩, hv⟩ := hguard
    refine .inr (.inl ⟨req, _, hjob, .inr rfl, rfl, ?_⟩)
    rw [hu]
    exact hc₁.signedByUser hk hv
  · obtain ⟨tick, now, rfl, htick, hnow, rfl⟩ := hguard
    exact .inr (.inr ⟨tick, now, hjob, htick, did_past.mp hnow, rfl, hexp⟩)

theorem keeps_messages :
    Keeps Db.messages (fun db ↦ db.seq.messages) MessageModel.id fun x ↦ x where
  same h := ⟨h.messages, by rw [h.seq]⟩
  row hx := by
    rcases mem_messages_exec hx with hx | ⟨n, rfl, rfl⟩
    · exact .inl ⟨_, hx, rfl, rfl⟩
    · exact .inr le_rfl
  le := seq_messages_exec

/-! ## Relay entries -/

theorem relay_removed (h : Reachable codec verifyDetached c)
    (hrun : (server codec verifyDetached).run c ms = some c') {x : RelayMessage}
    (hx : x ∈ c.world.db.relayMessages) (hx' : x ∉ c'.world.db.relayMessages) :
    ∃ before t s, Since c c' before t s ∧ RelayRemoved c' before t s x := by
  obtain ⟨ms₁, c₁, m, t, job, s, c₂, ms₂, h₁, -, he, hin, hout, h₂⟩ :=
    db_crossing (P := fun db ↦ x ∈ db.relayMessages)
      (fun hsame ↦ hsame.relayMessages.mem_iff.mp) hrun hx hx'
  have hjob := he.runs.run h₂
  have hguard := (h.run h₁).executes he
  refine ⟨c₁.trace, t, s, he.since h₁ h₂, ?_⟩
  rw [he.db] at hout
  rcases (relayMessages_exec hin).resolve_left hout with ⟨i, rfl, hle⟩ | ⟨now, rfl, hexp⟩
  · obtain ⟨req, rfl, hd, rfl, key, message, signature, ⟨hfresh, rfl, rfl, rfl⟩, hv⟩ := hguard
    left
    refine ⟨req, hjob, rfl, hle, hfresh.freshFor, ?_⟩
    rw [hd]
    exact did_past.mp hv
  · obtain ⟨tick, now, rfl, htick, hnow, rfl⟩ := hguard
    exact .inr ⟨tick, now, hjob, htick, did_past.mp hnow, rfl, hexp⟩

theorem keeps_relayMessages :
    Keeps Db.relayMessages (fun db ↦ db.seq.relayMessages) RelayMessage.id fun x ↦ x where
  same h := ⟨h.relayMessages, by rw [h.seq]⟩
  row hx := by
    rcases mem_relayMessages_exec hx with hx | ⟨n, rfl, rfl⟩
    · exact .inl ⟨_, hx, rfl, rfl⟩
    · exact .inr le_rfl
  le := seq_relayMessages_exec

/-- **Durability.**  From any state of any run on, a stored message or relay entry keeps its
fields, and if it is no longer there then one of the statements executed since took it out for
one of the reasons `MessageRemoved` or `RelayRemoved`. -/
theorem stored_rows_durable {clock instant : Nat}
    (h : (server codec verifyDetached).run (.start (.initial clock instant)) ms = some c)
    (hrun : (server codec verifyDetached).run c ms' = some c') :
    (∀ x ∈ c.world.db.messages, (∀ y ∈ c'.world.db.messages, y.id = x.id → y = x) ∧
      (x ∉ c'.world.db.messages →
        ∃ before t s, Since c c' before t s ∧ MessageRemoved c' before t s x)) ∧
    (∀ x ∈ c.world.db.relayMessages, (∀ y ∈ c'.world.db.relayMessages, y.id = x.id → y = x) ∧
      (x ∉ c'.world.db.relayMessages →
        ∃ before t s, Since c c' before t s ∧ RelayRemoved c' before t s x)) := by
  have hc : Reachable codec verifyDetached c := ⟨clock, instant, ms, h⟩
  refine ⟨fun x hx ↦ ⟨fun y hy hid ↦ ?_, fun hx' ↦ ?_⟩,
    fun x hx ↦ ⟨fun y hy hid ↦ ?_, fun hx' ↦ ?_⟩⟩
  · exact keeps_messages.run hc.keyed.messages hrun hx hy hid
  · exact message_removed hc hrun hx hx'
  · exact keeps_relayMessages.run hc.keyed.relayMessages hrun hx hy hid
  · exact relay_removed hc hrun hx hx'

namespace Sample

/-- A message from user 1 to user 2 that does not expire. -/
def envelope : ZenthSignalEnvelope :=
  ⟨1, word 1, word 2, some (.regularMessage ⟨[5]⟩), signature, 3, [9], 0⟩

/-- What the users of the runs below have signed. -/
def messageSigned : List (Bytes × Bytes) :=
  [(key 1, envelope.signedData Sample.codec), (key 2, [9] ++ word 2 ++ le64 4)]

/-- Users 1 and 2 register and user 1 sends the message. -/
def sendRun : Moves :=
  registers 0 1 ++ registers 1 2 ++ .spawn (.request (.sendMessage envelope)) :: steps 2 5

/-- User 2 acknowledges the message. -/
def ackRun : Moves :=
  .spawn (.request (.ackMessage ⟨[9], word 2, 4, signature⟩)) :: steps 3 3

end Sample

open Sample in
theorem stored_rows_durable_ackRun :
    ∃ c c' x, final messageSigned sendRun = some c ∧
      (system messageSigned).run c ackRun = some c' ∧ x ∈ c.world.db.messages ∧
      x ∉ c'.world.db.messages ∧
      ∃ before t s, Since c c' before t s ∧ MessageRemoved c' before t s x := by
  have hsend : ((final messageSigned sendRun).map fun c ↦
      (c.world.db.messages.length, ((system messageSigned).run c ackRun).map
        fun c' ↦ c'.world.db.messages.length)) = some (1, some 0) := by decide +kernel
  obtain ⟨c, hc, hfacts⟩ := Option.map_eq_some_iff.mp hsend
  obtain ⟨hlen, hack⟩ := Prod.mk.inj hfacts
  obtain ⟨c', hc', hlen'⟩ := Option.map_eq_some_iff.mp hack
  obtain ⟨x, hx⟩ := List.length_eq_one_iff.mp hlen
  have hmem : x ∈ c.world.db.messages := by simp [hx]
  have hgone : x ∉ c'.world.db.messages := by simp [List.length_eq_zero_iff.mp hlen']
  exact ⟨c, c', x, hc, hc', hmem, hgone, ((stored_rows_durable hc hc').1 x hmem).2 hgone⟩

end ZenthDht
