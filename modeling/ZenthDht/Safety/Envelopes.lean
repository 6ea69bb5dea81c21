import ZenthDht.Safety.Signatures

/-!
# What the signature of an envelope authorises

SEND_MESSAGE verifies `sender || recipient || message_id || timestamp || content`.  The hashes have
32 bytes and the timestamp eight, but nothing says where the message id ends and where the content
begins, nor of which type the content is.  So the bytes determine the message among those with an
id of one length (`signed_bytes_determine`), and not beyond (`signed_bytes_shifted`).

Nor does a signature authorise one message only.  The `UNIQUE` of `message_id` speaks of the rows
that are there, and a row goes when it is acknowledged, purged, or its account deleted; then the
same envelope is accepted again (`message_accepted_again`).
-/

namespace ZenthDht

open Conc

variable {codec : Codec} {verifyDetached : Bytes → Bytes → Bytes → Bool}
variable {c c' : State} {t t' : Nat} {env env' : ZenthSignalEnvelope}

/-! ## What a SEND_MESSAGE does -/

/-- The columns of the message that come from the envelope. -/
structure ZenthSignalEnvelope.Stores (codec : Codec) (env : ZenthSignalEnvelope) (n : NewMessage) :
    Prop where
  messageId : n.messageId = env.messageId
  senderHashId : n.senderHashId = env.senderHashId
  recipientHashId : n.recipientHashId = env.recipientHashId
  content : n.content = env.contentBytes codec
  dilithiumSignature : n.dilithiumSignature = env.dilithiumSignature
  timestamp : n.timestamp = env.timestamp.toInt64

/-- The operation inserts the envelope, pushes it to its recipient, or is another one. -/
def ZenthSignalEnvelope.Sends (codec : Codec) (env : ZenthSignalEnvelope) : Op → Prop
  | .sql (.insertMessage n) => env.Stores codec n
  | .spawnSend u n => u = env.recipientHashId ∧
      n.payload = .messageReceived ⟨env.senderHashId, env.messageId, env.timestamp⟩
  | _ => True

/-- What a SEND_MESSAGE has done when it succeeds. -/
def ZenthSignalEnvelope.Sent (codec : Codec) (env : ZenthSignalEnvelope) (past : Past) : Prop :=
  ∃ n a, env.Stores codec n ∧ Did past (.sql (.insertMessage n)) (.ok a)

theorem checkSize_sends (sender : Bytes) (size : Nat) {past : Past} :
    (checkSize sender size).Obeys (fun _ o ↦ env.Sends codec o) (fun _ _ ↦ True) past := by
  have hlimit (l : LimiterId) (threshold : Nat) {past : Past} :
      (withinLimit l threshold sender size).Obeys (fun _ o ↦ env.Sends codec o)
        (fun _ _ ↦ True) past := by
    unfold withinLimit
    split
    · exact ⟨trivial, fun _ ↦ trivial⟩
    · trivial
  unfold checkSize
  split
  · trivial
  refine (hlimit _ _).bind fun past large _ ↦ ?_
  split
  · trivial
  refine (hlimit _ _).bind fun past mid _ ↦ ?_
  split <;> trivial

theorem expiryOf_sends (n : UInt64) {past : Past} :
    (expiryOf n).Obeys (fun _ o ↦ env.Sends codec o) (fun _ _ ↦ True) past := by
  unfold expiryOf
  split
  · trivial
  refine obeys_utcNow trivial fun now ↦ ?_
  split
  · trivial
  · exact ⟨trivial, fun impossible ↦ nomatch impossible⟩

theorem sendMessage_sends (env : ZenthSignalEnvelope) :
    (processCall codec (.sendMessage env)).Obeys (fun _ o ↦ env.Sends codec o)
      (fun past r ↦ r.success = true → env.Sent codec past) [] := by
  have hsends : (sendMessage codec env).Obeys (fun _ o ↦ env.Sends codec o)
      (fun past r ↦ ∀ resp : SendMessageResponse, r = .ok resp → resp.success = true →
        env.Sent codec past) [] := by
    unfold sendMessage
    refine obeys_sql trivial (fun e ↦ by cases e <;> rintro _ ⟨⟩ ⟨⟩) fun sender ↦ ?_
    refine obeys_call trivial fun valid ↦ ?_
    split
    · rintro _ ⟨⟩ ⟨⟩
    refine obeys_sql trivial (fun e ↦ by cases e <;> rintro _ ⟨⟩ ⟨⟩) fun recipient ↦ ?_
    refine obeys_currentMillis trivial fun now ↦ ?_
    unfold storeMessage
    refine (checkSize_sends _ _).bind fun past refusal _ ↦ ?_
    cases refusal with
    | some message => rintro _ ⟨⟩ ⟨⟩
    | none =>
    refine (expiryOf_sends _).bind fun past expiresAt _ ↦ ?_
    refine obeys_sql ⟨rfl, rfl, rfl, rfl, rfl, rfl⟩ (fun e ↦ (by simp)) fun n ↦ ?_
    unfold pushToRecipient
    refine ⟨trivial, fun now ↦ ⟨⟨rfl, rfl⟩, fun _ resp _ _ ↦ ?_⟩⟩
    exact ⟨_, n, ⟨rfl, rfl, rfl, rfl, rfl, rfl⟩, by simp [Did]⟩
  refine hsends.bind fun past r h ↦ ?_
  cases r with
  | error e => exact fun h ↦ by cases h
  | ok resp => exact fun hsuccess ↦ h resp rfl hsuccess

/-- A thread of `env` inserts and pushes nothing else. -/
theorem Reachable.sends (h : Reachable codec verifyDetached c)
    (hj : Runs c t (.request (.sendMessage env))) {o : Op} {r : Res o} (he : (t, ⟨o, r⟩) ∈ c.trace) :
    env.Sends codec o := by
  obtain ⟨pre, post, htr⟩ := List.append_of_mem he
  obtain ⟨c₁, ω, job, k, w, h₁, -, ht, -, ms, -, hrun⟩ := h.moment htr
  obtain rfl := (Runs.run ⟨_, ht⟩ hrun).unique hj
  exact h₁.request_guard (sendMessage_sends env) ht

/-! ## The bytes -/

/-- Thread `t` has found both the sender and the recipient of `env`. -/
def PassesChecks (c : State) (t : Nat) (env : ZenthSignalEnvelope) : Prop :=
  ∃ sender recipient, (t, ⟨.sql (.selectUser env.senderHashId), .ok sender⟩) ∈ c.trace ∧
    (t, ⟨.sql (.selectUser env.recipientHashId), .ok recipient⟩) ∈ c.trace

theorem PassesChecks.length (h : Reachable codec verifyDetached c) (hp : PassesChecks c t env) :
    env.senderHashId.length = 32 ∧ env.recipientHashId.length = 32 := by
  obtain ⟨sender, recipient, hs, hr⟩ := hp
  exact ⟨h.length_of_read ⟨sender, did_past.mpr hs, rfl⟩,
    h.length_of_read ⟨recipient, did_past.mpr hr, rfl⟩⟩

/-- Between accounts of hashes of 32 bytes, what follows the hashes is signed as one string. -/
theorem signedData_eq (hs : env.senderHashId.length = env'.senderHashId.length)
    (hr : env.recipientHashId.length = env'.recipientHashId.length)
    (h : env.signedData codec = env'.signedData codec) :
    env.senderHashId = env'.senderHashId ∧ env.recipientHashId = env'.recipientHashId ∧
    env.messageId ++ (le64 env.timestamp ++ env.contentBytes codec) =
      env'.messageId ++ (le64 env'.timestamp ++ env'.contentBytes codec) := by
  simp only [ZenthSignalEnvelope.signedData, List.append_assoc] at h
  obtain ⟨hsender, h⟩ := List.append_inj h hs
  obtain ⟨hrecipient, h⟩ := List.append_inj h hr
  exact ⟨hsender, hrecipient, h⟩

/-- With an id of the same length the rest is the same, too. -/
theorem rest_eq (hlen : env.messageId.length = env'.messageId.length)
    (h : env.messageId ++ (le64 env.timestamp ++ env.contentBytes codec) =
      env'.messageId ++ (le64 env'.timestamp ++ env'.contentBytes codec)) :
    env.messageId = env'.messageId ∧ env.timestamp = env'.timestamp ∧
      env.contentBytes codec = env'.contentBytes codec := by
  obtain ⟨hid, h⟩ := List.append_inj h hlen
  obtain ⟨hts, hcontent⟩ := List.append_inj h (by simp)
  exact ⟨hid, le64_inj hts, hcontent⟩

/-- The columns of a message that its signature is about. -/
def NewMessage.signed (n : NewMessage) : Bytes × Bytes × Bytes × Int64 × Bytes :=
  (n.senderHashId, n.recipientHashId, n.messageId, n.timestamp, n.content)

/-- **What the signed bytes determine.**  Let two envelopes for which SEND_MESSAGE has found both
accounts have the same signed bytes.  Then they have the same sender and the same recipient.  If
their message ids have the same length, the ids, the timestamps and the content bytes are the same
as well, and so is what is stored of them and what is pushed. -/
theorem signed_bytes_determine {clock instant : Nat} {ms : Moves}
    (h : (server codec verifyDetached).run (.start (.initial clock instant)) ms = some c)
    (hj : Runs c t (.request (.sendMessage env))) (hj' : Runs c t' (.request (.sendMessage env')))
    (hp : PassesChecks c t env) (hp' : PassesChecks c t' env')
    (heq : env.signedData codec = env'.signedData codec) :
    env.senderHashId = env'.senderHashId ∧ env.recipientHashId = env'.recipientHashId ∧
    (env.messageId.length = env'.messageId.length →
      env.messageId = env'.messageId ∧ env.timestamp = env'.timestamp ∧
      env.contentBytes codec = env'.contentBytes codec ∧
      (∀ n n' r r', (t, ⟨.sql (.insertMessage n), r⟩) ∈ c.trace →
        (t', ⟨.sql (.insertMessage n'), r'⟩) ∈ c.trace → n.signed = n'.signed) ∧
      ∀ u u' n n' r r', (t, ⟨.spawnSend u n, r⟩) ∈ c.trace →
        (t', ⟨.spawnSend u' n', r'⟩) ∈ c.trace → u = u' ∧ n.payload = n'.payload) := by
  have hc : Reachable codec verifyDetached c := ⟨clock, instant, ms, h⟩
  obtain ⟨hs, hr⟩ := hp.length hc
  obtain ⟨hs', hr'⟩ := hp'.length hc
  obtain ⟨hsender, hrecipient, hrest⟩ := signedData_eq (hs.trans hs'.symm) (hr.trans hr'.symm) heq
  refine ⟨hsender, hrecipient, fun hlen ↦ ?_⟩
  obtain ⟨hid, hts, hcontent⟩ := rest_eq hlen hrest
  refine ⟨hid, hts, hcontent, fun n n' r r' hn hn' ↦ ?_, fun u u' n n' r r' hn hn' ↦ ?_⟩
  · have hstores : env.Stores codec n := hc.sends hj hn
    have hstores' : env'.Stores codec n' := hc.sends hj' hn'
    simp only [NewMessage.signed, hstores.senderHashId, hstores.recipientHashId,
      hstores.messageId, hstores.timestamp, hstores.content, hstores'.senderHashId,
      hstores'.recipientHashId, hstores'.messageId, hstores'.timestamp, hstores'.content, hsender,
      hrecipient, hid, hts, hcontent]
  · obtain ⟨rfl, hpayload⟩ := hc.sends hj hn
    obtain ⟨rfl, hpayload'⟩ := hc.sends hj' hn'
    refine ⟨hrecipient, ?_⟩
    rw [hpayload, hpayload', hsender, hid, hts]

namespace Sample

/-- A message of one zero byte with the id 9. -/
def zeroByte : ZenthSignalEnvelope :=
  ⟨1, word 1, word 2, some (.regularMessage ⟨[0]⟩), signature, 0, [9], 0⟩

/-- An empty message, whose id has the first byte of that timestamp. -/
def shifted (content : Content) : ZenthSignalEnvelope :=
  ⟨1, word 1, word 2, some content, signature, 0, [9, 0], 0⟩

/-- The empty messages of both types. -/
def emptyRegular : ZenthSignalEnvelope := shifted (.regularMessage ⟨[]⟩)

def emptyPrekey : ZenthSignalEnvelope := shifted (.prekeyMessage ⟨[], none, []⟩)

def shiftSigned : List (Bytes × Bytes) := [(key 1, zeroByte.signedData Sample.codec)]

/-- User 1 signs one message; three are sent to user 2. -/
def shiftRun : Moves :=
  registers 0 1 ++ registers 1 2 ++ .spawn (.request (.sendMessage zeroByte)) :: steps 2 7 ++
  .spawn (.request (.sendMessage emptyRegular)) :: steps 3 7 ++
  .spawn (.request (.sendMessage emptyPrekey)) :: steps 4 5

/-- The statements of a thread that succeeded. -/
def succeeded (c : State) (t : Nat) : List Stmt := (past t c.trace).filterMap okStmt

theorem passesChecks_of_succeeded {c : State} {t : Nat} {env : ZenthSignalEnvelope}
    (hs : .selectUser env.senderHashId ∈ succeeded c t)
    (hr : .selectUser env.recipientHashId ∈ succeeded c t) : PassesChecks c t env := by
  have hread {u : Bytes} (h : .selectUser u ∈ succeeded c t) :
      ∃ row, (t, ⟨.sql (.selectUser u), .ok row⟩) ∈ c.trace := by
    obtain ⟨e, he, hok⟩ := List.mem_filterMap.mp h
    obtain ⟨row, rfl⟩ := ok_of_okStmt hok
    exact ⟨row, mem_past.mp he⟩
  obtain ⟨sender, hsender⟩ := hread hs
  obtain ⟨recipient, hrecipient⟩ := hread hr
  exact ⟨sender, recipient, hsender, hrecipient⟩

/-- The accounts that the threads of the run have found. -/
theorem shiftRun_reads : ∃ c, final shiftSigned shiftRun = some c ∧
    PassesChecks c 2 zeroByte ∧ PassesChecks c 3 emptyRegular ∧ PassesChecks c 4 emptyPrekey := by
  have hrun : ((final shiftSigned shiftRun).map fun c ↦
      [2, 3, 4].map fun t ↦ (succeeded c t).take 2) =
        some (List.replicate 3 [.selectUser (word 1), .selectUser (word 2)]) := by decide +kernel
  obtain ⟨c, hc, hreads⟩ := Option.map_eq_some_iff.mp hrun
  have hfound (t : Nat) (ht : t ∈ [2, 3, 4]) :
      (succeeded c t).take 2 = [.selectUser (word 1), .selectUser (word 2)] :=
    List.eq_of_mem_replicate (hreads ▸ List.mem_map_of_mem ht)
  have hpasses (t : Nat) (ht : t ∈ [2, 3, 4]) (env : ZenthSignalEnvelope)
      (hs : env.senderHashId = word 1) (hr : env.recipientHashId = word 2) :
      PassesChecks c t env := by
    refine passesChecks_of_succeeded (List.mem_of_mem_take (i := 2) ?_)
      (List.mem_of_mem_take (i := 2) ?_)
    · rw [hfound t ht, hs]
      exact List.mem_cons_self
    · rw [hfound t ht, hr]
      exact List.mem_cons_of_mem _ List.mem_cons_self
  exact ⟨c, hc, hpasses 2 (by simp) _ rfl rfl, hpasses 3 (by simp) _ rfl rfl,
    hpasses 4 (by simp) _ rfl rfl⟩

end Sample

open Sample in
/-- One signature, two messages that are stored, with different ids and contents, and a third one
of another type, which is refused only because the id of the second is stored. -/
theorem signed_bytes_shifted : ∃ c, final shiftSigned shiftRun = some c ∧
    zeroByte.signedData Sample.codec = emptyRegular.signedData Sample.codec ∧
    zeroByte.signedData Sample.codec = emptyPrekey.signedData Sample.codec ∧
    zeroByte.messageId ≠ emptyRegular.messageId ∧ emptyRegular.content ≠ emptyPrekey.content ∧
    c.world.db.messages.map (fun x ↦ (x.messageId, x.content)) = [([9], [0]), ([9, 0], [])] ∧
    PassesChecks c 2 zeroByte ∧ PassesChecks c 3 emptyRegular ∧ PassesChecks c 4 emptyPrekey := by
  have hrun : ((final shiftSigned shiftRun).map fun c ↦
      c.world.db.messages.map fun x ↦ (x.messageId, x.content)) =
        some [([9], [0]), ([9, 0], [])] := by decide +kernel
  obtain ⟨c, hc, hpasses⟩ := shiftRun_reads
  rw [hc, Option.map_some, Option.some.injEq] at hrun
  exact ⟨c, hc, by decide +kernel, by decide +kernel, by decide, by decide, hrun, hpasses⟩

open Sample in
/-- Of the two envelopes with the id 9, 0 the same is stored and pushed. -/
theorem signed_bytes_determine_shiftRun : ∃ c, final shiftSigned shiftRun = some c ∧
    emptyRegular.contentBytes Sample.codec = emptyPrekey.contentBytes Sample.codec ∧
    ∀ n n' r r', (3, ⟨.sql (.insertMessage n), r⟩) ∈ c.trace →
      (4, ⟨.sql (.insertMessage n'), r'⟩) ∈ c.trace → n.signed = n'.signed := by
  have hjobs : ((final shiftSigned shiftRun).map fun c ↦ [3, 4].map fun t ↦
      (c.pool[t]?).map (·.job)) = some [some (.request (.sendMessage emptyRegular)),
        some (.request (.sendMessage emptyPrekey))] := by decide +kernel
  obtain ⟨c, hc, -, hp, hp'⟩ := shiftRun_reads
  rw [hc, Option.map_some, Option.some.injEq] at hjobs
  obtain ⟨hj, hjobs⟩ := List.cons.inj hjobs
  obtain ⟨⟨_, rest⟩, ht, rfl⟩ := Option.map_eq_some_iff.mp hj
  obtain ⟨⟨_, rest'⟩, ht', rfl⟩ := Option.map_eq_some_iff.mp (List.cons.inj hjobs).1
  obtain ⟨-, -, hsame⟩ := signed_bytes_determine hc ⟨rest, ht⟩ ⟨rest', ht'⟩ hp hp'
    (by decide +kernel)
  obtain ⟨-, -, hcontent, hstored, -⟩ := hsame rfl
  exact ⟨c, hc, hcontent, hstored⟩

/-! ## Replays -/

/-- The statements that remove a message inserted as `n`. -/
def Stmt.Removes (n : NewMessage) : Stmt → Prop
  | .deleteMessage i r => i = n.messageId ∧ r = n.recipientHashId
  | .deleteMessagesOf u => u = n.senderHashId ∨ u = n.recipientHashId
  | .purgeMessages now => n.expiresAt < now
  | _ => False

/-- A message inserted as `n` is stored. -/
def Db.HoldsMessage (db : Db) (n : NewMessage) : Prop :=
  ∃ x ∈ db.messages, x.messageId = n.messageId ∧ x.senderHashId = n.senderHashId ∧
    x.recipientHashId = n.recipientHashId ∧ x.expiresAt = n.expiresAt

theorem Db.HoldsMessage.exec {now : NaiveDateTime} {db : Db} {s : Stmt} {n : NewMessage}
    (h : db.HoldsMessage n) : (s.exec now db).2.HoldsMessage n ∨ s.Removes n ∧ ∃ a, (s.exec now db).1 = .ok a := by
  obtain ⟨x, hx, hid, hsender, hrecipient, hexpires⟩ := h
  rcases @messages_exec now db s x hx with hin | rfl | rfl | rfl | ⟨now', rfl, hlt⟩
  · exact .inl ⟨x, hin, hid, hsender, hrecipient, hexpires⟩
  · exact .inr ⟨⟨hid, hrecipient⟩, _, rfl⟩
  · exact .inr ⟨.inl hsender, _, rfl⟩
  · exact .inr ⟨.inr hrecipient, _, rfl⟩
  · exact .inr ⟨show n.expiresAt < now' by rwa [← hexpires], _, rfl⟩

/-- An INSERT that succeeds finds no message with its id, and leaves its own. -/
theorem insertMessage_ok {now : NaiveDateTime} {db : Db} {n : NewMessage} {a : Nat}
    (h : ((Stmt.insertMessage n).exec now db).1 = .ok a) :
    (∀ x ∈ db.messages, x.messageId ≠ n.messageId) ∧
      ((Stmt.insertMessage n).exec now db).2.HoldsMessage n := by
  simp only [Stmt.exec] at h ⊢
  split at h
  · exact nomatch h
  next hrange =>
  split at h
  · exact nomatch h
  next hnew =>
    rw [if_neg hrange, if_neg hnew]
    refine ⟨fun x hx hid ↦ hnew (List.any_eq_true.mpr ⟨x, hx, by simpa using hid⟩), ?_⟩
    exact ⟨_, List.mem_append_right _ (List.mem_singleton.mpr rfl), rfl, rfl, rfl, rfl⟩

/-- Place `p` of the history is the insert of `n` by thread `t`. -/
def InsertedAt (c : State) (t p : Nat) (n : NewMessage) : Prop :=
  ∃ a, c.trace[p]? = some (t, ⟨.sql (.insertMessage n), .ok a⟩)

/-- Between the places `p` and `q` of the history, a statement has removed the message `n`. -/
def RemovedBetween (c : State) (p q : Nat) (n : NewMessage) : Prop :=
  ∃ i u s b, p < i ∧ i < q ∧ c.trace[i]? = some (u, ⟨.sql s, .ok b⟩) ∧ s.Removes n

/-- Between two inserts with one id the first message is removed. -/
theorem removed_between (h : Reachable codec verifyDetached c) {p q : Nat} {n n' : NewMessage}
    (hpq : p < q) (hp : InsertedAt c t p n) (hq : InsertedAt c t' q n')
    (hid : n.messageId = n'.messageId) : RemovedBetween c p q n := by
  obtain ⟨a, hp⟩ := hp
  obtain ⟨a', hq⟩ := hq
  obtain ⟨c₁, job, c₂, ms, d, ext, -, he, -, hok, -, hrun, hok', -, -, hext, hplace⟩ :=
    h.between hpq hp hq
  by_contra hno
  have hholds : d.world.db.HoldsMessage n := by
    refine db_undisturbed (P := fun db ↦ db.HoldsMessage n) (D := Stmt.Removes n) ?_ Db.HoldsMessage.exec hrun
      hext (fun u s b hmem hs ↦ ?_) ?_
    · rintro db db' hsame ⟨x, hx, hrow⟩
      exact ⟨x, hsame.messages.mem_iff.mp hx, hrow⟩
    · obtain ⟨i, hpi, hiq, hi⟩ := hplace u _ hmem
      exact hno ⟨i, u, s, b, hpi, hiq, hi, hs⟩
    · rw [he.db]
      exact (insertMessage_ok hok).2
  obtain ⟨x, hx, hxid, -⟩ := hholds
  exact (insertMessage_ok hok').1 x hx (hxid.trans hid)

/-- **A message is accepted once as long as it is stored.**  If two SEND_MESSAGE requests with one
message id both succeed in a run, then each has inserted its message, and the message inserted
first was removed before the second insert: by an acknowledgement for its recipient, by a purge
after its expiry, or with the account of its sender or its recipient. -/
theorem message_accepted_again {clock instant : Nat} {ms : Moves} {reply reply' : Reply}
    (h : (server codec verifyDetached).run (.start (.initial clock instant)) ms = some c)
    (hne : t ≠ t') (hid : env.messageId = env'.messageId)
    (hans : c.answered t = some (.request (.sendMessage env), reply)) (hok : reply.success = true)
    (hans' : c.answered t' = some (.request (.sendMessage env'), reply'))
    (hok' : reply'.success = true) :
    ∃ p q n n', InsertedAt c t p n ∧ env.Stores codec n ∧ InsertedAt c t' q n' ∧
      env'.Stores codec n' ∧
      (p < q ∧ RemovedBetween c p q n ∨ q < p ∧ RemovedBetween c q p n') := by
  have hc : Reachable codec verifyDetached c := ⟨clock, instant, ms, h⟩
  obtain ⟨n, a, hn, hdid⟩ := hc.request_answer (sendMessage_sends env) hans hok
  obtain ⟨n', a', hn', hdid'⟩ := hc.request_answer (sendMessage_sends env') hans' hok'
  obtain ⟨p, hp⟩ := List.getElem?_of_mem (did_past.mp hdid)
  obtain ⟨q, hq⟩ := List.getElem?_of_mem (did_past.mp hdid')
  have hids : n.messageId = n'.messageId := by rw [hn.messageId, hn'.messageId, hid]
  refine ⟨p, q, n, n', ⟨a, hp⟩, hn, ⟨a', hq⟩, hn', ?_⟩
  rcases Nat.lt_trichotomy p q with hpq | rfl | hqp
  · exact .inl ⟨hpq, removed_between hc hpq ⟨a, hp⟩ ⟨a', hq⟩ hids⟩
  · rw [hp] at hq
    exact absurd (Prod.mk.inj (Option.some.inj hq)).1 hne
  · exact .inr ⟨hqp, removed_between hc hqp ⟨a', hq⟩ ⟨a, hp⟩ hids.symm⟩

namespace Sample

/-- User 2 acknowledges the message of user 1. -/
def zeroAck : MessageAck := ⟨[9], word 2, 0, signature⟩

def replaySigned : List (Bytes × Bytes) :=
  [(key 1, zeroByte.signedData Sample.codec), (key 2, zeroAck.signedData)]

/-- User 1 sends a message, user 2 acknowledges it, and the envelope arrives again. -/
def envelopeReplay : Moves :=
  registers 0 1 ++ registers 1 2 ++ .spawn (.request (.sendMessage zeroByte)) :: steps 2 7 ++
  .spawn (.request (.ackMessage zeroAck)) :: steps 3 3 ++
  .spawn (.request (.sendMessage zeroByte)) :: steps 4 7

def acceptedReply : Reply := ⟨true, .sendMessage { success := true, messageId := [9] }, ""⟩

theorem envelopeReplay_view : ∃ c, final replaySigned envelopeReplay = some c ∧
    c.answered 2 = some (.request (.sendMessage zeroByte), acceptedReply) ∧
    c.answered 4 = some (.request (.sendMessage zeroByte), acceptedReply) ∧
    c.world.db.messages.map (·.messageId) = [[9]] := by
  have hrun : ((final replaySigned envelopeReplay).map fun c ↦
      (c.answered 2, c.answered 4, c.world.db.messages.map (·.messageId))) =
        some (some (.request (.sendMessage zeroByte), acceptedReply),
          some (.request (.sendMessage zeroByte), acceptedReply), [[9]]) := by decide +kernel
  obtain ⟨c, hc, hview⟩ := Option.map_eq_some_iff.mp hrun
  obtain ⟨hfirst, hview⟩ := Prod.mk.inj hview
  obtain ⟨hsecond, hrows⟩ := Prod.mk.inj hview
  exact ⟨c, hc, hfirst, hsecond, hrows⟩

end Sample

open Sample in
/-- The envelope is accepted a second time, and the message is stored again. -/
theorem envelope_replayed : ∃ c, final replaySigned envelopeReplay = some c ∧
    c.answered 2 = some (.request (.sendMessage zeroByte), acceptedReply) ∧
    c.answered 4 = some (.request (.sendMessage zeroByte), acceptedReply) ∧
    acceptedReply.success = true ∧ c.world.db.messages.map (·.messageId) = [[9]] := by
  obtain ⟨c, hc, hfirst, hsecond, hrows⟩ := envelopeReplay_view
  exact ⟨c, hc, hfirst, hsecond, rfl, hrows⟩

open Sample in
/-- Between the two inserts of the message it was acknowledged. -/
theorem message_accepted_again_replay : ∃ c p q n n', final replaySigned envelopeReplay = some c ∧
    InsertedAt c 2 p n ∧ InsertedAt c 4 q n' ∧
    (p < q ∧ RemovedBetween c p q n ∨ q < p ∧ RemovedBetween c q p n') := by
  obtain ⟨c, hc, hfirst, hsecond, -⟩ := envelopeReplay_view
  obtain ⟨p, q, n, n', hp, -, hq, -, hbetween⟩ :=
    message_accepted_again hc (by decide) rfl hfirst rfl hsecond rfl
  exact ⟨c, p, q, n, n', hc, hp, hq, hbetween⟩

end ZenthDht
