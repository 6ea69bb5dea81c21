import ZenthDht.Safety.Durability
import ZenthDht.Spec.Messages

/-!
# Acknowledgements

SEND_MESSAGE stores a message under any id, the empty one included.  ACK_MESSAGE refuses an empty
id before it looks at anything else.  So a message can be acknowledged exactly if its id is not
empty (`ack_succeeds`).
-/

namespace ZenthDht

open Conc

variable {codec : Codec} {verifyDetached : Bytes → Bytes → Bytes → Bool}
variable {c c' : State} {req : MessageAck} {x : MessageModel} {y : User}

/-- The request acknowledges the message `x`. -/
structure MessageAck.Names (req : MessageAck) (x : MessageModel) : Prop where
  messageId : req.messageId = x.messageId
  recipientHashId : req.recipientHashId = x.recipientHashId

/-- Run alone from `c` without a failure of the database, the acknowledgement `req` is answered with
success, has removed the row `x`, and has done nothing else. -/
def Acknowledges (codec : Codec) (verifyDetached : Bytes → Bytes → Bytes → Bool) (c : State)
    (req : MessageAck) (x : MessageModel) : Prop :=
  (∃ reply c', Answers codec verifyDetached c (.ackMessage req) reply c' ∧
    Unfailing c' c.pool.length) ∧
  ∀ reply c', Answers codec verifyDetached c (.ackMessage req) reply c' →
    Unfailing c' c.pool.length → reply.success = true ∧
      c'.world.db.Same (c.world.db.withoutMessage x) ∧
      ∃ user n, past c.pool.length c'.trace = req.donePast user n

theorem Answers.reachable {call : Call} {reply : Reply}
    (h : Answers codec verifyDetached c call reply c') (hc : Reachable codec verifyDetached c) :
    Reachable codec verifyDetached c' := by
  obtain ⟨ms, hrun, -⟩ := h
  exact hc.run hrun

theorem Answers.replays {call : Call} {reply : Reply}
    (h : Answers codec verifyDetached c call reply c') (hc : Reachable codec verifyDetached c) :
    Replays (past c.pool.length c'.trace) c.world.db c'.world.db := by
  obtain ⟨ms, hrun, halone, -⟩ := h
  exact hc.replays hrun halone

theorem Answers.answered {call : Call} {reply : Reply}
    (h : Answers codec verifyDetached c call reply c') :
    c'.answered c.pool.length = some (.request call, reply) := by
  obtain ⟨ms, -, -, hans⟩ := h
  exact hans

/-- The hashes of users have 32 bytes. -/
theorem Reachable.hash_length (h : Reachable codec verifyDetached c) (hy : y ∈ c.world.db.users) :
    y.userHashId.length = 32 := by
  revert y
  refine h.induction (I := fun d ↦ ∀ {y}, y ∈ d.world.db.users → y.userHashId.length = 32)
    (fun _ _ _ hy ↦ absurd hy List.not_mem_nil) ?_
  intro d m d' hd hI hs y hy
  rcases Step.db hs with hsame | ⟨t, job, s, he⟩
  · exact hI (hsame.users.mem_iff.mpr hy)
  · have hguard := hd.executes he
    rw [he.db] at hy
    rcases mem_users_exec hy with hy | ⟨n, rfl, -, rfl⟩ | ⟨z, hz, k, rfl, rfl⟩ |
      ⟨z, hz, k, g, b, rfl, rfl⟩
    · exact hI hy
    · obtain ⟨-, req, -, rfl, hlen⟩ := hguard
      exact hlen
    · exact hI (y := z) hz
    · exact hI (y := z) hz

theorem length_of_verified {key message signature : Bytes}
    (h : verifyDilithiumSignature verifyDetached key message signature = true) :
    signature.length = signatureBytes := by
  unfold verifyDilithiumSignature at h
  split at h
  · exact nomatch h
  split at h
  · exact nomatch h
  next hlen => exact not_not.mp hlen

section

variable (hc : Reachable codec verifyDetached c) (hy : y ∈ c.world.db.users)
variable (hu : y.userHashId = req.recipientHashId)
variable (hsigned : verifyDilithiumSignature verifyDetached y.identityKeyDilithium req.signedData
  req.dilithiumSignature = true)
include hc hy hu hsigned

/-- An acknowledgement signed under the current key of the recipient is not refused. -/
theorem MessageAck.not_refused (hid : req.messageId ≠ []) {reply : Reply}
    (h : Answers codec verifyDetached c (.ackMessage req) reply c')
    (hok : Unfailing c' c.pool.length) : ¬ req.Refused (past c.pool.length c'.trace) := by
  have hreplays := h.replays hc
  have hresult {s : Stmt} {r : Res (.sql s)} := hok.result (s := s) (r := r)
  have hverdict {b : Bool} (hv : (c.pool.length,
      (⟨.verify y.identityKeyDilithium req.signedData req.dilithiumSignature, b⟩ : Event Res)) ∈
        c'.trace) :
      true = b := hsigned.symm.trans ((h.reachable hc).verdict hv)
  generalize hpast : past c.pool.length c'.trace = past at hreplays hresult
  intro hrefused
  cases hrefused with
  | unnamed hnil =>
      have hlen := hc.hash_length hy
      rw [hu, hnil.resolve_left hid] at hlen
      exact nomatch hlen
  | unsigned hnil =>
      have hlen := length_of_verified hsigned
      rw [hnil] at hlen
      exact nomatch hlen
  | unread e =>
      obtain ⟨db₀, now, hsame, hr, -⟩ := hreplays.executed (hresult List.mem_cons_self)
      rw [← hu, hc.selectUser hy hsame] at hr
      exact nomatch hr
  | invalid user =>
      obtain ⟨db₀, now, hsame, hr, -⟩ := hreplays.executed nofun
      rw [← hu, hc.selectUser hy hsame] at hr
      obtain rfl := Except.ok.inj hr
      have hv : (c.pool.length, (⟨.verify user.identityKeyDilithium req.signedData
          req.dilithiumSignature, false⟩ : Event Res)) ∈ c'.trace := by
        rw [← mem_past, hpast]
        exact List.mem_cons_of_mem _ List.mem_cons_self
      exact nomatch hverdict hv
  | undeleted user e =>
      obtain ⟨db₀, now, -, -, hreplays⟩ := hreplays.executed nofun
      obtain ⟨db₁, -, hreplays⟩ := hreplays
      obtain ⟨db₂, now', -, hr, -⟩ := hreplays.executed
        (hresult (List.mem_cons_of_mem _ (List.mem_cons_of_mem _ List.mem_cons_self)))
      exact nomatch hr

/-- An acknowledgement ends. -/
theorem MessageAck.ends (hid : req.messageId ≠ []) :
    ∃ reply c', Answers codec verifyDetached c (.ackMessage req) reply c' ∧
      Unfailing c' c.pool.length := by
  have hrecipient : req.recipientHashId ≠ [] := by
    intro hnil
    have hlen := hc.hash_length hy
    rw [hu, hnil] at hlen
    exact nomatch hlen
  have hsignature : req.dilithiumSignature ≠ [] := by
    intro hnil
    have hlen := length_of_verified hsigned
    rw [hnil] at hlen
    exact nomatch hlen
  let w : World := { c.world with
    db := ((Stmt.deleteMessage req.messageId req.recipientHashId).exec c.world.clock c.world.db).2 }
  have hexec : (server codec verifyDetached).exec (ackMessage req) [.none, .none, .none] c.world =
      some (.ok (), w) := by
    unfold ackMessage
    rw [if_neg (by simp [hid, hrecipient]), if_neg hsignature]
    refine (Machine.exec_perform (.ok y) c.world ?_).trans ?_
    · rw [← hu]
      have hread : ((Stmt.selectUser y.userHashId).exec c.world.clock c.world.db).1 = .ok y :=
        hc.selectUser hy .rfl
      exact congrArg (fun r ↦ some (r, c.world)) hread
    refine (Machine.exec_perform true c.world ?_).trans rfl
    exact congrArg (fun r ↦ some (r, c.world)) hsigned
  have hcall : (server codec verifyDetached).exec (processCall codec (.ackMessage req))
      [.none, .none, .none] c.world = some (⟨true, .empty, ""⟩, w) := Machine.exec_map _ hexec
  obtain ⟨c', hanswers, -⟩ := answers_of_exec hcall
  refine ⟨_, c', hanswers, fun s m hmem ↦ ?_⟩
  rcases (hanswers.reachable hc).request_answer (ackMessage_done req) hanswers.answered with
    ⟨-, user, n, hpast, -⟩ | ⟨hfail, -⟩
  · rw [← mem_past, hpast] at hmem
    simp only [MessageAck.donePast, List.mem_cons, List.not_mem_nil, or_false] at hmem
    rcases hmem with he | he | he <;> cases he
  · exact nomatch hfail

end

/-- A message without an id cannot be acknowledged. -/
theorem not_acknowledges (h : Reachable codec verifyDetached c) (hid : req.messageId = []) :
    ¬ Acknowledges codec verifyDetached c req x := by
  rintro ⟨⟨reply, c', hanswers, hok⟩, hall⟩
  rcases (hanswers.reachable h).request_answer (ackMessage_done req) hanswers.answered with
    ⟨hne, -⟩ | ⟨hfail, -⟩
  · exact hne hid
  · exact nomatch hfail.symm.trans (hall reply c' hanswers hok).1

/-- **Every message with an id can be acknowledged.**  In every reachable state, for every stored
message whose recipient has an account: an acknowledgement that is signed under the current key of
the recipient succeeds, removes this row and does nothing else, if and only if the id of the
message is not empty. -/
theorem ack_succeeds (h : Reachable codec verifyDetached c) (hx : x ∈ c.world.db.messages)
    (hy : y ∈ c.world.db.users) (hu : y.userHashId = x.recipientHashId) (hreq : req.Names x)
    (hsigned : verifyDilithiumSignature verifyDetached y.identityKeyDilithium
      (x.messageId ++ x.recipientHashId ++ le64 req.timestamp) req.dilithiumSignature = true) :
    Acknowledges codec verifyDetached c req x ↔ x.messageId ≠ [] := by
  have hdata : req.signedData = x.messageId ++ x.recipientHashId ++ le64 req.timestamp := by
    rw [MessageAck.signedData, hreq.messageId, hreq.recipientHashId]
  rw [← hdata] at hsigned
  rw [← hreq.recipientHashId] at hu
  constructor
  · intro hacks hnil
    exact not_acknowledges h (hreq.messageId.trans hnil) hacks
  · intro hid
    rw [← hreq.messageId] at hid
    refine ⟨MessageAck.ends h hy hu hsigned hid, fun reply c' hanswers hok ↦ ?_⟩
    rcases (hanswers.reachable h).request_answer (ackMessage_done req) hanswers.answered with
      ⟨-, user, n, hpast, rfl⟩ | ⟨-, hrefused⟩
    · have hreplays := hanswers.replays h
      rw [hpast] at hreplays
      have hdeleted := MessageAck.donePast_replays hreplays c.world.clock
      rw [hreq.messageId, hreq.recipientHashId, exec_deleteMessage h hx] at hdeleted
      exact ⟨rfl, hdeleted.symm, user, n, hpast⟩
    · exact absurd hrefused (MessageAck.not_refused h hy hu hsigned hid hanswers hok)

namespace Sample

/-- A message from user 1 to user 2 with the id `i`. -/
def note (i : Bytes) : ZenthSignalEnvelope := { envelope with messageId := i }

/-- User 2 acknowledges it. -/
def noteAck (i : Bytes) : MessageAck := ⟨i, word 2, 4, signature⟩

def noteSigned (i : Bytes) : List (Bytes × Bytes) :=
  [(key 1, (note i).signedData Sample.codec), (key 2, i ++ word 2 ++ le64 4)]

/-- Users 1 and 2 register and user 1 sends the message. -/
def noteRun (i : Bytes) : Moves :=
  registers 0 1 ++ registers 1 2 ++ .spawn (.request (.sendMessage (note i))) :: steps 2 5

/-- What is in the tables after a run. -/
def tablesOf (c : State) : List (Bytes × Bytes) × List (Bytes × Bytes) :=
  (c.world.db.messages.map fun x ↦ (x.messageId, x.recipientHashId),
    c.world.db.users.map fun y ↦ (y.userHashId, y.identityKeyDilithium))

/-- The message and its recipient in a state in which they are in the tables. -/
theorem rows_of_tables {c : State} {i : Bytes}
    (h : tablesOf c = ([(i, word 2)], [(word 1, key 1), (word 2, key 2)])) :
    ∃ x ∈ c.world.db.messages, ∃ y ∈ c.world.db.users, y.userHashId = x.recipientHashId ∧
      (noteAck i).Names x ∧ y.identityKeyDilithium = key 2 := by
  obtain ⟨hmessages, husers⟩ := Prod.mk.inj h
  have hx : (i, word 2) ∈ c.world.db.messages.map fun x ↦ (x.messageId, x.recipientHashId) := by
    rw [hmessages]
    exact List.mem_cons_self
  have hy : (word 2, key 2) ∈
      c.world.db.users.map fun y ↦ (y.userHashId, y.identityKeyDilithium) := by
    rw [husers]
    exact List.mem_cons_of_mem _ List.mem_cons_self
  obtain ⟨x, hxm, hxi⟩ := List.mem_map.mp hx
  obtain ⟨y, hym, hyk⟩ := List.mem_map.mp hy
  obtain ⟨hi, hr⟩ := Prod.mk.inj hxi
  obtain ⟨hu, hk⟩ := Prod.mk.inj hyk
  exact ⟨x, hxm, y, hym, hu.trans hr.symm, ⟨hi.symm, hr.symm⟩, hk⟩

end Sample

open Sample in
/-- A message without an id is stored for user 2, who cannot acknowledge it. -/
theorem unnamed_message_stays : ∃ c : State, final (noteSigned []) (noteRun []) = some c ∧
    ∃ x ∈ c.world.db.messages, ∃ y ∈ c.world.db.users, y.userHashId = x.recipientHashId ∧
      (noteAck []).Names x ∧ verifyDilithiumSignature (Sample.verify (noteSigned []))
        y.identityKeyDilithium (x.messageId ++ x.recipientHashId ++ le64 (noteAck []).timestamp)
        (noteAck []).dilithiumSignature = true ∧
      ¬ Acknowledges Sample.codec (Sample.verify (noteSigned [])) c (noteAck []) x := by
  have hrun : ((final (noteSigned []) (noteRun [])).map tablesOf) =
      some ([([], word 2)], [(word 1, key 1), (word 2, key 2)]) := by decide +kernel
  obtain ⟨c, hc, htables⟩ := Option.map_eq_some_iff.mp hrun
  obtain ⟨x, hx, y, hy, hu, hnames, hk⟩ := rows_of_tables htables
  refine ⟨c, hc, x, hx, y, hy, hu, hnames, ?_, not_acknowledges ⟨0, 0, _, hc⟩ rfl⟩
  rw [hk, ← hnames.messageId, ← hnames.recipientHashId]
  decide +kernel

open Sample in
theorem ack_succeeds_noteRun : ∃ c : State, final (noteSigned [9]) (noteRun [9]) = some c ∧
    ∃ x ∈ c.world.db.messages,
      Acknowledges Sample.codec (Sample.verify (noteSigned [9])) c (noteAck [9]) x := by
  have hrun : ((final (noteSigned [9]) (noteRun [9])).map tablesOf) =
      some ([([9], word 2)], [(word 1, key 1), (word 2, key 2)]) := by decide +kernel
  obtain ⟨c, hc, htables⟩ := Option.map_eq_some_iff.mp hrun
  obtain ⟨x, hx, y, hy, hu, hnames, hk⟩ := rows_of_tables htables
  refine ⟨c, hc, x, hx, (ack_succeeds ⟨0, 0, _, hc⟩ hx hy hu hnames ?_).mpr ?_⟩
  · rw [hk, ← hnames.messageId, ← hnames.recipientHashId]
    decide +kernel
  · rw [← hnames.messageId]
    exact List.cons_ne_nil _ _

end ZenthDht
