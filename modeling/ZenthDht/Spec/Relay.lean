import ZenthDht.Data.Mailbox
import ZenthDht.Spec.Commit

/-!
# The relay and its clients

What a device sees of its mailbox: the entries in the answers to its RELAY_FETCH requests, in
the order of the requests, and the id of the last of them, which is where its next request reads
from.  `InLoop` is the discipline of a client that has one request at a time and reads and
acknowledges at this position.

A RELAY_FETCH executes one statement, its last step, and answers with what that has returned
(`code_relayOrder`).
-/

namespace ZenthDht

open Conc

/-- The threads of a server. -/
abbrev Pool : Type := List (Thread Res Job (Option Reply))

/-! ## What a client sees -/

/-- The entry a client receives for a row. -/
def RelayMessage.entry (x : RelayMessage) : RelayEntry := ⟨x.id, x.ciphertext, x.nonce⟩

/-- The device whose mailbox a job reads or acknowledges. -/
def Job.mailbox : Job → Option Bytes
  | .request (.relayFetch req) => some req.forDeviceDilithiumPubkey
  | .request (.relayAck req) => some req.forDeviceDilithiumPubkey
  | _ => none

/-- The id it names. -/
def Job.position : Job → Int
  | .request (.relayFetch req) => req.sinceId.toInt
  | .request (.relayAck req) => req.upToId.toInt
  | _ => 0

/-- The entries of an answer. -/
def Reply.entries : Reply → List RelayEntry
  | ⟨_, .relayFetch resp, _⟩ => resp.entries
  | _ => []

/-- The page that a thread has returned to the device `d`. -/
def relayPage (d : Bytes) : Thread Res Job (Option Reply) → List RelayEntry
  | ⟨.request (.relayFetch req), .ret (some reply)⟩ =>
    if req.forDeviceDilithiumPubkey = d then reply.entries else []
  | _ => []

/-- All the pages returned to the device `d`. -/
def relayReturned (d : Bytes) (pool : Pool) : List RelayEntry := pool.flatMap (relayPage d)

/-- The last id returned to the device `d`, and 0 at first. -/
def relayCursor (d : Bytes) (pool : Pool) : Nat := lastId RelayEntry.id (relayReturned d pool)

/-- A request on the mailbox of `d` that has not been answered. -/
def relayBusy (d : Bytes) : Thread Res Job (Option Reply) → Bool
  | ⟨job, .perform _ _⟩ => job.mailbox = some d
  | _ => false

/-- The client of the device `d` starts a request on its mailbox when the last one has been
answered, and at its cursor. -/
def InLoop (d : Bytes) (pool : Pool) (job : Job) : Prop :=
  job.mailbox = some d → (∀ th ∈ pool, relayBusy d th = false) ∧ job.position = relayCursor d pool

instance (d : Bytes) (pool : Pool) (job : Job) : Decidable (InLoop d pool job) :=
  inferInstanceAs (Decidable (_ → _))

/-! ## What has been pushed -/

/-- A RELAY_PUSH to the device `d` has stored its ciphertext and nonce under the id of the entry
`e`. -/
def RelayPushedFor (d : Bytes) (pool : Pool) (tr : History) (e : RelayEntry) : Prop :=
  ∃ t req rest expiresAt, pool[t]? = some ⟨.request (.relayPush req), rest⟩ ∧
    req.forDeviceDilithiumPubkey = d ∧ e = ⟨e.id, req.ciphertext, req.nonce⟩ ∧
    (t, ⟨.sql (.insertRelay ⟨d, req.ciphertext, req.nonce, expiresAt⟩), .ok e.id⟩) ∈ tr

/-! ## The steps of RELAY_FETCH -/

/-- The statement of a RELAY_FETCH that compares with the time `now`. -/
def RelayFetchRequest.load (req : RelayFetchRequest) (now : Nat) : Stmt :=
  .loadRelay req.forDeviceDilithiumPubkey req.sinceId (now : Nat) req.effectiveLimit

/-- The answer of a RELAY_FETCH that has loaded `rows`. -/
def relayAnswer (rows : List (Nat × Bytes × Bytes)) : Reply :=
  ⟨true, .relayFetch { success := true
                       entries := rows.map fun (id, ciphertext, nonce) ↦ ⟨id, ciphertext, nonce⟩ },
    ""⟩

/-- A RELAY_FETCH executes no statement before its load, which compares with a reading of the
clock. -/
def RelayOrder (job : Job) (past : Past) (o : Op) : Prop :=
  ∀ req, job = .request (.relayFetch req) →
    (∀ e ∈ past, okStmt e = none) ∧
    ∀ s, o = .sql s → ∃ now : Nat, Did past .clock now ∧ s = req.load now

/-- What a RELAY_FETCH has done when it answers: nothing, or its last step was the load of the
page it returns. -/
def RelayAnswer (job : Job) (past : Past) (reply : Option Reply) : Prop :=
  ∀ req, job = .request (.relayFetch req) →
    ((∀ e ∈ past, okStmt e = none) ∧ ∀ r, reply = some r → r.entries = [] ∧
      ∀ resp, r.payload = .relayFetch resp → resp.success = false) ∨
    ∃ before rows, ∃ now : Nat, past = before ++ [⟨.sql (req.load now), .ok rows⟩] ∧
      reply = some (relayAnswer rows)

variable {codec : Codec}

theorem fetchRelay_order (req : RelayFetchRequest) :
    (fetchRelay req).Obeys (RelayOrder (.request (.relayFetch req)))
      (fun past r ↦ RelayAnswer (.request (.relayFetch req)) past
        (some (.successful .relayFetch r))) [] := by
  have hrefused : ∀ past message, (∀ e ∈ past, okStmt e = none) →
      RelayAnswer (.request (.relayFetch req)) past
        (some (.successful .relayFetch (relayFetchError message))) := by
    rintro past message hpast _ ⟨⟩
    refine .inl ⟨hpast, ?_⟩
    rintro _ ⟨⟩
    refine ⟨rfl, ?_⟩
    rintro _ ⟨⟩
    rfl
  unfold fetchRelay
  iterate 2
    split
    · exact hrefused _ _ (by simp)
  refine obeys_fresh ?_ (fun _ _ ↦ hrefused _ _ (by simp [okStmt])) fun t ht ↦ ?_
  · rintro _ ⟨⟩
    exact ⟨by simp, by simp⟩
  refine obeys_call (o := .verify _ _ _) ?_ fun valid ↦ ?_
  · rintro _ ⟨⟩
    exact ⟨by simp [okStmt], by simp⟩
  cases valid with
  | false => exact hrefused _ _ (by simp [okStmt])
  | true =>
  refine obeys_utcNow ?_ fun now ↦ ?_
  · rintro _ ⟨⟩
    exact ⟨by simp [okStmt], by simp⟩
  refine obeys_sql ?_ (fun e ↦ ?_) fun rows ↦ ?_
  · rintro _ ⟨⟩
    refine ⟨by simp [okStmt], ?_⟩
    rintro _ ⟨⟩
    exact ⟨now, by simp [Did], rfl⟩
  · rintro _ ⟨⟩
    refine .inl ⟨by simp [okStmt], ?_⟩
    rintro _ ⟨⟩
    exact ⟨rfl, by rintro _ ⟨⟩⟩
  · rintro _ ⟨⟩
    exact .inr ⟨_, rows, now, rfl, rfl⟩

theorem code_relayOrder (codec : Codec) (job : Job) :
    (code codec job).Obeys (RelayOrder job) (RelayAnswer job) [] := by
  by_cases hfetch : ∃ req, job = .request (.relayFetch req)
  · obtain ⟨req, rfl⟩ := hfetch
    have hcall : (processCall codec (.relayFetch req)).Obeys
        (RelayOrder (.request (.relayFetch req)))
        (fun past r ↦ RelayAnswer (.request (.relayFetch req)) past (some r)) [] :=
      (fetchRelay_order req).bind fun _ _ h ↦ h
    exact hcall.bind fun _ _ h ↦ h
  · exact Program.obeys_of_forall _ (fun _ _ req hjob ↦ absurd ⟨req, hjob⟩ hfetch)
      fun _ _ req hjob ↦ absurd ⟨req, hjob⟩ hfetch

end ZenthDht
