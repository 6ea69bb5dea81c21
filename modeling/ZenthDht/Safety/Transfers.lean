import ZenthDht.Safety.Notifications
import ZenthDht.Spec.Memory

/-!
# File transfers and their senders

The registry of transfers says who has announced a transfer, and chunk requests are forwarded to
whoever it names.  An announcement overwrites the one that was there, and a chunk is relayed
without a look at the registry or at the connection it was sent on.  So another user can take a
transfer over and can send chunks of it (`transfer_taken`).

It goes wrong only through such frames: as long as connections of other users neither announce the
transfer nor send chunks of it, chunk requests for it go to its sender only, and its chunks come
from connections of its sender (`transfer_keeps_sender`).
-/

namespace ZenthDht

open Conc

/-! ## What a connection is answering -/

/-- The last thing that `f` sees in a past; `some none` is the end of what it saw before. -/
def lastSeen {α : Type} (f : Event Res → Option (Option α)) (past' : Past) : Option α :=
  (past'.filterMap f).getLast?.join

theorem lastSeen_snoc {α : Type} {f : Event Res → Option (Option α)} {past' : Past}
    {e : Event Res} : lastSeen f (past' ++ [e]) = (f e).getD (lastSeen f past') := by
  unfold lastSeen
  rw [List.filterMap_append]
  cases h : f e <;> simp [h]

/-- A frame that arrives, or its answer. -/
def frameOf : Event Res → Option (Option Bytes)
  | ⟨.select _, .socket (.binary data)⟩ => some (some data)
  | ⟨.socketSend _, _⟩ => some none
  | _ => none

/-- The frame a connection is answering. -/
def answering : Past → Option Bytes := lastSeen frameOf

/-- A transfer with the sender that was found for it, or the answer to the frame it was looked up
for. -/
def lookupOf : Event Res → Option (Option (Bytes × Bytes))
  | ⟨.relayGetSender tid, some sender⟩ => some (some (tid, sender))
  | ⟨.socketSend _, _⟩ => some none
  | _ => none

/-- The transfer whose chunk request a connection is forwarding, and to whom. -/
def forwarding : Past → Option (Bytes × Bytes) := lastSeen lookupOf

/-- The frame announces the transfer, or carries a chunk of it. -/
def WsRequest.claims (tid : Bytes) : WsRequest → Bool
  | .fileAvailable (some id) => id = tid
  | .fileChunk (some chunk) => chunk.transferId = tid
  | _ => false

/-- Thread `t` is a connection of `u`. -/
def ConnectionOf (c : State) (t : Nat) (u : Bytes) : Prop :=
  ∃ e ∈ c.trace, e.1 = t ∧ registeredUser e.2 = some u

instance (c : State) (t : Nat) (u : Bytes) : Decidable (ConnectionOf c t u) :=
  inferInstanceAs (Decidable (∃ e ∈ c.trace, _))

/-- What has to hold of a move: a connection of a user other than `s` is not answering a frame
that announces the transfer or carries a chunk of it. -/
def Undisputed (codec : Codec) (s tid : Bytes) (c : State) : Move Job Oracle Act → Prop
  | .step t _ => ConnectionOf c t s ∨
    ((answering (past t c.trace)).all fun data ↦ !(codec.decodeWsRequest data).claims tid) = true
  | _ => True

instance (codec : Codec) (s tid : Bytes) (c : State) :
    (m : Move Job Oracle Act) → Decidable (Undisputed codec s tid c m)
  | .step _ _ => inferInstanceAs (Decidable (_ ∨ _))
  | .spawn _ | .act _ => inferInstanceAs (Decidable True)

/-- What the sender of a transfer is promised of a move: a chunk request is forwarded to `s`, and
a chunk is relayed for a connection of `s`. -/
def KeepsSender (s tid : Bytes) (c : State) (m : Move Job Oracle Act) : Prop :=
  ∀ r n, sendsTo r c m = some n →
    (∀ q, n.payload = .fileChunkRequest q → q.transferId = tid → r = s) ∧
    ∀ chunk, n.payload = .fileChunk chunk → chunk.transferId = tid →
      ∃ t ω, m = .step t ω ∧ ConnectionOf c t s

/-! ## The steps of a connection -/

variable {codec : Codec} {verifyDetached : Bytes → Bytes → Bytes → Bool}
variable {c c' c₁ c₂ : State} {m : Move Job Oracle Act} {ms : Moves} {t : Nat}
variable {u s tid : Bytes} {rx rx₀ : Receiver} {past' : Past}

/-- A connection registers a transfer that the frame it is answering announces, forwards a chunk
request to the sender it has found, and relays the chunk that the frame carries. -/
def TransferOrder (codec : Codec) (past' : Past) : Op → Prop
  | .relayRegister tid u => (∃ rx, Did past' (.register u) rx) ∧
      ∃ data, answering past' = some data ∧ codec.decodeWsRequest data = .fileAvailable (some tid)
  | .sendToUser r n => (∃ u rx, Did past' (.register u) rx) ∧
      (∀ q, n.payload = .fileChunkRequest q → forwarding past' = some (q.transferId, r)) ∧
      ∀ chunk, n.payload = .fileChunk chunk →
        ∃ data, answering past' = some data ∧ codec.decodeWsRequest data = .fileChunk (some chunk)
  | _ => True

theorem processWsRequest_transfer {data : Bytes} (hreg : Did past' (.register u) rx₀)
    (hdata : answering past' = some data) :
    (processWsRequest codec data u).Obeys (TransferOrder codec)
      (fun past _ ↦ Did past (.register u) rx₀) past' := by
  unfold processWsRequest
  split
  · exact hreg
  next id hframe =>
    unfold wsFileAvailable
    split
    next tid htid =>
      refine ⟨⟨⟨rx₀, hreg⟩, data, hdata, ?_⟩, fun _ ↦ did_append.mpr (.inl hreg)⟩
      obtain ⟨raw, rfl, hraw⟩ := Option.bind_eq_some_iff.mp htid
      unfold parseTransferId at hraw
      split at hraw
      · rw [hframe, Option.some.inj hraw]
      · exact nomatch hraw
    · exact hreg
  next req hframe =>
    unfold wsFileChunkRequest
    split
    · exact hreg
    next req =>
    split
    · exact hreg
    next tid htid =>
    have htid : req.transferId = tid := by
      unfold parseTransferId at htid
      split at htid
      · exact Option.some.inj htid
      · exact nomatch htid
    refine obeys_call trivial fun found ↦ ?_
    have hreg : Did (past' ++ [⟨.relayGetSender tid, found⟩]) (.register u) rx₀ :=
      did_append.mpr (.inl hreg)
    split
    · exact hreg
    next sender =>
    refine ⟨trivial, fun now ↦ ⟨⟨⟨u, rx₀, did_append.mpr (.inl hreg)⟩, ?_, nofun⟩, fun _ ↦ ?_⟩⟩
    · rintro q heq
      obtain rfl := NotificationPayload.fileChunkRequest.inj heq
      unfold forwarding
      rw [lastSeen_snoc, lastSeen_snoc, ← htid]
      rfl
    · exact did_append.mpr (.inl (did_append.mpr (.inl hreg)))
  next chunk hframe =>
    unfold wsFileChunk
    split
    · exact hreg
    next chunk =>
    split
    · exact hreg
    refine ⟨trivial, fun now ↦ ⟨⟨⟨u, rx₀, did_append.mpr (.inl hreg)⟩, nofun, ?_⟩, fun _ ↦ ?_⟩⟩
    · rintro chunk' heq
      obtain rfl := NotificationPayload.fileChunk.inj heq
      refine ⟨data, ?_, hframe⟩
      unfold answering at hdata ⊢
      rw [lastSeen_snoc, hdata]
      rfl
    · exact did_append.mpr (.inl (did_append.mpr (.inl hreg)))
  · unfold wsCheckOnline
    split
    · exact hreg
    · exact ⟨trivial, fun _ ↦ did_append.mpr (.inl hreg)⟩
  · exact hreg

theorem wsLoop_transfer (rounds : Nat) (hreg : Did past' (.register u) rx₀) :
    (wsLoop codec u rounds rx).Obeys (TransferOrder codec) (fun _ _ ↦ True) past' := by
  induction rounds generalizing rx past' with
  | zero => exact ⟨trivial, fun impossible ↦ nomatch impossible⟩
  | succ rounds ih =>
      have hsend (out : WsOutput) (rx : Receiver) {past : Past}
          (hreg : Did past (.register u) rx₀) :
          ((Program.call (Op.socketSend out) : Handler Bool) >>= fun b ↦
            if b then wsLoop codec u rounds rx else pure ()).Obeys (TransferOrder codec)
            (fun _ _ ↦ True) past := by
        refine obeys_call trivial fun sent ↦ ?_
        split
        · exact ih (did_append.mpr (.inl hreg))
        · trivial
      unfold wsLoop
      refine obeys_call trivial fun input ↦ ?_
      have hreg : Did (past' ++ [⟨.select rx, input⟩]) (.register u) rx₀ :=
        did_append.mpr (.inl hreg)
      split
      · refine (processWsRequest_transfer hreg ?_).bind fun past out hreg ↦ hsend out rx hreg
        unfold answering
        rw [lastSeen_snoc]
        rfl
      · exact hsend .pong rx hreg
      · trivial
      · trivial
      · trivial
      · exact ih hreg
      · exact hsend _ _ hreg
      · exact ih hreg
      · trivial

theorem handleWebsocket_transfer (rounds : Nat) :
    (handleWebsocket codec rounds).Obeys (TransferOrder codec) (fun _ _ ↦ True) [] := by
  unfold handleWebsocket
  refine Program.Obeys.bind_any ?_ fun past r ↦ ?_
  · unfold authenticate verifySessionToken
    refine obeys_call trivial fun frame ↦ ?_
    split
    · split
      · trivial
      refine (Program.obeys_bind _ _).mpr (obeys_sql trivial (fun _ ↦ trivial) fun session ↦ ?_)
      refine obeys_utcNow trivial fun now ↦ ?_
      change Program.Obeys _ _ _ (if decide ((now : Int) < session.sessionExpiry) then _ else _)
      split <;> trivial
    · trivial
  · cases r with
    | none => trivial
    | some u =>
        refine obeys_call trivial fun rx ↦ ?_
        have hreg : Did (past ++ [⟨.register u, rx⟩]) (.register u) rx := by simp [Did]
        refine (wsLoop_transfer rounds hreg).bind fun _ _ _ ↦ ?_
        exact ⟨trivial, fun _ ↦ ⟨trivial, fun _ ↦ ⟨trivial, fun _ ↦ trivial⟩⟩⟩

theorem code_transfer (codec : Codec) (job : Job) :
    (code codec job).Obeys (fun past o ↦ ∀ rounds, job = .websocket rounds →
      TransferOrder codec past o) (fun _ _ ↦ True) [] := by
  by_cases hws : ∃ rounds, job = .websocket rounds
  · obtain ⟨rounds, rfl⟩ := hws
    have hjob : (code codec (.websocket rounds)).Obeys (TransferOrder codec) (fun _ _ ↦ True) [] :=
      (handleWebsocket_transfer rounds).bind fun _ _ _ ↦ trivial
    exact hjob.mono (fun _ _ h _ _ ↦ h) fun _ _ h ↦ h
  · exact Program.obeys_of_forall _ (fun _ _ rounds hjob ↦ absurd ⟨rounds, hjob⟩ hws)
      fun _ _ ↦ trivial

theorem Reachable.transferOrder {rounds : Nat} {o : Op} {k : Res o → Handler (Option Reply)}
    (h : Reachable codec verifyDetached c)
    (ht : c.pool[t]? = some ⟨.websocket rounds, .perform o k⟩) :
    TransferOrder codec (past t c.trace) o := by
  obtain ⟨clock, instant, ms, h⟩ := h
  exact Machine.guard_of_run (code_transfer codec) h ht rounds rfl

/-! ## The registry in a run -/

/-- An entry of the registry was there before an operation, or the operation has announced it. -/
theorem perform_transfers {o : Op} {ω : Oracle} {w w' : World} {r : Res o} {e : TransferEntry}
    (h : perform verifyDetached o ω w = some (r, w')) (he : w'.transfers tid = some e) :
    w.transfers tid = some e ∨ o = .relayRegister tid e.senderHash := by
  cases o with
  | relayRegister tid' u =>
      obtain ⟨rfl, rfl⟩ := Prod.mk.inj (Option.some.inj h)
      by_cases htid : tid = tid'
      · subst htid
        simp only [FileRelay.register, Function.update_self, Option.some.injEq] at he
        subst he
        exact .inr rfl
      · simp only [FileRelay.register, Function.update_of_ne htid] at he
        exact .inl he
  | relayUnregisterBySender u =>
      obtain ⟨rfl, rfl⟩ := Prod.mk.inj (Option.some.inj h)
      exact .inl (Option.filter_eq_some_iff.mp he).1
  | relayCleanup =>
      obtain ⟨rfl, rfl⟩ := Prod.mk.inj (Option.some.inj h)
      exact .inl (Option.filter_eq_some_iff.mp he).1
  | select rx => exact .inl ((perform_select h).1 ▸ he)
  | sql s => rcases perform_sql h with ⟨rfl, -⟩ | ⟨-, rfl⟩ <;> exact .inl he
  | _ =>
      cases ω <;> simp only [perform, Option.some.injEq, Prod.mk.injEq, reduceCtorEq] at h
      all_goals
        rw [← h.2] at he
        exact .inl he

theorem act_transfers {a : Act} {w w' : World} (h : act a w = some w') :
    w'.transfers = w.transfers := by
  cases a with
  | tick clock instant =>
      simp only [act] at h
      split at h
      · exact Option.some.inj h ▸ rfl
      · cases h
  | setConfig config => exact Option.some.inj h ▸ rfl
  | reorder db =>
      simp only [act] at h
      split at h
      · exact Option.some.inj h ▸ rfl
      · cases h
  | runSpawned i =>
      obtain ⟨_, -, rfl⟩ := Option.map_eq_some_iff.mp h
      rfl

/-- The registry names nobody else as the sender of the transfer, and nobody else was found for a
chunk request that is being forwarded. -/
structure Owned (s tid : Bytes) (c : State) : Prop where
  entry : ∀ e, c.world.transfers tid = some e → e.senderHash = s
  lookups : ∀ t r, forwarding (past t c.trace) = some (tid, r) → r = s

theorem connectionOf_of_register (hreg : (t, ⟨.register u, rx⟩) ∈ c.trace) : ConnectionOf c t u :=
  ⟨_, hreg, rfl, rfl⟩

/-- A connection that performs an operation is that of a user, and if this is not `s` the frame it
is answering does not claim the transfer. -/
theorem Undisputed.user {ω : Oracle} (hund : Undisputed codec s tid c (.step t ω))
    (h : Reachable codec verifyDetached c) (hreg : (t, ⟨.register u, rx⟩) ∈ c.trace)
    {data : Bytes} (hdata : answering (past t c.trace) = some data)
    (hclaims : (codec.decodeWsRequest data).claims tid = true) : u = s := by
  rcases hund with ⟨⟨t', o, r⟩, he, rfl, hs⟩ | hno
  · unfold registeredUser at hs
    split at hs
    next heq =>
      obtain rfl := Option.some.inj hs
      obtain ⟨rfl, heq⟩ := Sigma.mk.inj heq
      obtain rfl := eq_of_heq heq
      exact (h.register_once hreg he).1
    · exact nomatch hs
  · simp [hdata, hclaims] at hno

theorem Owned.step (h : Reachable codec verifyDetached c) (hown : Owned s tid c)
    (hund : Undisputed codec s tid c m) (hs : (server codec verifyDetached).Step c m c') :
    Owned s tid c' := by
  cases hs with
  | spawn j => exact ⟨hown.entry, hown.lookups⟩
  | @act a w ha => exact ⟨act_transfers ha ▸ hown.entry, hown.lookups⟩
  | @step t ω j o k r w ht hp =>
      constructor
      · intro e he
        rcases perform_transfers hp he with hold | rfl
        · exact hown.entry e hold
        · obtain ⟨rounds, rfl⟩ := h.reaching ht
          obtain ⟨⟨rx, hreg⟩, data, hdata, hframe⟩ := h.transferOrder ht
          exact hund.user h (did_past.mp hreg) hdata (by simp [hframe, WsRequest.claims])
      · intro t' r' hfor
        dsimp only at hfor
        by_cases e : t = t'
        · subst e
          unfold forwarding at hfor
          rw [past_append, past_singleton_self, lastSeen_snoc] at hfor
          cases hl : lookupOf ⟨o, r⟩ with
          | none =>
              rw [hl, Option.getD_none] at hfor
              exact hown.lookups t r' hfor
          | some found =>
              rw [hl, Option.getD_some] at hfor
              subst hfor
              -- the sender was found in the registry
              unfold lookupOf at hl
              split at hl
              next tid' sender heq =>
                obtain ⟨rfl, rfl⟩ := Prod.mk.inj (Option.some.inj (Option.some.inj hl))
                obtain ⟨rfl, heq⟩ := Sigma.mk.inj heq
                obtain rfl := eq_of_heq heq
                obtain ⟨hsender, -⟩ := Prod.mk.inj (Option.some.inj hp)
                obtain ⟨entry, hentry, rfl⟩ := Option.map_eq_some_iff.mp hsender
                exact hown.entry entry (Option.filter_eq_some_iff.mp hentry).1
              · exact nomatch hl
              · exact nomatch hl
        · rw [past_append, past_singleton_ne e, List.append_nil] at hfor
          exact hown.lookups t' r' hfor

theorem Owned.keepsSender (h : Reachable codec verifyDetached c) (hown : Owned s tid c)
    (hund : Undisputed codec s tid c m) : KeepsSender s tid c m := by
  intro r n hsend
  unfold sendsTo at hsend
  split at hsend
  next t ω =>
    split at hsend
    next j v n' hperf =>
      split at hsend
      next hv =>
        obtain rfl := Option.some.inj hsend
        obtain ⟨k, ht⟩ := performs_iff.mp hperf
        rcases h.reaching ht with ⟨rounds, rfl⟩ | hplain
        · obtain ⟨⟨u, rx, hreg⟩, hrequest, hchunk⟩ := h.transferOrder ht
          constructor
          · rintro q hq rfl
            exact hv ▸ hown.lookups t v (hrequest q hq)
          · rintro chunk hc rfl
            obtain ⟨data, hdata, hframe⟩ := hchunk chunk hc
            obtain rfl := hund.user h (did_past.mp hreg) hdata (by simp [hframe, WsRequest.claims])
            exact ⟨t, ω, rfl, connectionOf_of_register (did_past.mp hreg)⟩
        · constructor
          · intro q hq
            rw [hq] at hplain
            exact nomatch hplain
          · intro chunk hc
            rw [hc] at hplain
            exact nomatch hplain
      · exact nomatch hsend
    · exact nomatch hsend
  next i =>
    obtain ⟨p, hp, hn⟩ := Option.bind_eq_some_iff.mp hsend
    split at hn
    · obtain rfl := Option.some.inj hn
      have hplain := h.spawned p (List.mem_of_getElem? hp)
      constructor
      · intro q hq
        rw [hq] at hplain
        exact nomatch hplain
      · intro chunk hc
        rw [hc] at hplain
        exact nomatch hplain
    · exact nomatch hn
  · exact nomatch hsend

/-- **Transfers keep their sender**, as long as connections of other users neither announce the
transfer nor send chunks of it.  After `s` has announced it, when no chunk request for it is being
forwarded to another sender found before, chunk requests for it are forwarded only to `s`, and a
chunk of it is relayed only for a connection of `s`. -/
theorem transfer_keeps_sender (h₁ : Reachable codec verifyDetached c₁)
    (hs : (server codec verifyDetached).Step c₁ m c₂)
    (hreg : c₂.trace = c₁.trace ++ [(t, ⟨.relayRegister tid s, ()⟩)])
    (hlookups : ∀ t r, forwarding (past t c₁.trace) = some (tid, r) → r = s)
    (h : (server codec verifyDetached).run c₂ ms = some c)
    (hund : (server codec verifyDetached).Along (Undisputed codec s tid) c₂ ms) :
    (server codec verifyDetached).Along (KeepsSender s tid) c₂ ms := by
  have h₂ : Reachable codec verifyDetached c₂ := h₁.run (hs.run_cons Machine.run_nil)
  have hown : Owned s tid c₂ := by
    cases hs with
    | spawn j =>
        have hlen := congrArg List.length hreg
        simp at hlen
    | act ha =>
        have hlen := congrArg List.length hreg
        simp at hlen
    | @step t' ω j o k r w ht hp =>
        obtain ⟨rfl, he⟩ := Prod.mk.inj (List.cons.inj (List.append_cancel_left hreg)).1
        obtain ⟨rfl, -⟩ := Sigma.mk.inj he
        obtain ⟨-, rfl⟩ := Prod.mk.inj (Option.some.inj hp)
        constructor
        · intro e he
          simp only [FileRelay.register, Function.update_self, Option.some.injEq] at he
          exact he ▸ rfl
        · intro t r' hfor
          refine hlookups t r' ?_
          by_cases e : t' = t
          · subst e
            unfold forwarding at hfor ⊢
            rwa [past_append, past_singleton_self, lastSeen_snoc] at hfor
          · rwa [past_append, past_singleton_ne e, List.append_nil] at hfor
  refine Machine.along_of_forall fun ms₁ m ms₂ d hms hd ↦ ?_
  rw [hms] at hund
  have hinv : Reachable codec verifyDetached d ∧ Owned s tid d := by
    refine hund.left.invariant (I := fun d ↦ Reachable codec verifyDetached d ∧ Owned s tid d) ?_
      hd ⟨h₂, hown⟩
    rintro d m d' ⟨hd, hown⟩ hm hs
    exact ⟨hd.run (hs.run_cons Machine.run_nil), hown.step hd hm hs⟩
  exact hinv.2.keepsSender hinv.1 (hund.at hd)

namespace Sample

def transferId : Bytes := List.replicate 16 5

/-- Frames are announcements, chunk requests and chunks by their first byte. -/
def fileCodec : Codec :=
  { Sample.codec with
    decodeWsRequest := fun
      | 0 :: tid => .fileAvailable (some tid)
      | 1 :: tid => .fileChunkRequest (some ⟨tid, 0, []⟩)
      | 2 :: data => .fileChunk (some ⟨data.take 16, 0, data.drop 16, []⟩)
      | _ => .dht }

def fileSigned : List (Bytes × Bytes) :=
  [1, 2, 3].map fun i ↦ (key i, word (i + 40) ++ word i ++ le64 5)

abbrev fileSystem : Machine Res World Job (Option Reply) Oracle Act :=
  server fileCodec (verify fileSigned)

/-- User `i` logs in with the threads `t` and `t + 1` and gets the token `i + 60`. -/
def logsIn (t : Nat) (i : UInt8) : Moves :=
  .spawn (.request (.login ⟨"0.1.2", word i, true, none⟩)) :: steps t 2 ++
  .step t (random (i + 20)) :: .step t (random (i + 40)) :: steps t 4 ++
  .spawn (.request (.login ⟨"0.1.2", word i, false, some ⟨word (i + 20), signature, 5⟩⟩)) ::
    steps (t + 1) 6 ++ .step (t + 1) (random (i + 60)) :: steps (t + 1) 2

/-- User `i` opens a connection with thread `t`. -/
def opensConnection (t : Nat) (i : UInt8) : Moves :=
  .spawn (.websocket 9) :: .step t (.frame (some (.binary (word i ++ word (i + 60))))) :: steps t 3

/-- A frame arrives on the connection `t`, which takes `n` steps and answers it. -/
def receives (t : Nat) (data : Bytes) (n : Nat) : Moves :=
  .step t (.frame (some (.binary data))) :: steps t n ++ [.step t (.flag true)]

/-- Users 1, 2 and 3 have connections, threads 9, 10 and 11, and user 1 is about to announce the
transfer. -/
def shareRun : Moves :=
  registers 0 1 ++ registers 1 2 ++ registers 2 3 ++ logsIn 3 1 ++ logsIn 5 2 ++ logsIn 7 3 ++
  opensConnection 9 1 ++ opensConnection 10 2 ++ opensConnection 11 3 ++
  [.step 9 (.frame (some (.binary (0 :: transferId))))]

/-- User 2 announces the transfer, and user 3 asks for a chunk of it. -/
def reannouncement : Moves :=
  receives 10 (0 :: transferId) 1 ++ receives 11 (1 :: transferId) 3

/-- User 2 sends user 3 a chunk of the transfer. -/
def chunkForgery : Moves := receives 10 (2 :: transferId ++ word 3) 2

/-- User 3 asks for a chunk and user 1 sends it. -/
def chunkExchange : Moves :=
  .step 9 (.flag true) :: receives 11 (1 :: transferId) 3 ++
  receives 9 (2 :: transferId ++ word 3) 2

theorem relayRegister_event {codec : Codec} {verifyDetached : Bytes → Bytes → Bytes → Bool}
    {c c' : State} {t : Nat} {ω : Oracle} {tid u : Bytes}
    (hs : (server codec verifyDetached).next c (.step t ω) = some c')
    (hperf : (c.performs t).map Prod.snd = some (.relayRegister tid u)) :
    c'.trace = c.trace ++ [(t, ⟨.relayRegister tid u, ()⟩)] := by
  obtain ⟨⟨job, o⟩, hperf, rfl⟩ := Option.map_eq_some_iff.mp hperf
  obtain ⟨k, hk⟩ := performs_iff.mp hperf
  cases Machine.step_of_next hs with
  | @step _ _ j o k' r w ht hp =>
      rw [hk] at ht
      obtain ⟨rfl, heq⟩ := Thread.mk.inj (Option.some.inj ht)
      obtain ⟨rfl, -⟩ := Program.perform.inj heq
      rfl

/-- Nothing has been looked up, so nothing is being forwarded. -/
theorem forwarding_of_none {tr : History} (h : (tr.all fun e ↦ (lookupOf e.2).isNone) = true)
    (t : Nat) : forwarding (past t tr) = none := by
  have hnone : (past t tr).filterMap lookupOf = [] := by
    refine List.filterMap_eq_nil_iff.mpr fun e he ↦ ?_
    exact Option.isNone_iff_eq_none.mp (List.all_eq_true.mp h (t, e) (mem_past.mp he))
  simp [forwarding, lastSeen, hnone]

/-- User 1 announces the transfer, which nobody has announced. -/
theorem announced : ∃ c₁ c₂ : State, fileSystem.run (.start (.initial 0 0)) shareRun = some c₁ ∧
    fileSystem.next c₁ (.step 9 .none) = some c₂ ∧
    c₂.trace = c₁.trace ++ [(9, ⟨.relayRegister transferId (word 1), ()⟩)] ∧
    c₁.world.transfers.getSender c₁.world.instant transferId = none ∧
    (∀ t r, forwarding (past t c₁.trace) = some (transferId, r) → r = word 1) ∧
    ∀ ms, fileSystem.run c₂ ms =
      fileSystem.run (.start (.initial 0 0)) (shareRun ++ .step 9 .none :: ms) := by
  have hstart : ((fileSystem.run (.start (.initial 0 0)) shareRun).map fun c₁ : State ↦
      ((fileSystem.next c₁ (.step 9 .none)).isSome, (c₁.performs 9).map Prod.snd,
        c₁.world.transfers.getSender c₁.world.instant transferId,
        c₁.trace.all fun e ↦ (lookupOf e.2).isNone)) =
      some (true, some (.relayRegister transferId (word 1)), none, true) := by decide +kernel
  obtain ⟨c₁, h₁, hview⟩ := Option.map_eq_some_iff.mp hstart
  obtain ⟨hnext, hview⟩ := Prod.mk.inj hview
  obtain ⟨hperf, hview⟩ := Prod.mk.inj hview
  obtain ⟨hsender, hnone⟩ := Prod.mk.inj hview
  obtain ⟨c₂, h₂⟩ := Option.isSome_iff_exists.mp hnext
  refine ⟨c₁, c₂, h₁, h₂, relayRegister_event h₂ hperf, hsender, fun t r hfor ↦ ?_, fun ms ↦ ?_⟩
  · rw [forwarding_of_none hnone t] at hfor
    exact nomatch hfor
  · have hrun : fileSystem.run (.start (.initial 0 0)) (shareRun ++ [.step 9 .none]) = some c₂ :=
      Machine.run_append.mpr ⟨c₁, h₁, Machine.run_cons.mpr ⟨c₂, h₂, rfl⟩⟩
    rw [← List.singleton_append, ← List.append_assoc]
    cases hms : fileSystem.run c₂ ms with
    | some c => exact (Machine.run_append.mpr ⟨c₂, hrun, hms⟩).symm
    | none =>
        rw [eq_comm, Option.eq_none_iff_forall_ne_some]
        intro c hc
        obtain ⟨d, hd, hc⟩ := Machine.run_append.mp hc
        obtain rfl := Option.some.inj (hrun.symm.trans hd)
        rw [hms] at hc
        exact nomatch hc

end Sample

open Sample in
/-- User 1 has announced the transfer and stays connected.  After user 2 has announced it too, a
chunk request for it is forwarded to user 2; and user 2 can send chunks of it right away. -/
theorem transfer_taken : ∃ c₁ c₂ c : State,
    fileSystem.run (.start (.initial 0 0)) shareRun = some c₁ ∧
    c₁.world.transfers.getSender c₁.world.instant transferId = none ∧
    fileSystem.next c₁ (.step 9 .none) = some c₂ ∧
    c₂.trace = c₁.trace ++ [(9, ⟨.relayRegister transferId (word 1), ()⟩)] ∧
    fileSystem.run c₂ (reannouncement ++ chunkForgery) = some c ∧
    c.world.instant = c₁.world.instant ∧ Live c 9 (word 1) ∧
    ¬ fileSystem.Along (KeepsSender (word 1) transferId) c₂ reannouncement ∧
    ¬ fileSystem.Along (KeepsSender (word 1) transferId) c₂ chunkForgery := by
  obtain ⟨c₁, c₂, h₁, h₂, hevent, hsender, -, hrun⟩ := announced
  have hlive : ((fileSystem.run (.start (.initial 0 0))
      (shareRun ++ .step 9 .none :: (reannouncement ++ chunkForgery))).any fun c ↦
      c.world.instant = 0 ∧ Live c 9 (word 1)) = true := by decide +kernel
  have hstart : ((fileSystem.run (.start (.initial 0 0)) shareRun).map fun c ↦
      c.world.instant) = some 0 := by decide +kernel
  have hforward : ((fileSystem.run (.start (.initial 0 0))
      (shareRun ++ .step 9 .none :: reannouncement.take 6)).bind fun d ↦
      sendsTo (word 2) d (.step 11 .none)) =
      some ⟨0, .fileChunkRequest ⟨transferId, 0, word 3⟩⟩ := by decide +kernel
  have hchunk : ((fileSystem.run (.start (.initial 0 0))
      (shareRun ++ .step 9 .none :: chunkForgery.take 2)).map fun d ↦
      (sendsTo (word 3) d (.step 10 .none), decide (ConnectionOf d 10 (word 1)))) =
      some (some ⟨0, .fileChunk ⟨transferId, 0, word 3, []⟩⟩, false) := by decide +kernel
  rw [← hrun] at hlive hforward hchunk
  obtain ⟨c, hc, hfacts⟩ := (Option.any_eq_true ..).mp hlive
  obtain ⟨hinstant, hlive⟩ := of_decide_eq_true hfacts
  obtain ⟨d, hd, hforward⟩ := Option.bind_eq_some_iff.mp hforward
  obtain ⟨d', hd', hview⟩ := Option.map_eq_some_iff.mp hchunk
  obtain ⟨hchunk, hother⟩ := Prod.mk.inj hview
  rw [h₁, Option.map_some, Option.some.injEq] at hstart
  refine ⟨c₁, c₂, c, h₁, hsender, h₂, hevent, hc, hinstant.trans hstart.symm, hlive, ?_, ?_⟩
  · intro hkeeps
    have hsplit : reannouncement = reannouncement.take 6 ++ .step 11 .none ::
        [.step 11 (.flag true)] := rfl
    rw [hsplit] at hkeeps
    have hkept := (hkeeps.at hd (word 2) _ hforward).1 _ rfl rfl
    exact absurd hkept (by decide)
  · intro hkeeps
    have hsplit : chunkForgery = chunkForgery.take 2 ++ .step 10 .none ::
        [.step 10 (.flag true)] := rfl
    rw [hsplit] at hkeeps
    obtain ⟨t, ω, hm, hconn⟩ := (hkeeps.at hd' (word 3) _ hchunk).2 _ rfl rfl
    obtain ⟨rfl, -⟩ := Move.step.inj hm
    exact of_decide_eq_false hother hconn

open Sample in
theorem transfer_keeps_sender_chunkExchange : ∃ c₁ c₂ c : State,
    fileSystem.run (.start (.initial 0 0)) shareRun = some c₁ ∧
    fileSystem.next c₁ (.step 9 .none) = some c₂ ∧ fileSystem.run c₂ chunkExchange = some c ∧
    (c.trace.filterMap fun e ↦ match e with
      | (t, ⟨.sendToUser r n, sent⟩) => some (t, r, n.payload, sent)
      | _ => none) =
      [(11, word 1, .fileChunkRequest ⟨transferId, 0, word 3⟩, true),
        (9, word 3, .fileChunk ⟨transferId, 0, word 3, []⟩, true)] ∧
    fileSystem.Along (KeepsSender (word 1) transferId) c₂ chunkExchange := by
  obtain ⟨c₁, c₂, h₁, h₂, hevent, -, hlookups, hrun⟩ := announced
  have hsends : ((fileSystem.run (.start (.initial 0 0))
      (shareRun ++ .step 9 .none :: chunkExchange)).map fun c ↦
      c.trace.filterMap fun e ↦ match e with
        | (t, ⟨.sendToUser r n, sent⟩) => some (t, r, n.payload, sent)
        | _ => none) =
      some [(11, word 1, .fileChunkRequest ⟨transferId, 0, word 3⟩, true),
        (9, word 3, .fileChunk ⟨transferId, 0, word 3, []⟩, true)] := by decide +kernel
  have hund : ((fileSystem.run (.start (.initial 0 0)) (shareRun ++ [.step 9 .none])).any fun c ↦
      fileSystem.check (fun c m ↦ decide (Undisputed fileCodec (word 1) transferId c m)) c
        chunkExchange) = true := by decide +kernel
  rw [← hrun] at hsends hund
  obtain ⟨c, hc, hsends⟩ := Option.map_eq_some_iff.mp hsends
  exact ⟨c₁, c₂, c, h₁, h₂, hc, hsends, transfer_keeps_sender ⟨0, 0, _, h₁⟩
    (Machine.step_of_next h₂) hevent hlookups hc (Machine.along_of_check (by simpa using hund))⟩

end ZenthDht
