import ZenthDht.Spec.Mailbox

/-!
# Reading a mailbox

A device reads its mailbox through a cursor: it asks for the entries beyond the last id it has
received, and acknowledges up to there.  When an INSERT is one step its id is beyond the cursor,
and paging is exact (`relay_paging`).  When the rows of concurrent INSERTs become visible in
another order than their ids, an entry may appear below the cursor and is lost
(`push_lost_below_cursor`); entries are lost in no other way (`relay_cursor`).
-/

namespace ZenthDht

open Conc

/-! ## Concurrent pushes -/

section

variable {codec : Codec} {verifyDetached : Bytes → Bytes → Bytes → Bool} {d : Bytes}
variable {c : PgState} {ms : PgMoves} {clock instant : Nat}

/-- **The cursor under concurrent pushes.**  In a run in which every entry for `d` becomes visible
beyond the cursor of `d` or after it has expired, a visible unexpired entry at or below the cursor
has been returned, and so has every unexpired entry that an acknowledgement removes.  If no entry
expires before it is read, every entry that an acknowledgement removes has been returned. -/
theorem relay_cursor
    (hrun : (postgres codec verifyDetached).run (.start ⟨.initial clock instant, []⟩) ms = some c)
    (hclient : (postgres codec verifyDetached).Along (RelayClient d)
      (.start ⟨.initial clock instant, []⟩) ms)
    (hbeyond : (postgres codec verifyDetached).Along (CommitsBeyond d)
      (.start ⟨.initial clock instant, []⟩) ms) :
    (∀ x ∈ c.world.rows, x.forDeviceDilithiumPubkey = d → x.id ≤ relayCursor d c.pool →
      c.world.clock < x.expiresAt → x.entry ∈ relayReturned d c.pool) ∧
    (∀ m c' x, (postgres codec verifyDetached).Step c m c' → Acks d c.trace c'.trace →
      x ∈ c.world.rows → x ∉ c'.world.rows → c.world.clock < x.expiresAt →
      x.entry ∈ relayReturned d c.pool) ∧
    ((postgres codec verifyDetached).Along (NoneExpired d) (.start ⟨.initial clock instant, []⟩) ms →
      ∀ m c' x, (postgres codec verifyDetached).Step c m c' → Acks d c.trace c'.trace →
        x ∈ c.world.rows → x ∉ c'.world.rows → x.entry ∈ relayReturned d c.pool) := by
  have hlax := (hclient.and hbeyond).mono fun c m h ↦
    (⟨h.1, h.2, False.elim⟩ : RelayClient d c m ∧ CommitsBeyond d c m ∧ (False → NoneExpired d c m))
  obtain ⟨hc, b, hb⟩ := mirrors_of_run hrun hlax
  refine ⟨fun x hx hd hle hexp ↦ ?_, fun m c' x hs hack hx hx' hexp ↦ ?_, fun hnone ↦ ?_⟩
  · exact (hb.passed hx hd hle).resolve_right fun h ↦ absurd hexp (not_lt.mpr h.1)
  · exact (hb.acked hc hs hack hx hx').resolve_right fun h ↦ absurd hexp (not_lt.mpr h.1)
  · have hstrict := ((hclient.and hbeyond).and hnone).mono fun c m h ↦
      (⟨h.1.1, h.1.2, fun _ ↦ h.2⟩ :
        RelayClient d c m ∧ CommitsBeyond d c m ∧ (True → NoneExpired d c m))
    obtain ⟨hc, b, hb⟩ := mirrors_of_run hrun hstrict
    intro m c' x hs hack hx hx'
    exact (hb.acked hc hs hack hx hx').resolve_right fun h ↦ h.2 trivial

end

namespace Sample

/-- A push of the byte `i` to device 9, whose entry expires after a minute. -/
def relayPush (i : UInt8) : Job :=
  .request (.relayPush ⟨key 9, [i], List.replicate 12 i, key 1, signature, 0, 60⟩)

def relayFetch (since : Int64) : Job := .request (.relayFetch ⟨key 9, since, 0, 0, signature⟩)

def relayAck (upTo : Int64) : Job := .request (.relayAck ⟨key 9, upTo, 0, signature⟩)

/-- What the sender and the device have signed. -/
def relaySigned : List (Bytes × Bytes) :=
  [(key 1, key 9 ++ le64 0), (key 9, key 9 ++ leI64 0 ++ le64 0), (key 9, key 9 ++ leI64 2 ++ le64 0)]

/-- The server over PostgreSQL in this environment. -/
abbrev pgSystem : Machine Res PgWorld Job (Option Reply) PgOracle PgAct :=
  postgres codec (verify relaySigned)

def pgStart : PgState := .start ⟨.initial 0 0, []⟩

def pgSteps (t n : Nat) : PgMoves := List.replicate n (.step t (.server .none))

/-- Two pushes have drawn the ids 1 and 2. -/
def drawRun : PgMoves :=
  .spawn (relayPush 1) :: pgSteps 0 4 ++ .spawn (relayPush 2) :: pgSteps 1 4 ++
    [.act .draw, .act .draw]

/-- They commit in the order of their ids, the device reads both and is about to acknowledge. -/
def orderedRun : PgMoves :=
  drawRun ++ [.step 0 (.commit 1), .step 1 (.commit 2)] ++
    .spawn (relayFetch 0) :: pgSteps 2 4 ++ .spawn (relayAck 2) :: pgSteps 3 2

/-- The second one commits first, and the first one after the device has read a page. -/
def lostRun : PgMoves :=
  drawRun ++ .step 1 (.commit 2) :: .spawn (relayFetch 0) :: pgSteps 2 4 ++ [.step 0 (.commit 1)]

/-- The device is about to acknowledge what it has read. -/
def lostAck : PgMoves := .spawn (relayAck 2) :: pgSteps 3 2

/-- The row of the first push. -/
def relayRow : RelayMessage := ⟨1, key 9, [1], List.replicate 12 1, 60000000⟩

end Sample

section

variable {d : Bytes}

instance (c : PgState) (m : Move Job PgOracle PgAct) : Decidable (RelayClient d c m) := by
  unfold RelayClient
  split <;> infer_instance

instance (c : PgState) (m : Move Job PgOracle PgAct) : Decidable (CommitsBeyond d c m) := by
  unfold CommitsBeyond
  split
  · split <;> infer_instance
  · infer_instance

instance (c : PgState) (m : Move Job PgOracle PgAct) : Decidable (NoneExpired d c m) := by
  unfold NoneExpired
  split
  · split <;> infer_instance
  · split <;> infer_instance
  · infer_instance

end

/-- A step whose event is a delete up to an id. -/
theorem acks_of_last {World Oracle Act : Type} {d : Bytes}
    {M : Machine Res World Job (Option Reply) Oracle Act}
    {c c' : Config Res World Job (Option Reply)} {t : Nat} {ω : Oracle} {i : Int64}
    (hs : M.next c (.step t ω) = some c')
    (hlast : (c'.trace.getLast?).bind (okStmt ·.2) = some (.deleteRelayUpTo d i)) :
    Acks d c.trace c'.trace := by
  cases Machine.step_of_next hs with
  | @step _ _ j o k r w ht hp =>
      rw [List.getLast?_append, List.getLast?_singleton, Option.some_or, Option.bind_some] at hlast
      obtain ⟨a, ha⟩ := ok_of_okStmt hlast
      exact ⟨t, i, a, congrArg (fun e ↦ c.trace ++ [(t, e)]) ha⟩

open Sample in
theorem relay_cursor_orderedRun :
    ∃ c c' : PgState, pgSystem.run pgStart orderedRun = some c ∧
      pgSystem.Step c (.step 3 (.server .none)) c' ∧ relayRow ∈ c.world.rows ∧
      relayRow ∉ c'.world.rows ∧ relayRow.entry ∈ relayReturned (key 9) c.pool := by
  have hrun : ((pgSystem.run pgStart orderedRun).map fun c ↦ decide (relayRow ∈ c.world.rows)) =
      some true := by decide +kernel
  have hgone : ((pgSystem.run pgStart (orderedRun ++ pgSteps 3 1)).map fun c ↦
      decide (relayRow ∉ c.world.rows ∧ (c.trace.getLast?).bind (okStmt ·.2) =
        some (.deleteRelayUpTo (key 9) 2))) = some true := by decide +kernel
  obtain ⟨c', hc', hfacts⟩ := Option.map_eq_some_iff.mp hgone
  obtain ⟨c, hc, hstep⟩ := Machine.run_append.mp hc'
  obtain ⟨c₁, hnext, hend⟩ := Machine.run_cons.mp hstep
  obtain rfl := Option.some.inj hend
  rw [hc, Option.map_some, Option.some.injEq, decide_eq_true_eq] at hrun
  rw [decide_eq_true_eq] at hfacts
  have hcursor := relay_cursor hc (Machine.along_of_check (S := RelayClient (key 9))
    (by decide +kernel)) (Machine.along_of_check (by decide +kernel))
  exact ⟨c, c₁, hc, Machine.step_of_next hnext, hrun, hfacts.1,
    hcursor.2.2 (Machine.along_of_check (by decide +kernel)) _ _ _ (Machine.step_of_next hnext)
      (acks_of_last hnext hfacts.2) hrun hfacts.1⟩

open Sample in
/-- An entry becomes visible below the cursor of the device: it is visible and unexpired, it will
never be on a page, and the next acknowledgement removes it. -/
theorem push_lost_below_cursor :
    ∃ c c₁ c₂ : PgState, pgSystem.run pgStart lostRun = some c ∧
      pgSystem.Along (RelayClient (key 9)) pgStart (lostRun ++ lostAck) ∧
      relayRow ∈ c.world.rows ∧ relayRow.id ≤ relayCursor (key 9) c.pool ∧
      c.world.clock < relayRow.expiresAt ∧ relayRow.entry ∉ relayReturned (key 9) c.pool ∧
      pgSystem.run c lostAck = some c₁ ∧ pgSystem.Step c₁ (.step 3 (.server .none)) c₂ ∧
      Acks (key 9) c₁.trace c₂.trace ∧ relayRow ∈ c₁.world.rows ∧ relayRow ∉ c₂.world.rows ∧
      c₁.world.clock < relayRow.expiresAt ∧ relayRow.entry ∉ relayReturned (key 9) c₁.pool := by
  have hrun : ((pgSystem.run pgStart lostRun).map fun c ↦ decide (relayRow ∈ c.world.rows ∧
      relayRow.id ≤ relayCursor (key 9) c.pool ∧ c.world.clock < relayRow.expiresAt ∧
      relayRow.entry ∉ relayReturned (key 9) c.pool)) = some true := by decide +kernel
  have hack : ((pgSystem.run pgStart (lostRun ++ lostAck)).map fun c ↦
      decide (relayRow ∈ c.world.rows ∧ c.world.clock < relayRow.expiresAt ∧
        relayRow.entry ∉ relayReturned (key 9) c.pool)) = some true := by decide +kernel
  have hgone : ((pgSystem.run pgStart (lostRun ++ lostAck ++ pgSteps 3 1)).map fun c ↦
      decide (relayRow ∉ c.world.rows ∧ (c.trace.getLast?).bind (okStmt ·.2) =
        some (.deleteRelayUpTo (key 9) 2))) = some true := by decide +kernel
  obtain ⟨c₂, hc₂, hfacts₂⟩ := Option.map_eq_some_iff.mp hgone
  obtain ⟨c₁, hc₁, hstep⟩ := Machine.run_append.mp hc₂
  obtain ⟨c, hc, hacks⟩ := Machine.run_append.mp hc₁
  rw [hc, Option.map_some, Option.some.injEq, decide_eq_true_eq] at hrun
  rw [hc₁, Option.map_some, Option.some.injEq, decide_eq_true_eq] at hack
  rw [decide_eq_true_eq] at hfacts₂
  obtain ⟨c₃, hnext, hend⟩ := Machine.run_cons.mp hstep
  obtain rfl := Option.some.inj hend
  exact ⟨c, c₁, c₃, hc, Machine.along_of_check (by decide +kernel), hrun.1, hrun.2.1, hrun.2.2.1,
    hrun.2.2.2, hacks, Machine.step_of_next hnext, acks_of_last hnext hfacts₂.2, hack.1, hfacts₂.1,
    hack.2⟩

/-! ## Paging when an INSERT is one step -/

section

variable {codec : Codec} {verifyDetached : Bytes → Bytes → Bytes → Bool} {d : Bytes}
variable {c c' : State} {ms : Moves} {clock instant : Nat}

/-- The client of `d` keeps to its loop, and the clock is not set back. -/
def RelayLoop (d : Bytes) (c : State) : Move Job Oracle Act → Prop
  | .spawn job => InLoop d c.pool job
  | .act (.tick clock _) => c.world.clock ≤ clock
  | _ => True

theorem mirrors_of_loop
    (hrun : (server codec verifyDetached).run (.start (.initial clock instant)) ms = some c)
    (hloop : (server codec verifyDetached).Along (RelayLoop d) (.start (.initial clock instant)) ms) :
    Client codec verifyDetached d (c.map fun w ↦ ⟨w, []⟩) ∧
      ∃ b, Mirrors False d (c.map fun w ↦ ⟨w, []⟩) b := by
  refine mirrors_of_run ((server_embeds codec verifyDetached).run hrun)
    ((server_embeds codec verifyDetached).along (hloop.mono fun c m h ↦ ⟨?_, ?_, False.elim⟩))
  · cases m with
    | spawn j => exact h
    | step t ω => trivial
    | act a =>
        cases a with
        | tick clock instant => exact h
        | _ => trivial
  · cases m <;> trivial

/-- A RELAY_FETCH that is answered with success has just loaded its page. -/
theorem load_of_answer (hT : (postgres codec verifyDetached).Traced (c.map fun w ↦ ⟨w, []⟩))
    {t : Nat} {req : RelayFetchRequest} {o : Op} {k : Res o → Handler (Option Reply)} {r : Res o}
    {reply : Reply} {resp : RelayFetchResponse}
    (ht : c.pool[t]? = some ⟨.request (.relayFetch req), .perform o k⟩)
    (hret : k r = .ret (some reply)) (hresp : reply.payload = .relayFetch resp)
    (hok : resp.success = true) :
    ∃ now rows, (⟨o, r⟩ : Event Res) = ⟨.sql (req.load now), .ok rows⟩ ∧
      reply = relayAnswer rows := by
  have hobeys := (reaches_step hT ht r).obeys (code_relayOrder codec _)
  rw [hret] at hobeys
  rcases hobeys req rfl with ⟨-, hrefused⟩ | ⟨before, rows, now, hpast, hreply⟩
  · exact absurd hok (by rw [(hrefused reply rfl).2 resp hresp]; exact Bool.false_ne_true)
  · obtain ⟨-, he⟩ := List.append_inj' hpast rfl
    exact ⟨now, rows, (List.cons.inj he).1, Option.some.inj hreply⟩

/-- An INSERT into `relay_messages` is that of a RELAY_PUSH. -/
theorem Reachable.pushedFor (h : Reachable codec verifyDetached c) {x : RelayMessage}
    (hx : RelayPushed d c.trace x) : RelayPushedFor d c.pool c.trace x.entry := by
  obtain ⟨t, n, hmem, rfl, hrow⟩ := hx
  obtain ⟨pre, post, htr⟩ := List.append_of_mem hmem
  obtain ⟨c₁, c₂, job, h₁, -, he, -, m, ms, -, hrun⟩ := h.executed htr
  obtain ⟨req, now, rfl, -, rfl, -⟩ := h₁.executes he
  obtain ⟨rest, hpool⟩ := he.runs.run hrun
  refine ⟨t, req, rest, _, hpool, rfl, ?_, hmem⟩
  rw [hrow]
  rfl

/-- A page that is not full completes what the device has received. -/
theorem returned_of_short (hc : Client codec verifyDetached d (c.map fun w ↦ ⟨w, []⟩))
    {b : Mailbox RelayMessage.id RelayMessage.expiresAt}
    (hb : Mirrors False d (c.map fun w ↦ ⟨w, []⟩) b) {m : Move Job Oracle Act} {t : Nat}
    {req : RelayFetchRequest} {reply : Reply} {resp : RelayFetchResponse}
    (hs : (server codec verifyDetached).Step c m c') (hrunning : c.running t = true)
    (hanswer : c'.answered t = some (.request (.relayFetch req), reply))
    (hd : req.forDeviceDilithiumPubkey = d) (hresp : reply.payload = .relayFetch resp)
    (hok : resp.success = true) (hshort : resp.entries.length < req.effectiveLimit)
    {x : RelayMessage} (hx : RelayPushed d c.trace x) (hexp : c.world.clock < x.expiresAt) :
    x.entry ∈ relayReturned d c'.pool := by
  obtain ⟨ω, o, k, r, ht, hp, hret, hpool, -⟩ := hs.returns hrunning (answered_iff.mp hanswer)
  obtain ⟨now, rows, he, rfl⟩ := load_of_answer hc.traced ht hret hresp hok
  cases he
  have hpg : performPg verifyDetached (.sql (req.load now)) (.server ω) ⟨c.world, []⟩ =
      some (.ok rows, ⟨c'.world, []⟩) :=
    ((server_embeds codec verifyDetached).perform _ ω c.world).trans (congrArg (Option.map _) hp)
  obtain ⟨page, hpage, rfl⟩ := hb.fetch hc hd ht hpg
  obtain ⟨now', hnow, hload⟩ := hc.load ht
  have hnow : (now : Int) < x.expiresAt := by
    rw [(Stmt.loadRelay.inj hload).2.2.1]
    exact (Int.ofNat_le.mpr hnow).trans_lt hexp
  obtain rfl := Payload.relayFetch.inj hresp
  have hlen : page.length < req.effectiveLimit := by simpa using hshort
  have hmem := b.returned_of_short hpage hlen ((hb.pushed x).mpr hx) hnow
    (fun hskip ↦ not_lt.mpr (hb.skipped x hskip).1 hexp)
    (fun hpurge ↦ not_lt.mpr (hb.purged x hpurge) hexp)
  have hcursor : AtCursor d c.pool := hc.cursor
  have hreturned : relayReturned d c.pool = b.returned.map RelayMessage.entry := hb.returned
  rw [hpool, hret, (hcursor.answer ht (congrArg some hd)).2, relayPage_answer hd, hreturned,
    ← List.map_append]
  exact List.mem_map_of_mem hmem

/-- **Paging is exact.**  However requests interleave, what the device `d` receives is strictly
increasing in id, and only what was pushed for it; a successful page that is not full completes
it with every entry unexpired then; and an acknowledgement removes no unexpired entry that was not
received. -/
theorem relay_paging
    (hrun : (server codec verifyDetached).run (.start (.initial clock instant)) ms = some c)
    (hloop : (server codec verifyDetached).Along (RelayLoop d) (.start (.initial clock instant)) ms) :
    ((relayReturned d c.pool).Pairwise fun e e' ↦ e.id < e'.id) ∧
    (∀ e ∈ relayReturned d c.pool, RelayPushedFor d c.pool c.trace e) ∧
    (∀ m (c' : State) t req reply resp x, (server codec verifyDetached).Step c m c' →
      c.running t = true → c'.answered t = some (.request (.relayFetch req), reply) →
      req.forDeviceDilithiumPubkey = d → reply.payload = .relayFetch resp →
      resp.success = true → resp.entries.length < req.effectiveLimit → RelayPushed d c.trace x →
      c.world.clock < x.expiresAt → x.entry ∈ relayReturned d c'.pool) ∧
    (∀ m c' x, (server codec verifyDetached).Step c m c' → Acks d c.trace c'.trace →
      x ∈ c.world.db.relayMessages → x ∉ c'.world.db.relayMessages →
      c.world.clock < x.expiresAt → x.entry ∈ relayReturned d c.pool) := by
  have hreach : Reachable codec verifyDetached c := ⟨clock, instant, ms, hrun⟩
  obtain ⟨hc, b, hb⟩ := mirrors_of_loop hrun hloop
  have hreturned : relayReturned d c.pool = b.returned.map RelayMessage.entry := hb.returned
  refine ⟨?_, fun e he ↦ ?_, fun m c' t req reply resp x hs hrunning hanswer hd hresp hok hshort hx
    hexp ↦ returned_of_short hc hb hs hrunning hanswer hd hresp hok hshort hx hexp,
    fun m c' x hs hack hx hx' hexp ↦ ?_⟩
  · rw [hreturned]
    exact List.pairwise_map.mpr b.increasing
  · rw [hreturned] at he
    obtain ⟨x, hx, rfl⟩ := List.mem_map.mp he
    exact hreach.pushedFor ((hb.pushed x).mp (b.returned_pushed x hx))
  · have hpg : (postgres codec verifyDetached).Step (c.map fun w ↦ ⟨w, []⟩)
        (m.map .server .server) (c'.map fun w ↦ ⟨w, []⟩) :=
      Machine.step_of_next (by rw [(server_embeds codec verifyDetached).next, hs.next]; rfl)
    exact (hb.acked hc hpg hack hx hx').resolve_right fun h ↦ absurd hexp (not_lt.mpr h.1)

instance (c : State) : (m : Move Job Oracle Act) → Decidable (RelayLoop d c m)
  | .spawn job => inferInstanceAs (Decidable (InLoop d c.pool job))
  | .act (.tick clock _) => inferInstanceAs (Decidable (c.world.clock ≤ clock))
  | .act (.setConfig _) | .act (.reorder _) | .act (.runSpawned _) | .step _ _ =>
    inferInstanceAs (Decidable True)

end

namespace Sample

/-- Two pushes, a page, and an acknowledgement that is about to delete. -/
def pagingRun : Moves :=
  .spawn (relayPush 1) :: steps 0 5 ++ .spawn (relayPush 2) :: steps 1 5 ++
    .spawn (relayFetch 0) :: steps 2 4 ++ .spawn (relayAck 2) :: steps 3 2

end Sample

open Sample in
theorem relay_paging_pagingRun :
    ∃ c c' : State, final relaySigned pagingRun = some c ∧
      (system relaySigned).Step c (.step 3 .none) c' ∧ relayRow ∈ c.world.db.relayMessages ∧
      relayRow ∉ c'.world.db.relayMessages ∧ relayRow.entry ∈ relayReturned (key 9) c.pool ∧
      (relayReturned (key 9) c.pool).length = 2 ∧
      (relayReturned (key 9) c.pool).Pairwise fun e e' ↦ e.id < e'.id := by
  have hrun : ((final relaySigned pagingRun).map fun c ↦
      decide (relayRow ∈ c.world.db.relayMessages ∧ c.world.clock < relayRow.expiresAt ∧
        (relayReturned (key 9) c.pool).length = 2)) = some true := by decide +kernel
  have hgone : ((final relaySigned (pagingRun ++ steps 3 1)).map fun c ↦
      decide (relayRow ∉ c.world.db.relayMessages ∧ (c.trace.getLast?).bind (okStmt ·.2) =
        some (.deleteRelayUpTo (key 9) 2))) = some true := by decide +kernel
  obtain ⟨c', hc', hfacts⟩ := Option.map_eq_some_iff.mp hgone
  obtain ⟨c, hc, hstep⟩ := Machine.run_append.mp hc'
  obtain ⟨c₁, hnext, hend⟩ := Machine.run_cons.mp hstep
  obtain rfl := Option.some.inj hend
  rw [final, hc, Option.map_some, Option.some.injEq, decide_eq_true_eq] at hrun
  rw [decide_eq_true_eq] at hfacts
  have hpaging := relay_paging hc (Machine.along_of_check (S := RelayLoop (key 9))
    (by decide +kernel))
  exact ⟨c, c₁, hc, Machine.step_of_next hnext, hrun.1, hfacts.1,
    hpaging.2.2.2 _ _ _ (Machine.step_of_next hnext) (acks_of_last hnext hfacts.2) hrun.1 hfacts.1
      hrun.2.1, hrun.2.2, hpaging.1⟩

end ZenthDht
