import ZenthDht.Spec.Obeys
import ZenthDht.Spec.Tables

/-!
# Runs of the server

How the database changes in a run.  Nothing but a SQL statement of some job changes rows
(`Step.db`), and that statement satisfies its guard (`Reachable.guard`).  So a property of
the rows that is lost in a run is lost in the execution of one guarded statement
(`db_crossing`); most statements about the server are this rule, applied to a property of
one row.
-/

namespace ZenthDht

open Conc

/-! ## The same rows -/

/-- The same rows in every table, in any order; `app_config` is not compared. -/
structure Db.Same (db db' : Db) : Prop where
  users : db.users.Perm db'.users
  authChallenges : db.authChallenges.Perm db'.authChallenges
  sessions : db.sessions.Perm db'.sessions
  friendRequests : db.friendRequests.Perm db'.friendRequests
  friendResponses : db.friendResponses.Perm db'.friendResponses
  oneTimePrekeys : db.oneTimePrekeys.Perm db'.oneTimePrekeys
  messages : db.messages.Perm db'.messages
  relayMessages : db.relayMessages.Perm db'.relayMessages
  syncBlobs : db.syncBlobs.Perm db'.syncBlobs
  seq : db.seq = db'.seq

theorem Db.Same.rfl {db : Db} : db.Same db :=
  ⟨.rfl, .rfl, .rfl, .rfl, .rfl, .rfl, .rfl, .rfl, .rfl, Eq.refl _⟩

theorem Db.Same.of_isPerm {db db' : Db} (h : db.isPerm db' = true) : db.Same db' := by
  simp only [Db.isPerm, Bool.and_eq_true, List.isPerm_iff, decide_eq_true_eq] at h
  obtain ⟨⟨⟨⟨⟨⟨⟨⟨⟨⟨h₁, h₂⟩, h₃⟩, h₄⟩, h₅⟩, h₆⟩, h₇⟩, h₈⟩, h₉⟩, -⟩, hseq⟩ := h
  exact ⟨h₁, h₂, h₃, h₄, h₅, h₆, h₇, h₈, h₉, hseq⟩

section

variable {codec : Codec} {verifyDetached : Bytes → Bytes → Bytes → Bool}
variable {c c' c₁ c₂ : State} {ms : Moves} {m : Move Job Oracle Act} {t : Nat} {job : Job}

/-! ## Statements of a run -/

/-- In the state `c`, thread `t` executes the statement `s` for its job, and that leads
to `c'`. -/
structure Executes (c : State) (t : Nat) (job : Job) (s : Stmt) (c' : State) : Prop where
  pool : ∃ k, c.pool[t]? = some ⟨job, .perform (.sql s) k⟩ ∧
    c'.pool = c.pool.set t ⟨job, k (s.exec c.world.clock c.world.db).1⟩
  db : c'.world.db = (s.exec c.world.clock c.world.db).2
  trace : c'.trace = c.trace ++ [(t, ⟨.sql s, (s.exec c.world.clock c.world.db).1⟩)]

/-- A statement either fails for a reason of its own and does nothing, or is executed. -/
theorem perform_sql {s : Stmt} {ω : Oracle} {w w' : World} {r : Res (.sql s)}
    (h : perform verifyDetached (.sql s) ω w = some (r, w')) :
    (w' = w ∧ ∃ e, r = .error (.other e)) ∨
      (r = (s.exec w.clock w.db).1 ∧ w' = { w with db := (s.exec w.clock w.db).2 }) := by
  cases ω with
  | fail e =>
      obtain ⟨rfl, rfl⟩ := Prod.mk.inj (Option.some.inj h)
      exact .inl ⟨rfl, e, rfl⟩
  | _ =>
      obtain ⟨rfl, rfl⟩ := Prod.mk.inj (Option.some.inj h)
      exact .inr ⟨rfl, rfl⟩

/-- Waiting for input changes nothing. -/
theorem perform_select {rx : Receiver} {ω : Oracle} {w w' : World} {r : Res (.select rx)}
    (h : perform verifyDetached (.select rx) ω w = some (r, w')) :
    w' = w ∧ ((∃ f, ω = .frame (some f) ∧ r = .socket f) ∨
      ∃ res next, w.connections.recv rx = some (res, next) ∧ r = .broadcast res next) := by
  have hrecv : (w.connections.recv rx).map (fun x ↦ (WsInput.broadcast x.1 x.2, w)) = some (r, w') →
      w' = w ∧ ((∃ f, ω = .frame (some f) ∧ r = .socket f) ∨
        ∃ res next, w.connections.recv rx = some (res, next) ∧ r = .broadcast res next) := by
    intro h
    obtain ⟨⟨res, next⟩, hr, he⟩ := Option.map_eq_some_iff.mp h
    obtain ⟨rfl, rfl⟩ := Prod.mk.inj he
    exact ⟨rfl, .inr ⟨res, next, hr, rfl⟩⟩
  cases ω with
  | frame f =>
      cases f with
      | none => exact hrecv h
      | some f =>
          obtain ⟨rfl, rfl⟩ := Prod.mk.inj (Option.some.inj h)
          exact ⟨rfl, .inl ⟨f, rfl, rfl⟩⟩
  | _ => exact hrecv h

/-- No other operation touches the database or the clock. -/
theorem perform_db {o : Op} {ω : Oracle} {w w' : World} {r : Res o} (ho : ∀ s, o ≠ .sql s)
    (h : perform verifyDetached o ω w = some (r, w')) : w'.db = w.db := by
  cases o with
  | sql s => exact absurd rfl (ho s)
  | select rx => rw [(perform_select h).1]
  | _ =>
      cases ω <;> simp only [perform, Option.some.injEq, Prod.mk.injEq, reduceCtorEq] at h <;>
        exact h.2 ▸ rfl

theorem act_db {a : Act} {w w' : World} (h : act a w = some w') : w.db.Same w'.db := by
  cases a with
  | tick clock instant =>
      simp only [act] at h
      split at h
      · obtain rfl := Option.some.inj h
        exact .rfl
      · exact nomatch h
  | setConfig config =>
      obtain rfl := Option.some.inj h
      exact { Db.Same.rfl with }
  | reorder db =>
      simp only [act] at h
      split at h
      next hp =>
        obtain rfl := Option.some.inj h
        exact .of_isPerm hp
      · exact nomatch h
  | runSpawned i =>
      obtain ⟨_, _, rfl⟩ := Option.map_eq_some_iff.mp h
      exact .rfl

/-- The statement of an event that succeeded. -/
def okStmt : Event Res → Option Stmt
  | ⟨.sql s, .ok _⟩ => some s
  | _ => none

theorem ok_of_okStmt {e : Event Res} {s : Stmt} (h : okStmt e = some s) :
    ∃ a, e = ⟨.sql s, .ok a⟩ := by
  unfold okStmt at h
  split at h
  · obtain rfl := Option.some.inj h
    exact ⟨_, rfl⟩
  · exact nomatch h

/-- The rows are the same, and no statement has succeeded. -/
structure Quiet (c c' : State) : Prop where
  db : c.world.db.Same c'.world.db
  trace : ∃ ext, c'.trace = c.trace ++ ext ∧ ∀ t s a, (t, ⟨.sql s, .ok a⟩) ∉ ext

/-- One move is quiet or executes one statement. -/
theorem Step.quiet_or_executes (hs : (server codec verifyDetached).Step c m c') :
    Quiet c c' ∨ ∃ t job s, Executes c t job s c' := by
  cases hs with
  | spawn j => exact .inl ⟨.rfl, [], by simp, by simp⟩
  | act ha => exact .inl ⟨act_db ha, [], by simp, by simp⟩
  | @step t ω j o k r w ht hp =>
      by_cases ho : ∃ s, o = .sql s
      · obtain ⟨s, rfl⟩ := ho
        rcases perform_sql hp with ⟨rfl, e, rfl⟩ | ⟨rfl, rfl⟩
        · refine .inl ⟨.rfl, _, rfl, fun t' s' a hmem ↦ ?_⟩
          cases List.mem_singleton.mp hmem
        · exact .inr ⟨t, j, s, ⟨k, ht, rfl⟩, rfl, rfl⟩
      · have hdb : w.db = c.world.db := perform_db (fun s hs ↦ ho ⟨s, hs⟩) hp
        refine .inl ⟨?_, _, rfl, fun t' s a hmem ↦ ho ⟨s, ?_⟩⟩
        · rw [hdb]
          exact .rfl
        · have he := congrArg (fun e ↦ e.2.1) (List.mem_singleton.mp hmem)
          exact he.symm

/-- One move leaves the rows alone or executes one statement. -/
theorem Step.db (hs : (server codec verifyDetached).Step c m c') :
    c.world.db.Same c'.world.db ∨ ∃ t job s, Executes c t job s c' :=
  (Step.quiet_or_executes hs).imp_left Quiet.db

/-- A statement that changes rows succeeds. -/
theorem Executes.succeeds {s : Stmt} (he : Executes c t job s c') {P : Db → Prop}
    (hP : ∀ db seq, P { db with seq } → P db) (hold : ¬ P c.world.db) (hnew : P c'.world.db) :
    ∃ a, (s.exec c.world.clock c.world.db).1 = .ok a := by
  rcases exec_ok_or_unchanged c.world.clock c.world.db s with hok | ⟨seq, hdb⟩
  · exact hok
  · rw [he.db, hdb] at hnew
    exact absurd (hP _ _ hnew) hold

/-- A result in the history after a statement was there before it, or it is that of the
statement. -/
theorem Executes.result {s s' : Stmt} {a : s'.Out} {t' : Nat} (he : Executes c t job s c')
    (hmem : (t', ⟨.sql s', .ok a⟩) ∈ c'.trace) :
    (t', ⟨.sql s', .ok a⟩) ∈ c.trace ∨
      s' = s ∧ t' = t ∧ (s'.exec c.world.clock c.world.db).1 = .ok a := by
  rw [he.trace] at hmem
  rcases List.mem_append.mp hmem with hmem | hmem
  · exact .inl hmem
  · obtain ⟨rfl, hevent⟩ := Prod.mk.inj (List.mem_singleton.mp hmem)
    obtain ⟨hop, hr⟩ := Sigma.mk.inj hevent
    obtain rfl := Op.sql.inj hop
    exact .inr ⟨rfl, rfl, (eq_of_heq hr).symm⟩

/-- The statement of a step is one of the thread that takes it. -/
theorem Executes.of_step {s : Stmt} {t' : Nat} {ω : Oracle} (he : Executes c t' job s c')
    (hs : (server codec verifyDetached).Step c (.step t ω) c') : t' = t := by
  cases hs with
  | step ht hp =>
      have htrace := List.append_cancel_left he.trace
      exact (Prod.mk.inj (List.cons.inj htrace).1).1.symm

/-- A statement that succeeds is executed by a step of its thread that does not fail. -/
theorem Executes.move {s : Stmt} {a : s.Out} (he : Executes c t job s c')
    (hs : (server codec verifyDetached).Step c m c')
    (hok : (s.exec c.world.clock c.world.db).1 = .ok a) : ∃ ω, m = .step t ω ∧ ω.fails = false := by
  have htrace := he.trace
  cases hs with
  | spawn j => simp at htrace
  | act ha => simp at htrace
  | @step u ω j o k r w hu hp =>
      obtain ⟨rfl, hevent⟩ := Prod.mk.inj (List.cons.inj (List.append_cancel_left htrace)).1
      obtain ⟨rfl, hr⟩ := Sigma.mk.inj hevent
      refine ⟨ω, rfl, ?_⟩
      rw [eq_of_heq hr, hok] at hp
      cases ω with
      | fail e => exact nomatch (Prod.mk.inj (Option.some.inj hp)).1
      | _ => rfl

theorem Executes.subset {s : Stmt} (he : Executes c t job s c') : ∀ e ∈ c.trace, e ∈ c'.trace := by
  rw [he.trace]
  exact fun e hmem ↦ List.mem_append_left _ hmem

theorem Quiet.subset (hq : Quiet c c') : ∀ e ∈ c.trace, e ∈ c'.trace := by
  obtain ⟨ext, htrace, -⟩ := hq.trace
  rw [htrace]
  exact fun e hmem ↦ List.mem_append_left _ hmem

theorem Quiet.result {s : Stmt} {a : s.Out} (hq : Quiet c c')
    (hmem : (t, ⟨.sql s, .ok a⟩) ∈ c'.trace) : (t, ⟨.sql s, .ok a⟩) ∈ c.trace := by
  obtain ⟨ext, htrace, hext⟩ := hq.trace
  rw [htrace] at hmem
  exact (List.mem_append.mp hmem).resolve_right (hext t s a)

theorem Quiet.okStmt {s : Stmt} (hq : Quiet c c') {e : Nat × Event Res} (he : e ∈ c'.trace)
    (hs : okStmt e.2 = some s) : e ∈ c.trace := by
  obtain ⟨t, e⟩ := e
  obtain ⟨a, rfl⟩ := ok_of_okStmt hs
  exact hq.result he

theorem Executes.okStmt {s s' : Stmt} (h : Executes c t job s c') {e : Nat × Event Res}
    (he : e ∈ c'.trace) (hs : okStmt e.2 = some s') : e ∈ c.trace ∨ e.1 = t ∧ s' = s := by
  obtain ⟨t', e⟩ := e
  obtain ⟨a, rfl⟩ := ok_of_okStmt hs
  exact (h.result he).imp_right fun ⟨hs, ht, _⟩ ↦ ⟨ht, hs⟩

/-- The history of a step that executes a statement with success says which one. -/
theorem Step.executes_of_trace {s : Stmt} {a : s.Out}
    (hs : (server codec verifyDetached).Step c m c')
    (htrace : c'.trace = c.trace ++ [(t, ⟨.sql s, .ok a⟩)]) :
    ∃ job, Executes c t job s c' ∧ (s.exec c.world.clock c.world.db).1 = .ok a := by
  rcases Step.quiet_or_executes hs with hq | ⟨t', job, s', he⟩
  · obtain ⟨ext, hext, hno⟩ := hq.trace
    rw [htrace] at hext
    rw [← List.append_cancel_left hext] at hno
    exact absurd (List.mem_singleton.mpr rfl) (hno t s a)
  · have heq := List.append_cancel_left (htrace.symm.trans he.trace)
    obtain ⟨rfl, hevent⟩ := Prod.mk.inj (List.cons.inj heq).1
    obtain ⟨hop, hr⟩ := Sigma.mk.inj hevent
    obtain rfl := Op.sql.inj hop
    exact ⟨job, he, (eq_of_heq hr).symm⟩

/-- What a statement returned in a run it returned in a state of the run. -/
theorem read_since {s : Stmt} {a : s.Out} {ext : List (Nat × Event Res)}
    (h : (server codec verifyDetached).run c ms = some c') (hext : c'.trace = c.trace ++ ext)
    (he : (t, ⟨.sql s, .ok a⟩) ∈ ext) :
    ∃ d ms₁ ms₂ ext₁ ext₂, (server codec verifyDetached).run c ms₁ = some d ∧
      d.trace = c.trace ++ ext₁ ∧ ext = ext₁ ++ (t, ⟨.sql s, .ok a⟩) :: ext₂ ∧
      (s.exec d.world.clock d.world.db).1 = .ok a ∧
      (server codec verifyDetached).run d ms₂ = some c' := by
  obtain ⟨ext₁, ext₂, rfl⟩ := List.append_of_mem he
  rw [← List.append_assoc] at hext
  obtain ⟨ms₁, ω, ms₂, d, j, k, w, -, h₁, hpre, ht, hp, h₂⟩ :=
    Machine.event_moment h hext (by simp)
  rcases perform_sql hp with ⟨-, e, hr⟩ | ⟨hr, -⟩
  · exact nomatch hr
  · rw [← hpre] at h₂
    exact ⟨d, ms₁, .step t ω :: ms₂, ext₁, ext₂, h₁, hpre, rfl, hr.symm,
      Machine.Step.run_cons (.step ht hp) h₂⟩

/-- What a statement returned in a run it returned before the run or in a state of it. -/
theorem read_of_run {s : Stmt} {a : s.Out} (h : (server codec verifyDetached).run c ms = some c')
    (he : (t, ⟨.sql s, .ok a⟩) ∈ c'.trace) :
    (t, ⟨.sql s, .ok a⟩) ∈ c.trace ∨ ∃ d ms₁ ms₂, (server codec verifyDetached).run c ms₁ = some d ∧
      (s.exec d.world.clock d.world.db).1 = .ok a ∧
      (server codec verifyDetached).run d ms₂ = some c' := by
  obtain ⟨ext, hext⟩ := Machine.trace_of_run h
  rw [hext] at he
  refine (List.mem_append.mp he).imp_right fun he ↦ ?_
  obtain ⟨d, ms₁, ms₂, ext₁, ext₂, h₁, -, -, hr, h₂⟩ := read_since h hext he
  exact ⟨d, ms₁, ms₂, h₁, hr, h₂⟩

/-- The state of a run in which a statement returned what it returned. -/
theorem state_of_read {s : Stmt} {a : s.Out} {pre post : List (Nat × Event Res)}
    (h : (server codec verifyDetached).run c ms = some c')
    (htr : c'.trace = pre ++ (t, ⟨.sql s, .ok a⟩) :: post) (hlen : c.trace.length ≤ pre.length) :
    ∃ ms₁ m ms₂ d, ms = ms₁ ++ m :: ms₂ ∧ (server codec verifyDetached).run c ms₁ = some d ∧
      d.trace = pre ∧ (s.exec d.world.clock d.world.db).1 = .ok a := by
  obtain ⟨ms₁, ω, ms₂, d, j, k, w, rfl, h₁, hpre, ht, hp, -⟩ := Machine.event_moment h htr hlen
  rcases perform_sql hp with ⟨-, e, hr⟩ | ⟨hr, -⟩
  · exact nomatch hr
  · exact ⟨ms₁, .step t ω, ms₂, d, rfl, h₁, hpre, hr.symm⟩

/-- **Invariants of the rows and the history.**  What holds of the rows at the beginning, is kept
when more happens, and is kept by every statement with its event, holds of the rows at the end of
a run and the history the run has added. -/
theorem run_since {I : List (Nat × Event Res) → Db → Prop}
    (hsame : ∀ {ext db db'}, Db.Same db db' → I ext db → I ext db')
    (hmono : ∀ {ext ext' db}, I ext db → I (ext ++ ext') db)
    (hexec : ∀ {ext db now t s}, I ext db →
      I (ext ++ [(t, ⟨.sql s, (s.exec now db).1⟩)]) (s.exec now db).2)
    (h : (server codec verifyDetached).run c ms = some c') {ext : List (Nat × Event Res)}
    (hext : c'.trace = c.trace ++ ext) (hc : I [] c.world.db) : I ext c'.world.db := by
  have hinv : ∃ ext, c'.trace = c.trace ++ ext ∧ I ext c'.world.db := by
    refine Machine.run_invariant (I := fun d ↦ ∃ ext, d.trace = c.trace ++ ext ∧ I ext d.world.db)
      ?_ h ⟨[], by simp, hc⟩
    rintro d m d' ⟨ext, htrace, hI⟩ hs
    rcases Step.quiet_or_executes hs with hq | ⟨t, job, s, he⟩
    · obtain ⟨ext', htrace', -⟩ := hq.trace
      exact ⟨ext ++ ext', by rw [htrace', htrace, List.append_assoc], hsame hq.db (hmono hI)⟩
    · refine ⟨ext ++ [_], by rw [he.trace, htrace, List.append_assoc], ?_⟩
      rw [he.db]
      exact hexec hI
  obtain ⟨ext', htrace, hI⟩ := hinv
  rw [htrace] at hext
  rwa [← List.append_cancel_left hext]

/-! ## Reachable states -/

/-- The states reached by the runs of a server that starts with an empty database. -/
def Reachable (codec : Codec) (verifyDetached : Bytes → Bytes → Bytes → Bool) (c : State) : Prop :=
  ∃ clock instant ms,
    (server codec verifyDetached).run (.start (.initial clock instant)) ms = some c

namespace Reachable

theorem run (h : Reachable codec verifyDetached c)
    (hr : (server codec verifyDetached).run c ms = some c') :
    Reachable codec verifyDetached c' := by
  obtain ⟨clock, instant, ms₀, h₀⟩ := h
  exact ⟨clock, instant, ms₀ ++ ms, Machine.run_append.mpr ⟨c, h₀, hr⟩⟩

/-- What holds at the start and is kept by every move made in a reachable state holds in every
reachable state. -/
theorem induction {I : State → Prop} (hstart : ∀ clock instant, I (.start (.initial clock instant)))
    (hstep : ∀ {c m c'}, Reachable codec verifyDetached c → I c →
      (server codec verifyDetached).Step c m c' → I c')
    (h : Reachable codec verifyDetached c) : I c := by
  obtain ⟨clock, instant, ms, h⟩ := h
  refine (Machine.run_invariant (I := fun d ↦ Reachable codec verifyDetached d ∧ I d) ?_ h
    ⟨⟨clock, instant, [], rfl⟩, hstart clock instant⟩).2
  rintro d m d' ⟨hd, hI⟩ hs
  exact ⟨hd.run (hs.run_cons Machine.run_nil), hstep hd hI hs⟩

/-- The same for the moves after a reachable state, together with the history they add. -/
theorem since {I : List (Nat × Event Res) → State → Prop} (h : Reachable codec verifyDetached c)
    (hquiet : ∀ {ext ext' d d'}, I ext d → d.world.db.Same d'.world.db →
      (∀ u s a, (u, ⟨.sql s, .ok a⟩) ∉ ext') → I (ext ++ ext') d')
    (hexec : ∀ {ext d d' u job s}, Reachable codec verifyDetached d → (∀ e ∈ c.trace, e ∈ d.trace) →
      I ext d → Executes d u job s d' →
      I (ext ++ [(u, ⟨.sql s, (s.exec d.world.clock d.world.db).1⟩)]) d')
    (hrun : (server codec verifyDetached).run c ms = some c') {ext : List (Nat × Event Res)}
    (hext : c'.trace = c.trace ++ ext) (hc : I [] c) : I ext c' := by
  have hinv : Reachable codec verifyDetached c' ∧ ∃ ext, c'.trace = c.trace ++ ext ∧ I ext c' := by
    refine Machine.run_invariant (I := fun d ↦ Reachable codec verifyDetached d ∧
      ∃ ext, d.trace = c.trace ++ ext ∧ I ext d) ?_ hrun ⟨h, [], by simp, hc⟩
    rintro d m d' ⟨hd, ext, htrace, hI⟩ hs
    refine ⟨hd.run (hs.run_cons Machine.run_nil), ?_⟩
    rcases Step.quiet_or_executes hs with hq | ⟨t, job, s, he⟩
    · obtain ⟨ext', htrace', hno⟩ := hq.trace
      exact ⟨ext ++ ext', by rw [htrace', htrace, List.append_assoc], hquiet hI hq.db hno⟩
    · refine ⟨ext ++ [_], by rw [he.trace, htrace, List.append_assoc], hexec hd ?_ hI he⟩
      rw [htrace]
      exact fun e he ↦ List.mem_append_left _ he
  obtain ⟨-, ext', htrace, hI⟩ := hinv
  rw [htrace] at hext
  rwa [← List.append_cancel_left hext]

theorem guard (h : Reachable codec verifyDetached c) {o : Op} {k : Res o → Handler (Option Reply)}
    (ht : c.pool[t]? = some ⟨job, .perform o k⟩) : Guard codec job (past t c.trace) o := by
  obtain ⟨clock, instant, ms₀, h₀⟩ := h
  exact Machine.guard_of_run (code_obeys codec) h₀ ht

theorem answer (h : Reachable codec verifyDetached c) {reply : Option Reply}
    (ht : c.pool[t]? = some ⟨job, .ret reply⟩) : Answer codec (past t c.trace) reply job := by
  obtain ⟨clock, instant, ms₀, h₀⟩ := h
  exact Machine.post_of_run (code_obeys codec) h₀ ht

theorem executes (h : Reachable codec verifyDetached c) {s : Stmt}
    (he : Executes c t job s c') : s.Guard codec job (past t c.trace) := by
  obtain ⟨k, ht, -⟩ := he.pool
  exact h.guard ht

/-- An event of the history was performed in a reachable state with the history before it. -/
theorem moment (h : Reachable codec verifyDetached c) {pre post : List (Nat × Event Res)} {o : Op}
    {r : Res o} (htr : c.trace = pre ++ (t, ⟨o, r⟩) :: post) :
    ∃ c₁ ω job k w, Reachable codec verifyDetached c₁ ∧ c₁.trace = pre ∧
      c₁.pool[t]? = some ⟨job, .perform o k⟩ ∧ perform verifyDetached o ω c₁.world = some (r, w) ∧
      ∃ ms, (server codec verifyDetached).run
          ⟨w, c₁.pool.set t ⟨job, k r⟩, pre ++ [(t, ⟨o, r⟩)]⟩ ms = some c ∧
        (server codec verifyDetached).run c₁ (.step t ω :: ms) = some c := by
  obtain ⟨clock, instant, ms₀, h₀⟩ := h
  obtain ⟨ms₁, ω, ms₂, c₁, job, k, w, -, h₁, hpre, ht, hp, h₂⟩ :=
    Machine.event_moment h₀ htr (by simp [Config.start])
  subst hpre
  exact ⟨c₁, ω, job, k, w, ⟨clock, instant, ms₁, h₁⟩, rfl, ht, hp, ms₂, h₂,
    Machine.Step.run_cons (.step ht hp) h₂⟩

/-- A statement that succeeded was executed in a reachable state with the history before it. -/
theorem executed (h : Reachable codec verifyDetached c) {pre post : List (Nat × Event Res)}
    {s : Stmt} {a : s.Out} (htr : c.trace = pre ++ (t, ⟨.sql s, .ok a⟩) :: post) :
    ∃ c₁ c₂ job, Reachable codec verifyDetached c₁ ∧ c₁.trace = pre ∧ Executes c₁ t job s c₂ ∧
      (s.exec c₁.world.clock c₁.world.db).1 = .ok a ∧
      ∃ m ms, (server codec verifyDetached).Step c₁ m c₂ ∧
        (server codec verifyDetached).run c₂ ms = some c := by
  obtain ⟨c₁, ω, job, k, w, h₁, rfl, ht, hp, ms, hms, -⟩ := h.moment htr
  rcases perform_sql hp with ⟨-, e, he⟩ | ⟨hr, rfl⟩
  · exact nomatch he
  · refine ⟨c₁, _, job, h₁, rfl, ⟨⟨k, ht, ?_⟩, rfl, ?_⟩, hr.symm, .step t ω, ms, .step ht hp, hms⟩
    · simp only [hr]
    · simp only [hr]

/-- What a statement returned it returned in a reachable state. -/
theorem read (h : Reachable codec verifyDetached c) {s : Stmt} {a : s.Out}
    (he : (t, ⟨.sql s, .ok a⟩) ∈ c.trace) :
    ∃ d ms, Reachable codec verifyDetached d ∧ (s.exec d.world.clock d.world.db).1 = .ok a ∧
      (server codec verifyDetached).run d ms = some c := by
  obtain ⟨pre, post, htr⟩ := List.append_of_mem he
  obtain ⟨d, c₂, job, hd, -, -, hr, m, ms, hs, hrun⟩ := h.executed htr
  exact ⟨d, m :: ms, hd, hr, hs.run_cons hrun⟩

/-- What the history says of a signature is so. -/
theorem verdict (h : Reachable codec verifyDetached c) {key message signature : Bytes} {b : Bool}
    (hv : (t, ⟨.verify key message signature, b⟩) ∈ c.trace) :
    verifyDilithiumSignature verifyDetached key message signature = b := by
  obtain ⟨pre, post, htr⟩ := List.append_of_mem hv
  obtain ⟨c₁, ω, job, k, w, -, -, -, hp, -⟩ := h.moment htr
  cases ω <;> exact (Prod.mk.inj (Option.some.inj hp)).1

/-- What the history calls valid is valid. -/
theorem verified (h : Reachable codec verifyDetached c) {key message signature : Bytes}
    (hv : (t, ⟨.verify key message signature, true⟩) ∈ c.trace) :
    verifyDilithiumSignature verifyDetached key message signature = true := h.verdict hv

end Reachable

/-- The history of one thread, in terms of the whole history. -/
theorem did_past {tr : List (Nat × Event Res)} {o : Op} {r : Res o} :
    Did (past t tr) o r ↔ (t, ⟨o, r⟩) ∈ tr := mem_past

/-- The job of a request that has been answered, with its answer. -/
def State.answered (c : State) (t : Nat) : Option (Job × Reply) :=
  match c.pool[t]? with
  | some ⟨job, .ret (some reply)⟩ => some (job, reply)
  | _ => none

theorem answered_iff {reply : Reply} :
    c.answered t = some (job, reply) ↔ c.pool[t]? = some ⟨job, .ret (some reply)⟩ := by
  unfold State.answered
  split
  next hp => simp [hp]
  next hp =>
    constructor
    · intro h
      exact nomatch h
    · intro h
      exact absurd h (hp job reply)

/-- The job of a thread, with the operation it performs next. -/
def State.performs (c : State) (t : Nat) : Option (Job × Op) :=
  match c.pool[t]? with
  | some ⟨job, .perform o _⟩ => some (job, o)
  | _ => none

theorem performs_iff {o : Op} :
    c.performs t = some (job, o) ↔ ∃ k, c.pool[t]? = some ⟨job, .perform o k⟩ := by
  unfold State.performs
  split
  next hp =>
    rw [hp, Option.some.injEq]
    constructor
    · intro h
      obtain ⟨rfl, rfl⟩ := Prod.mk.inj h
      exact ⟨_, rfl⟩
    · rintro ⟨k, hk⟩
      obtain ⟨rfl, heq⟩ := Thread.mk.inj (Option.some.inj hk)
      rw [(Program.perform.inj heq).1]
  next hp =>
    constructor
    · intro h
      exact nomatch h
    · rintro ⟨k, hk⟩
      exact absurd hk (hp job o k)

/-- What `f` reads off the operation that thread `t` performs next. -/
def State.about {α : Type} (f : Op → Option α) (c : State) (t : Nat) : Option α :=
  (c.performs t).bind fun p ↦ f p.2

theorem about_iff {α : Type} {f : Op → Option α} {a : α} :
    c.about f t = some a ↔ ∃ job o k, c.pool[t]? = some ⟨job, .perform o k⟩ ∧ f o = some a := by
  simp only [State.about, Option.bind_eq_some_iff, Prod.exists, performs_iff]
  constructor
  · rintro ⟨job, o, ⟨k, hp⟩, ho⟩
    exact ⟨job, o, k, hp, ho⟩
  · rintro ⟨job, o, k, hp, ho⟩
    exact ⟨job, o, ⟨k, hp⟩, ho⟩

/-- What a request obeys, at an operation of it. -/
theorem Reachable.request_guard {call : Call} {guard : Past → Op → Prop}
    {post : Past → Reply → Prop} (h : Reachable codec verifyDetached c)
    (hobeys : (processCall codec call).Obeys guard post []) {o : Op}
    {k : Res o → Handler (Option Reply)} (ht : c.pool[t]? = some ⟨.request call, .perform o k⟩) :
    guard (past t c.trace) o := by
  obtain ⟨clock, instant, ms₀, h₀⟩ := h
  exact Machine.guard_of_run (code_of_call codec hobeys) h₀ ht rfl

/-- What a request obeys, at its answer. -/
theorem Reachable.request_answer {call : Call} {guard : Past → Op → Prop}
    {post : Past → Reply → Prop} {reply : Reply} (h : Reachable codec verifyDetached c)
    (hobeys : (processCall codec call).Obeys guard post [])
    (hans : c.answered t = some (.request call, reply)) : post (past t c.trace) reply := by
  obtain ⟨clock, instant, ms₀, h₀⟩ := h
  exact Machine.post_of_run (code_of_call codec hobeys) h₀ (answered_iff.mp hans) rfl reply rfl

/-- Thread `t` runs the job `job`. -/
def Runs (c : State) (t : Nat) (job : Job) : Prop := ∃ rest, c.pool[t]? = some ⟨job, rest⟩

/-- Threads keep their jobs. -/
theorem Runs.run (hj : Runs c t job) (h : (server codec verifyDetached).run c ms = some c') :
    Runs c' t job := by
  obtain ⟨rest, ht⟩ := hj
  obtain ⟨⟨_, rest'⟩, ht', rfl⟩ := Machine.job_of_run h ht
  exact ⟨rest', ht'⟩

/-- A job that is started has the next thread. -/
theorem runs_of_spawn (h : (server codec verifyDetached).run c (.spawn job :: ms) = some c') :
    Runs c' c.pool.length job := by
  obtain ⟨c₁, h₁, h⟩ := Machine.run_cons.mp h
  obtain rfl := Option.some.inj h₁
  have hjob : Runs { c with pool := c.pool ++ [⟨job, code codec job⟩] } c.pool.length job :=
    ⟨code codec job, by simp⟩
  exact hjob.run h

/-- A thread has one job. -/
theorem Runs.unique {job' : Job} (hj : Runs c t job) (hj' : Runs c t job') : job = job' := by
  obtain ⟨rest, ht⟩ := hj
  obtain ⟨rest', ht'⟩ := hj'
  rw [ht] at ht'
  exact (Thread.mk.inj (Option.some.inj ht')).1

/-- A statement of a history and an operation after it: the state the operation was performed in is
reached from the state the statement led to, and what happened on the way is in the history between
the two places. -/
theorem Reachable.later (h : Reachable codec verifyDetached c) {p q u : Nat} (hpq : p < q) {s : Stmt}
    {a : s.Out} (hp : c.trace[p]? = some (t, ⟨.sql s, .ok a⟩)) {o : Op} {r : Res o}
    (hq : c.trace[q]? = some (u, ⟨o, r⟩)) :
    ∃ c₁ job c₂ ms d ext ω w, Reachable codec verifyDetached c₁ ∧ Executes c₁ t job s c₂ ∧
      c₁.trace = c.trace.take p ∧ (s.exec c₁.world.clock c₁.world.db).1 = .ok a ∧
      Reachable codec verifyDetached c₂ ∧ (server codec verifyDetached).run c₂ ms = some d ∧
      perform verifyDetached o ω d.world = some (r, w) ∧ d.trace = c.trace.take q ∧
      (∃ ms', (server codec verifyDetached).run d ms' = some c) ∧ d.trace = c₂.trace ++ ext ∧
      ∀ v e, (v, e) ∈ ext → ∃ i, p < i ∧ i < q ∧ c.trace[i]? = some (v, e) := by
  have hsplit {l : List (Nat × Event Res)} {i : Nat} {e : Nat × Event Res}
      (hi : l[i]? = some e) : l = l.take i ++ e :: l.drop (i + 1) := by
    obtain ⟨hlt, he⟩ := List.getElem?_eq_some_iff.mp hi
    rw [← he, ← List.drop_eq_getElem_cons hlt, List.take_append_drop]
  have hplt : p < c.trace.length := (List.getElem?_eq_some_iff.mp hp).1
  obtain ⟨d, ω, -, -, w, hd, hdtr, -, hperf, ms', -, hrun'⟩ := h.moment (hsplit hq)
  have hp' : d.trace[p]? = some (t, ⟨.sql s, .ok a⟩) := by
    rw [hdtr, List.getElem?_take, if_pos hpq, hp]
  obtain ⟨c₁, c₂, job, h₁, hpre, he, hr, m, ms, hs, hrun⟩ := hd.executed (hsplit hp')
  obtain ⟨ext, hext⟩ := Machine.trace_of_run hrun
  rw [hdtr, List.take_take, Nat.min_eq_left hpq.le] at hpre
  have hlen : c₂.trace.length = p + 1 := by
    rw [he.trace, hpre, List.length_append, List.length_take, Nat.min_eq_left hplt.le,
      List.length_singleton]
  refine ⟨c₁, job, c₂, ms, d, ext, ω, w, h₁, he, hpre, hr, h₁.run (hs.run_cons Machine.run_nil), hrun,
    hperf, hdtr, ⟨_, hrun'⟩, hext, fun v e hmem ↦ ?_⟩
  obtain ⟨i, hi⟩ := List.getElem?_of_mem hmem
  have hd' : d.trace[p + 1 + i]? = some (v, e) := by
    rw [hext, List.getElem?_append_right (by omega), hlen, Nat.add_sub_cancel_left, hi]
  rw [hdtr, List.getElem?_take] at hd'
  split at hd'
  next hlt => exact ⟨p + 1 + i, by omega, hlt, hd'⟩
  · exact nomatch hd'

/-- Two statements of a history, the second executed in a state reached from the first. -/
theorem Reachable.between (h : Reachable codec verifyDetached c) {p q u : Nat} (hpq : p < q)
    {s s' : Stmt} {a : s.Out} {a' : s'.Out} (hp : c.trace[p]? = some (t, ⟨.sql s, .ok a⟩))
    (hq : c.trace[q]? = some (u, ⟨.sql s', .ok a'⟩)) :
    ∃ c₁ job c₂ ms d ext, Reachable codec verifyDetached c₁ ∧ Executes c₁ t job s c₂ ∧
      c₁.trace = c.trace.take p ∧ (s.exec c₁.world.clock c₁.world.db).1 = .ok a ∧
      Reachable codec verifyDetached c₂ ∧ (server codec verifyDetached).run c₂ ms = some d ∧
      (s'.exec d.world.clock d.world.db).1 = .ok a' ∧ d.trace = c.trace.take q ∧
      (∃ ms', (server codec verifyDetached).run d ms' = some c) ∧ d.trace = c₂.trace ++ ext ∧
      ∀ v e, (v, e) ∈ ext → ∃ i, p < i ∧ i < q ∧ c.trace[i]? = some (v, e) := by
  obtain ⟨c₁, job, c₂, ms, d, ext, ω, w, h₁, he, hpre, hr, h₂, hrun, hperf, hrest⟩ :=
    h.later hpq hp hq
  rcases perform_sql hperf with ⟨-, e, herror⟩ | ⟨hr', -⟩
  · exact nomatch herror
  · exact ⟨c₁, job, c₂, ms, d, ext, h₁, he, hpre, hr, h₂, hrun, hr'.symm, hrest⟩

/-- What a thread had done before a place of the history. -/
theorem did_take {tr : List (Nat × Event Res)} {q : Nat} {o : Op} {r : Res o} :
    Did (past t (tr.take q)) o r ↔ ∃ i < q, tr[i]? = some (t, ⟨o, r⟩) :=
  did_past.trans mem_take_iff

/-- The guard rule at a place of the history, for any guard that all jobs obey. -/
theorem guard_at {w : World} {guard : Job → Past → Op → Prop}
    {post : Job → Past → Option Reply → Prop}
    (hobeys : ∀ j, (code codec j).Obeys (guard j) (post j) [])
    (h : (server codec verifyDetached).run (.start w) ms = some c) {q : Nat} {o : Op} {r : Res o}
    (hq : c.trace[q]? = some (t, ⟨o, r⟩)) :
    ∃ job, Runs c t job ∧ guard job (past t (c.trace.take q)) o := by
  obtain ⟨ms₁, ω, ms₂, c₁, job, k, w, rfl, h₁, hpre, ht, hp, h₂⟩ :=
    Machine.event_at h hq (Nat.zero_le _)
  rw [← hpre] at h₂ ⊢
  have hrun : (server codec verifyDetached).run c₁ (.step t ω :: ms₂) = some c :=
    Machine.Step.run_cons (.step ht hp) h₂
  exact ⟨job, Runs.run ⟨_, ht⟩ hrun, Machine.guard_of_run hobeys h₁ ht⟩

/-- A signature that a request has verified vouches for it. -/
theorem Reachable.vouched {call : Call} (h : Reachable codec verifyDetached c)
    (hj : Runs c t (.request call)) {key message signature : Bytes}
    (hv : Did (past t c.trace) (.verify key message signature) true) :
    call.Vouched codec (past t c.trace) := by
  obtain ⟨clock, instant, ms, hms⟩ := h
  obtain ⟨q, hq⟩ := List.getElem?_of_mem (did_past.mp hv)
  obtain ⟨job, hj', call', rfl, hs⟩ := guard_at (code_obeys codec) hms hq
  obtain rfl := Job.request.inj (hj.unique hj')
  refine ⟨key, message, signature, hs.mono fun e he ↦ ?_, hv⟩
  exact mem_past.mpr (List.mem_of_mem_take (mem_past.mp he))

theorem Executes.runs {s : Stmt} (he : Executes c t job s c') : Runs c' t job := by
  obtain ⟨k, ht, hpool⟩ := he.pool
  obtain ⟨hlt, -⟩ := List.getElem?_eq_some_iff.mp ht
  exact ⟨_, by rw [hpool, List.getElem?_set_self hlt]⟩

/-- What a statement of a run leaves in the final history. -/
theorem Executes.history {s : Stmt} (he : Executes c t job s c₁)
    (h : (server codec verifyDetached).run c₁ ms = some c') :
    ∃ post, c'.trace = c.trace ++ (t, ⟨.sql s, (s.exec c.world.clock c.world.db).1⟩) :: post := by
  obtain ⟨ext, hext⟩ := Machine.trace_of_run h
  exact ⟨ext, by rw [hext, he.trace, List.append_assoc, List.singleton_append]⟩

/-! ## Signatures of a history -/

/-- The history of the whole server. -/
abbrev History : Type := List (Nat × Event Res)

/-- The key and the bytes of a successful verification. -/
def verifiedBytes : Event Res → Option (Bytes × Bytes)
  | ⟨.verify key message _, true⟩ => some (key, message)
  | _ => none

/-- Thread `t` had read a row of the user `u` and verified `message` under its identity key. -/
def SignedByUser (tr : History) (t : Nat) (u message : Bytes) : Prop :=
  ∃ row signature, (t, ⟨.sql (.selectUser u), .ok row⟩) ∈ tr ∧ row.userHashId = u ∧
    (t, ⟨.verify row.identityKeyDilithium message signature, true⟩) ∈ tr

/-- Thread `t` had read a row of the user `u` and verified `message` under its recovery key. -/
def SignedForRecovery (tr : History) (t : Nat) (u message : Bytes) : Prop :=
  ∃ row key signature, (t, ⟨.sql (.selectUser u), .ok row⟩) ∈ tr ∧ row.userHashId = u ∧
    row.recoveryDilithiumPubkey = some key ∧ key ≠ [] ∧
    (t, ⟨.verify key message signature, true⟩) ∈ tr

/-- Thread `t` had read the clock and found `ts` within the tolerance. -/
def FreshFor (tr : History) (t : Nat) (ts : UInt64) : Prop :=
  ∃ read, (t, ⟨.clock, read⟩) ∈ tr ∧ fresh read ts = true

theorem ReadFresh.freshFor {tr : History} {ts : UInt64} (h : ReadFresh (past t tr) ts) :
    FreshFor tr t ts := by
  obtain ⟨read, hread, hf⟩ := h
  exact ⟨read, did_past.mp hread, hf⟩

/-- A row read for a user is a row of that user. -/
theorem Reachable.userHash_of_read (h : Reachable codec verifyDetached c) {u : Bytes} {row : User}
    (he : (t, ⟨.sql (.selectUser u), .ok row⟩) ∈ c.trace) : row.userHashId = u := by
  obtain ⟨d, ms, -, hr, -⟩ := h.read he
  exact (selectUser_sound hr).2

theorem Reachable.signedByUser (h : Reachable codec verifyDetached c)
    {u key message signature : Bytes} (hk : IdentityKey (past t c.trace) u key)
    (hv : Did (past t c.trace) (.verify key message signature) true) :
    SignedByUser c.trace t u message := by
  obtain ⟨row, hrow, rfl⟩ := hk
  have hrow := did_past.mp hrow
  exact ⟨row, signature, hrow, h.userHash_of_read hrow, did_past.mp hv⟩

theorem Reachable.signedForRecovery (h : Reachable codec verifyDetached c)
    {u key message signature : Bytes} (hk : RecoveryKey (past t c.trace) u key)
    (hv : Did (past t c.trace) (.verify key message signature) true) :
    SignedForRecovery c.trace t u message := by
  obtain ⟨row, hrow, hkey, hne⟩ := hk
  have hrow := did_past.mp hrow
  exact ⟨row, key, signature, hrow, h.userHash_of_read hrow, hkey, hne, did_past.mp hv⟩

/-! ## Crossings -/

/-- **Crossings.**  A property of the rows that holds in one state of a run and not in a later
one is lost in the execution of a statement. -/
theorem db_crossing {P : Db → Prop} (hP : ∀ {db db'}, Db.Same db db' → P db → P db')
    (h : (server codec verifyDetached).run c ms = some c') (hc : P c.world.db)
    (hc' : ¬ P c'.world.db) :
    ∃ ms₁ c₁ m t job s c₂ ms₂, (server codec verifyDetached).run c ms₁ = some c₁ ∧
      (server codec verifyDetached).Step c₁ m c₂ ∧ Executes c₁ t job s c₂ ∧ P c₁.world.db ∧
      ¬ P c₂.world.db ∧ (server codec verifyDetached).run c₂ ms₂ = some c' := by
  obtain ⟨ms₁, m, ms₂, c₁, c₂, -, h₁, hP₁, hs, hP₂, h₂⟩ :=
    Machine.run_crossing (fun d ↦ P d.world.db) h hc hc'
  rcases Step.db hs with hsame | ⟨t, job, s, he⟩
  · exact absurd (hP hsame hP₁) hP₂
  · exact ⟨ms₁, c₁, m, t, job, s, c₂, ms₂, h₁, hs, he, hP₁, hP₂, h₂⟩

/-- A statement executed in a run is in the part of the history that the run adds. -/
theorem Executes.mem_ext {ms₁ ms₂ : Moves} {s : Stmt} {ext : List (Nat × Event Res)}
    (h₁ : (server codec verifyDetached).run c ms₁ = some c₁) (he : Executes c₁ t job s c₂)
    (h₂ : (server codec verifyDetached).run c₂ ms₂ = some c') (hext : c'.trace = c.trace ++ ext) :
    (t, ⟨.sql s, (s.exec c₁.world.clock c₁.world.db).1⟩) ∈ ext := by
  obtain ⟨before, hbefore⟩ := Machine.trace_of_run h₁
  obtain ⟨after, hafter⟩ := he.history h₂
  rw [hext, hbefore, List.append_assoc] at hafter
  rw [List.append_cancel_left hafter]
  exact List.mem_append_right _ List.mem_cons_self

/-- A property of the rows that only a statement in `D` invalidates holds as long as no such
statement has succeeded. -/
theorem db_undisturbed {P : Db → Prop} {D : Stmt → Prop} {ext : List (Nat × Event Res)}
    (hP : ∀ {db db'}, Db.Same db db' → P db → P db')
    (hD : ∀ {now db s}, P db → P (s.exec now db).2 ∨ D s ∧ ∃ a, (s.exec now db).1 = .ok a)
    (h : (server codec verifyDetached).run c ms = some c') (hext : c'.trace = c.trace ++ ext)
    (hundisturbed : ∀ t s a, (t, ⟨.sql s, .ok a⟩) ∈ ext → ¬ D s) (hc : P c.world.db) :
    P c'.world.db := by
  by_contra hc'
  obtain ⟨ms₁, c₁, m, t, job, s, c₂, ms₂, h₁, -, he, hin, hout, h₂⟩ := db_crossing hP h hc hc'
  rw [he.db] at hout
  obtain ⟨hs, a, ha⟩ := (hD hin).resolve_left hout
  have hmem := he.mem_ext h₁ h₂ hext
  rw [ha] at hmem
  exact hundisturbed t s a hmem hs

/-- **Origins.**  A property of the rows that the empty database does not have was established
in a reachable state by the execution of a guarded statement. -/
theorem Reachable.origin {P : Db → Prop} (hP : ∀ {db db'}, Db.Same db db' → P db' → P db)
    (h₀ : ¬ P .migrated) (h : Reachable codec verifyDetached c) (hc : P c.world.db) :
    ∃ c₁ m t job s c₂ ms, Reachable codec verifyDetached c₁ ∧
      (server codec verifyDetached).Step c₁ m c₂ ∧ Executes c₁ t job s c₂ ∧
      ¬ P c₁.world.db ∧ P c₂.world.db ∧ (server codec verifyDetached).run c₂ ms = some c := by
  obtain ⟨clock, instant, ms, hms⟩ := h
  obtain ⟨ms₁, c₁, m, t, job, s, c₂, ms₂, h₁, hs, he, hP₁, hP₂, h₂⟩ :=
    db_crossing (fun hsame ↦ mt (hP hsame)) hms h₀ (not_not.mpr hc)
  exact ⟨c₁, m, t, job, s, c₂, ms₂, ⟨clock, instant, ms₁, h₁⟩, hs, he, hP₁, not_not.mp hP₂, h₂⟩

/-! ## Keys -/

theorem Db.Keyed.same {db db' : Db} (h : db.Keyed) (hs : db.Same db') : db'.Keyed :=
  ⟨(hs.users.map _).nodup_iff.mp h.users, hs.seq ▸ h.friendRequests.perm hs.friendRequests,
    hs.seq ▸ h.oneTimePrekeys.perm hs.oneTimePrekeys, hs.seq ▸ h.messages.perm hs.messages,
    hs.seq ▸ h.relayMessages.perm hs.relayMessages⟩

theorem Step.keyed (hs : (server codec verifyDetached).Step c m c') (h : c.world.db.Keyed) :
    c'.world.db.Keyed := by
  rcases Step.db hs with hsame | ⟨t, job, s, he⟩
  · exact h.same hsame
  · rw [he.db]
    exact h.exec

/-- A table with its key and its sequence: rows keep the columns `col` as long as they are there,
and a new row has a new key. -/
structure Keeps {α β : Type} (table : Db → List α) (seq : Db → Nat) (key : α → Nat)
    (col : α → β) : Prop where
  same : ∀ {db db' : Db}, db.Same db' → (table db).Perm (table db') ∧ seq db = seq db'
  row : ∀ {now db s x}, x ∈ table (Stmt.exec now db s).2 →
    (∃ y ∈ table db, key x = key y ∧ col x = col y) ∨ seq db ≤ key x
  le : ∀ {now db s}, seq db ≤ seq (Stmt.exec now db s).2

/-- A row found later under the key of a row has the same columns. -/
theorem Keeps.run {α β : Type} {table : Db → List α} {seq : Db → Nat} {key : α → Nat}
    {col : α → β} (hkeeps : Keeps table seq key col)
    (hserial : Serial key (table c.world.db) (seq c.world.db))
    (hrun : (server codec verifyDetached).run c ms = some c') {x y : α}
    (hx : x ∈ table c.world.db) (hy : y ∈ table c'.world.db) (hk : key y = key x) :
    col y = col x := by
  have hinv : (∀ y ∈ table c'.world.db, (∃ z ∈ table c.world.db, key y = key z ∧ col y = col z) ∨
      seq c.world.db ≤ key y) ∧ seq c.world.db ≤ seq c'.world.db := by
    refine Machine.run_invariant (I := fun d ↦ (∀ y ∈ table d.world.db,
      (∃ z ∈ table c.world.db, key y = key z ∧ col y = col z) ∨ seq c.world.db ≤ key y) ∧
      seq c.world.db ≤ seq d.world.db) ?_ hrun ⟨fun y hy ↦ .inl ⟨y, hy, rfl, rfl⟩, le_rfl⟩
    rintro d m d' ⟨hold, hseq⟩ hs
    rcases Step.db hs with hsame | ⟨t, job, s, he⟩
    · obtain ⟨hperm, hnext⟩ := hkeeps.same hsame
      exact ⟨fun y hy ↦ hold y (hperm.mem_iff.mpr hy), hnext ▸ hseq⟩
    · rw [he.db]
      refine ⟨fun y hy ↦ ?_, hseq.trans hkeeps.le⟩
      rcases hkeeps.row hy with ⟨z, hz, hkey, hcol⟩ | hnew
      · rw [hkey, hcol]
        exact hold z hz
      · exact .inr (hseq.trans hnew)
  rcases hinv.1 y hy with ⟨z, hz, hkey, hcol⟩ | hnew
  · obtain rfl := hserial.eq_of_key hz hx (hkey.symm.trans hk)
    exact hcol
  · have := hserial.below x hx
    omega

theorem Reachable.keyed (h : Reachable codec verifyDetached c) : c.world.db.Keyed := by
  obtain ⟨clock, instant, ms, hms⟩ := h
  exact Machine.run_invariant (I := fun d ↦ d.world.db.Keyed) (fun hd hs ↦ Step.keyed hs hd) hms
    Db.Keyed.migrated

end

/-! ## A concrete environment

Users, keys and codecs to run the server on.  All signatures are one string; which of them are
valid is a list of the messages that were signed, with the keys. -/

namespace Sample

def codec : Codec where
  decodePreKeyBundle b := some ⟨0, [], b, none, []⟩
  encodePreKeyMessage m := m.baseKey ++ m.other
  decodePreKeyMessage _ := none
  encodeSignalMessage m := m.other
  decodeSignalMessage b := some ⟨b⟩
  decodeWsRequest _ := .dht
  decodeBase64 _ := .ok []

/-- A user hash or a token. -/
def word (i : UInt8) : Bytes := List.replicate 32 i

def key (i : UInt8) : Bytes := List.replicate publicKeyBytes i

def signature : Bytes := List.replicate signatureBytes 0

def verify (signed : List (Bytes × Bytes)) (sig msg key : Bytes) : Bool :=
  sig = signature && signed.contains (key, msg)

def random (i : UInt8) : Oracle := .bytes ⟨List.replicate 32 i, by simp⟩

/-- Thread `t` takes `n` steps of which nothing is left open. -/
def steps (t n : Nat) : Moves := List.replicate n (.step t .none)

/-- Thread `t` registers user `i`, whose bundle is the single byte `i`. -/
def registers (t : Nat) (i : UInt8) : Moves :=
  .spawn (.request (.register ⟨word i, [1], key i, [1], [i], 0⟩)) :: steps t 1

/-- The server in this environment. -/
abbrev system (signed : List (Bytes × Bytes)) : Machine Res World Job (Option Reply) Oracle Act :=
  server codec (verify signed)

/-- The state a run of it leads to. -/
def final (signed : List (Bytes × Bytes)) (ms : Moves) : Option State :=
  (system signed).run (.start (.initial 0 0)) ms

/-- A step whose event is a success of the statement `s`. -/
theorem step_event {signed : List (Bytes × Bytes)} {c c' : State} {t : Nat} {ω : Oracle} {s : Stmt}
    (hs : (system signed).next c (.step t ω) = some c')
    (hlast : (c'.trace.getLast?).bind (okStmt ·.2) = some s) :
    ∃ a, c'.trace = c.trace ++ [(t, ⟨.sql s, .ok a⟩)] := by
  cases Machine.step_of_next hs with
  | @step _ _ j o k r w ht hp =>
      rw [List.getLast?_append, List.getLast?_singleton, Option.some_or, Option.bind_some] at hlast
      obtain ⟨a, ha⟩ := ok_of_okStmt hlast
      exact ⟨a, congrArg (fun e ↦ c.trace ++ [(t, e)]) ha⟩

end Sample

end ZenthDht
