import ZenthDht.Conc.Alone
import ZenthDht.Spec.Run

/-!
# Requests that run alone

The rules of `ZenthDht.Conc.Alone` for the server.  Between the statements of a request that runs
alone the clock moves and PostgreSQL may reorder rows, so a request is followed up to `Db.Same`:
the effect of a statement does not depend on the order of the rows (`Db.Same.exec`).
-/

namespace ZenthDht

open Conc Stmt

/-! ## Statements and the order of rows -/

theorem Db.Same.symm {db db' : Db} (h : db.Same db') : db'.Same db :=
  ⟨h.users.symm, h.authChallenges.symm, h.sessions.symm, h.friendRequests.symm,
    h.friendResponses.symm, h.oneTimePrekeys.symm, h.messages.symm, h.relayMessages.symm,
    h.syncBlobs.symm, h.seq.symm⟩

theorem Db.Same.trans {db db' db'' : Db} (h : db.Same db') (h' : db'.Same db'') : db.Same db'' :=
  ⟨h.users.trans h'.users, h.authChallenges.trans h'.authChallenges,
    h.sessions.trans h'.sessions, h.friendRequests.trans h'.friendRequests,
    h.friendResponses.trans h'.friendResponses, h.oneTimePrekeys.trans h'.oneTimePrekeys,
    h.messages.trans h'.messages, h.relayMessages.trans h'.relayMessages,
    h.syncBlobs.trans h'.syncBlobs, h.seq.trans h'.seq⟩

theorem Db.Same.hasUser {db db' : Db} (h : db.Same db') (u : Bytes) :
    db.hasUser u = db'.hasUser u := h.users.any_eq

theorem Db.Same.hasFriendRequest {db db' : Db} (h : db.Same db') (i : Nat) :
    db.hasFriendRequest i = db'.hasFriendRequest i := h.friendRequests.any_eq

section

variable {db db' : Db}

theorem Db.Same.removeFriendRequests (h : db.Same db') (p : FriendRequestModel → Bool) :
    (removeFriendRequests db p).Same (removeFriendRequests db' p) := by
  have hgone : ∀ x, ((db.friendRequests.filter p).map FriendRequestModel.id).contains x =
      ((db'.friendRequests.filter p).map FriendRequestModel.id).contains x := by
    intro x
    exact ((h.friendRequests.filter p).map _).contains_eq
  refine { h with friendRequests := h.friendRequests.filter _, friendResponses := ?_ }
  simp only [Stmt.removeFriendRequests, hgone]
  exact h.friendResponses.filter _

theorem insertPrekeys_perm (now : NaiveDateTime) (ps : List NewOneTimePrekey)
    {rows rows' : List OneTimePrekey} (h : rows.Perm rows') (seq n : Nat) :
    (ps.foldl (insertPrekey now) (rows, seq, n)).1.Perm
        (ps.foldl (insertPrekey now) (rows', seq, n)).1 ∧
      (ps.foldl (insertPrekey now) (rows, seq, n)).2 =
        (ps.foldl (insertPrekey now) (rows', seq, n)).2 := by
  induction ps generalizing rows rows' seq n with
  | nil => exact ⟨h, rfl⟩
  | cons p ps ih =>
      simp only [List.foldl_cons, insertPrekey, h.any_eq]
      split
      · exact ih h (seq + 1) n
      · exact ih (h.append_right _) (seq + 1) (n + 1)

/-- What a statement does to the rows does not depend on their order. -/
theorem Db.Same.exec (h : db.Same db') (now : NaiveDateTime) (s : Stmt) :
    (s.exec now db).2.Same (s.exec now db').2 := by
  cases s with
  | insertUser n =>
      simp only [Stmt.exec, h.hasUser]
      split
      · exact h
      · exact { h with users := h.users.append_right _ }
  | updateRecoveryKey u k => exact { h with users := h.users.map _ }
  | updateIdentity u k g b => exact { h with users := h.users.map _ }
  | deleteUser u =>
      simp only [Stmt.exec, h.hasUser]
      split
      · exact { h.removeFriendRequests _ with
          users := h.users.filter _
          authChallenges := h.authChallenges.filter _
          sessions := h.sessions.filter _
          oneTimePrekeys := h.oneTimePrekeys.filter _ }
      · exact h
  | insertChallenge n =>
      simp only [Stmt.exec, h.hasUser, h.authChallenges.any_eq]
      repeat' split
      · exact h
      · exact h
      · exact { h with authChallenges := h.authChallenges.append_right _ }
  | deleteChallenge i => exact { h with authChallenges := h.authChallenges.filter _ }
  | deleteChallengesOf u => exact { h with authChallenges := h.authChallenges.filter _ }
  | insertSession n =>
      simp only [Stmt.exec, h.hasUser, h.sessions.any_eq]
      repeat' split
      · exact h
      · exact h
      · exact { h with sessions := h.sessions.append_right _ }
  | deleteSessionsOf u => exact { h with sessions := h.sessions.filter _ }
  | insertFriendRequest n =>
      have hu (seq : Sequences) (u : Bytes) :
          ({ db with seq } : Db).hasUser u = ({ db' with seq } : Db).hasUser u := h.users.any_eq
      simp only [Stmt.exec, h.seq, hu, h.friendRequests.any_eq]
      repeat' split
      · exact { h with seq := Eq.refl _ }
      · exact { h with seq := Eq.refl _ }
      · exact { h with seq := Eq.refl _ }
      · exact { h with seq := Eq.refl _, friendRequests := h.friendRequests.append_right _ }
  | updateFriendRequest r t b g m ts =>
      exact { h with friendRequests := h.friendRequests.map _ }
  | deleteFriendRequestsOf u => exact h.removeFriendRequests _
  | insertFriendResponse n =>
      have hr (seq : Sequences) (i : Nat) : ({ db with seq } : Db).hasFriendRequest i =
          ({ db' with seq } : Db).hasFriendRequest i := h.friendRequests.any_eq
      simp only [Stmt.exec, h.seq, hr]
      split
      · exact { h with seq := Eq.refl _ }
      · exact { h with seq := Eq.refl _, friendResponses := h.friendResponses.append_right _ }
  | updateFriendResponses i a b g =>
      exact { h with friendResponses := h.friendResponses.map _ }
  | deleteFriendResponses is =>
      exact { h with friendResponses := h.friendResponses.filter _ }
  | insertPrekeys ps =>
      have hu (seq : Sequences) (u : Bytes) :
          ({ db with seq } : Db).hasUser u = ({ db' with seq } : Db).hasUser u := h.users.any_eq
      obtain ⟨hrows, hn⟩ := insertPrekeys_perm now ps h.oneTimePrekeys db'.seq.oneTimePrekeys 0
      simp only [Stmt.exec, h.seq, hu, hn]
      split
      · exact { h with seq := Eq.refl _ }
      · exact { h with seq := Eq.refl _, oneTimePrekeys := hrows }
  | markPrekeyUsed i => exact { h with oneTimePrekeys := h.oneTimePrekeys.map _ }
  | insertMessage n =>
      simp only [Stmt.exec, h.seq, h.messages.any_eq]
      repeat' split
      · exact h
      · exact { h with seq := Eq.refl _ }
      · exact { h with seq := Eq.refl _, messages := h.messages.append_right _ }
  | deleteMessage i r => exact { h with messages := h.messages.filter _ }
  | deleteMessagesOf u => exact { h with messages := h.messages.filter _ }
  | purgeMessages t => exact { h with messages := h.messages.filter _ }
  | insertRelay n =>
      simp only [Stmt.exec, h.seq]
      exact { h with seq := Eq.refl _, relayMessages := h.relayMessages.append_right _ }
  | deleteRelayUpTo d i => exact { h with relayMessages := h.relayMessages.filter _ }
  | purgeRelay t => exact { h with relayMessages := h.relayMessages.filter _ }
  | upsertBlob b =>
      simp only [Stmt.exec, h.syncBlobs.any_eq]
      split
      · exact { h with syncBlobs := h.syncBlobs.map _ }
      · exact { h with syncBlobs := h.syncBlobs.append_right _ }
  | deleteBlob d => exact { h with syncBlobs := h.syncBlobs.filter _ }
  | purgeBlobs t => exact { h with syncBlobs := h.syncBlobs.filter _ }
  | loadFriendResponses u since =>
      rw [loadFriendResponses_rows, loadFriendResponses_rows]
      exact h
  | loadAccepted u since =>
      rw [loadAccepted_rows, loadAccepted_rows]
      exact h
  | _ => exact h

end

/-! ## Rules for operations -/

variable {codec : Codec} {verifyDetached : Bytes → Bytes → Bytes → Bool}
variable {α : Type} {post : α → World → Prop} {w : World}

theorem stable_same (db : Db) :
    (server codec verifyDetached).Stable fun w ↦ w.db.Same db := by
  intro a w w' ha hw
  exact (act_db ha).symm.trans hw

theorem drifts_same {w' : World} (h : (server codec verifyDetached).Drifts w w') :
    w'.db.Same w.db := (stable_same w.db).drifts h .rfl

/-- A statement of a request that runs alone fails for a reason of its own, or is executed on the
rows as they are, in some order. -/
theorem wp_sql {s : Stmt} {k : Res (.sql s) → Handler α} {db : Db}
    (hfail : ∀ w e, w.db.Same db → (server codec verifyDetached).Wp post (k (.error (.other e))) w)
    (hexec : ∀ w w' : World, w.db.Same db → w'.db.Same (s.exec w.clock db).2 →
      (server codec verifyDetached).Wp post (k (s.exec w.clock w.db).1) w')
    (hw : w.db.Same db) : (server codec verifyDetached).Wp post (sql s >>= k) w := by
  refine Machine.wp_perform (stable_same db) ?_ hw
  intro ω w r w' hw hp
  rcases perform_sql hp with ⟨rfl, e, rfl⟩ | ⟨rfl, rfl⟩
  · exact hfail w' e hw
  · exact hexec w _ hw (hw.exec w.clock s)

/-- Other operations leave the rows alone. -/
theorem wp_call {o : Op} (ho : ∀ s, o ≠ .sql s) {k : Res o → Handler α} {db : Db}
    (h : ∀ w r, w.db.Same db → (server codec verifyDetached).Wp post (k r) w)
    (hw : w.db.Same db) : (server codec verifyDetached).Wp post (Program.call o >>= k) w := by
  refine Machine.wp_perform (stable_same db) ?_ hw
  intro ω w r w' hw hp
  refine h w' r ?_
  rw [perform_db ho hp]
  exact hw

theorem wp_fresh {ts : UInt64} {k : Bool → Handler α} {db : Db}
    (h : ∀ w b, w.db.Same db → (server codec verifyDetached).Wp post (k b) w)
    (hw : w.db.Same db) : (server codec verifyDetached).Wp post (isTimestampFresh ts >>= k) w :=
  wp_call (o := .clock) nofun (fun w t ↦ h w (fresh t ts)) hw

theorem wp_utcNow {k : NaiveDateTime → Handler α} {db : Db}
    (h : ∀ w now, w.db.Same db → (server codec verifyDetached).Wp post (k now) w)
    (hw : w.db.Same db) : (server codec verifyDetached).Wp post (utcNow >>= k) w :=
  wp_call (o := .clock) nofun (fun w t ↦ h w t) hw

/-- Run alone from `c`, the request `call` is answered with `reply`, and that leads to `c'`. -/
def Answers (codec : Codec) (verifyDetached : Bytes → Bytes → Bytes → Bool) (c : State)
    (call : Call) (reply : Reply) (c' : State) : Prop :=
  ∃ ms, (server codec verifyDetached).run c (.spawn (.request call) :: ms) = some c' ∧
    (∀ m ∈ ms, m.Alone c.pool.length) ∧
    c'.answered c.pool.length = some (.request call, reply)

theorem Answers.wp {c c' : State} {call : Call} {reply : Reply} {post : Reply → World → Prop}
    (h : Answers codec verifyDetached c call reply c')
    (hwp : (server codec verifyDetached).Wp post (processCall codec call) c.world) :
    ∃ w, post reply w ∧ (server codec verifyDetached).Drifts w c'.world := by
  obtain ⟨ms, hrun, halone, hans⟩ := h
  have hcode : (server codec verifyDetached).Wp (fun r w ↦ ∀ reply, r = some reply → post reply w)
      (code codec (.request call)) c.world := by
    refine (Machine.wp_bind _ _).mpr (hwp.mono fun r w hpost ↦ ?_)
    rintro _ ⟨⟩
    exact hpost
  obtain ⟨w, hw, hdrift⟩ := Machine.wp_of_spawn hrun halone hcode (answered_iff.mp hans)
  exact ⟨w, hw reply rfl, hdrift⟩

/-- An execution of a request is a run in which it is answered. -/
theorem answers_of_exec {c : State} {call : Call} {reply : Reply} {ωs : List Oracle}
    (h : (server codec verifyDetached).exec (processCall codec call) ωs c.world = some (reply, w)) :
    ∃ c', Answers codec verifyDetached c call reply c' ∧ c'.world = w := by
  let d : State := { c with pool := c.pool ++ [⟨.request call, code codec (.request call)⟩] }
  obtain ⟨c', hrun, hret, hw⟩ := Machine.run_of_exec (M := server codec verifyDetached) (c := d)
    (t := c.pool.length) (j := .request call) List.getElem?_concat_length (Machine.exec_map some h)
  refine ⟨c', ⟨ωs.map (.step c.pool.length), ?_, fun m hm ↦ ?_, answered_iff.mpr hret⟩, hw⟩
  · exact Machine.run_cons.mpr ⟨d, rfl, hrun⟩
  · obtain ⟨ω, -, rfl⟩ := List.mem_map.mp hm
    rfl

/-! ## Invariants of a request -/

/-- The statement is executed by the thread that runs alone. -/
theorem Executes.alone {c c' : State} {t t' : Nat} {job : Job} {s : Stmt}
    {m : Move Job Oracle Act} (he : Executes c t' job s c')
    (hs : (server codec verifyDetached).Step c m c') (hm : m.Alone t) : t' = t := by
  have htrace := he.trace
  cases hs with
  | spawn j => exact absurd hm id
  | @step u ω j o k r w hu hp =>
      obtain rfl : u = t := hm
      have he := List.append_cancel_left htrace
      exact (congrArg Prod.fst (List.cons.inj he).1).symm
  | act ha =>
      have hlen := congrArg List.length htrace
      simp at hlen

/-- A thread that has not been started has done nothing. -/
theorem Reachable.no_past {c : State} (h : Reachable codec verifyDetached c) :
    past c.pool.length c.trace = [] := by
  obtain ⟨clock, instant, ms, h⟩ := h
  exact (Machine.traced_of_run h).2 _ le_rfl

/-- What holds before a request and is kept by every statement of it, and by everything that is
not a statement, holds as long as the request runs alone. -/
theorem Reachable.alone {c c' : State} {job : Job} {ms : Moves} {I : State → Prop}
    (hc : Reachable codec verifyDetached c)
    (hrun : (server codec verifyDetached).run c (.spawn job :: ms) = some c')
    (halone : ∀ m ∈ ms, m.Alone c.pool.length)
    (hstart : ∀ d : State, d.world = c.world → d.trace = c.trace → I d)
    (hquiet : ∀ {d d'}, I d → Quiet d d' → I d')
    (hexec : ∀ {d d' s}, Reachable codec verifyDetached d → I d →
      Executes d c.pool.length job s d' → I d') : I c' := by
  obtain ⟨c₁, h₁, hrun⟩ := Machine.run_cons.mp hrun
  have hs₁ := Machine.step_of_next h₁
  have hc₁ := hc.run (hs₁.run_cons Machine.run_nil)
  obtain rfl := Option.some.inj h₁
  have hjob₁ : Runs { c with pool := c.pool ++ [⟨job, code codec job⟩] } c.pool.length job :=
    ⟨code codec job, by simp⟩
  refine (Machine.Along.invariant (S := fun _ m ↦ m.Alone c.pool.length)
    (I := fun d ↦ Reachable codec verifyDetached d ∧ Runs d c.pool.length job ∧ I d) ?_ ?_ hrun
    ⟨hc₁, hjob₁, hstart _ rfl rfl⟩).2.2
  · rintro d m d' ⟨hd, hj, hI⟩ hm hs
    have hrun' := hs.run_cons Machine.run_nil
    refine ⟨hd.run hrun', hj.run hrun', ?_⟩
    rcases Step.quiet_or_executes hs with hq | ⟨t', job', s, he⟩
    · exact hquiet hI hq
    · obtain rfl := he.alone hs hm
      obtain ⟨k, ht, -⟩ := he.pool
      obtain rfl := Runs.unique hj ⟨_, ht⟩
      exact hexec hd hI he
  · exact Machine.along_of_forall fun ms₁ m ms₂ _ hms _ ↦ halone m (by simp [hms])

/-! ## app_config -/

theorem appConfig_exec (now : NaiveDateTime) (db : Db) (s : Stmt) :
    (s.exec now db).2.appConfig = db.appConfig := by
  cases s with
  | _ =>
      simp only [Stmt.exec]
      repeat' split
      all_goals rfl

/-- Only the operator edits `app_config`. -/
theorem appConfig_of_run {c c' : State} {ms : Moves}
    (h : (server codec verifyDetached).run c ms = some c')
    (hms : ∀ config, Move.act (.setConfig config) ∉ ms) :
    c'.world.db.appConfig = c.world.db.appConfig := by
  refine Machine.Along.invariant (S := fun _ m ↦ ∀ config, m ≠ .act (.setConfig config))
    (I := fun d ↦ d.world.db.appConfig = c.world.db.appConfig) ?_ ?_ h rfl
  · intro d m d' hd hm hs
    cases hs with
    | spawn j => exact hd
    | @step t ω j o k r w ht hp =>
        by_cases ho : ∃ s, o = .sql s
        · obtain ⟨s, rfl⟩ := ho
          rcases perform_sql hp with ⟨rfl, -⟩ | ⟨-, rfl⟩
          · exact hd
          · exact (appConfig_exec _ _ s).trans hd
        · rw [← hd, ← perform_db (fun s hs ↦ ho ⟨s, hs⟩) hp]
    | @act a w ha =>
        cases a with
        | tick clock instant =>
            simp only [server, ZenthDht.act] at ha
            split at ha
            · obtain rfl := Option.some.inj ha
              exact hd
            · cases ha
        | setConfig config => exact absurd rfl (hm config)
        | reorder db =>
            simp only [server, ZenthDht.act] at ha
            split at ha
            next hp =>
              obtain rfl := Option.some.inj ha
              simp only [Db.isPerm, Bool.and_eq_true, decide_eq_true_eq] at hp
              exact hp.1.2.symm.trans hd
            · cases ha
        | runSpawned i =>
            obtain ⟨_, _, rfl⟩ := Option.map_eq_some_iff.mp ha
            exact hd
  · refine Machine.along_of_forall fun ms₁ m ms₂ _ hsplit _ config hm ↦ hms config ?_
    simp [hsplit, hm]

namespace Sample

/-- A request that runs alone from the state a run leads to, its operations resolved by `ωs`. -/
theorem answers_of_oracles {signed : List (Bytes × Bytes)} {ms : Moves} {c : State} {t : Nat}
    (call : Call) (reply : Reply) (ωs : List Oracle) (hc : final signed ms = some c)
    (hpool : ((final signed ms).map fun c ↦ c.pool.length) = some t)
    (hans : ((final signed (ms ++ .spawn (.request call) :: ωs.map (.step t))).bind fun c' ↦
      c'.answered t) = some (.request call, reply)) :
    ∃ c', Answers Sample.codec (verify signed) c call reply c' ∧
      final signed (ms ++ .spawn (.request call) :: ωs.map (.step t)) = some c' := by
  obtain ⟨c', hfinal, hans⟩ := Option.bind_eq_some_iff.mp hans
  obtain ⟨d, hd, hrun⟩ := Machine.run_append.mp hfinal
  obtain rfl : d = c := Option.some.inj (hd.symm.trans hc)
  obtain rfl : d.pool.length = t := by simpa [hc] using hpool
  refine ⟨c', ⟨_, hrun, fun m hm ↦ ?_, hans⟩, hfinal⟩
  obtain ⟨ω, -, rfl⟩ := List.mem_map.mp hm
  rfl

/-- The same where nothing is left open. -/
theorem answers_of_final {signed : List (Bytes × Bytes)} {ms : Moves} {c : State} {t : Nat}
    (call : Call) (reply : Reply) (n : Nat) (hc : final signed ms = some c)
    (hpool : ((final signed ms).map fun c ↦ c.pool.length) = some t)
    (hans : ((final signed (ms ++ .spawn (.request call) :: steps t n)).bind fun c' ↦
      c'.answered t) = some (.request call, reply)) :
    ∃ c', Answers Sample.codec (verify signed) c call reply c' := by
  rw [steps, ← List.map_replicate] at hans
  obtain ⟨c', hanswers, -⟩ := answers_of_oracles call reply _ hc hpool hans
  exact ⟨c', hanswers⟩

end Sample

end ZenthDht
