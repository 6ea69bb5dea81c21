import ZenthDht.Safety.Prekeys

/-!
# What a recovery leaves in place

A RECOVERY_CLAIM replaces the identity key, its signature and the bundle in the row of the user
and opens a session.  It touches nothing else: sessions and one-time pre-keys live in other tables
and no handler compares them with the identity key of the row.  So sessions opened before the
claim keep passing the WebSocket gate, and pre-keys uploaded under the old key keep being served
(`credentials_survive_recovery`).

What a recovery does bring about is in `recovery_effect`.
-/

namespace ZenthDht

open Conc

variable {codec : Codec} {verifyDetached : Bytes → Bytes → Bytes → Bool}
variable {c c₁ c' : State} {ms ms' : Moves} {u : Bytes}

/-! ## Sessions -/

theorem Reachable.nodup_sessions (h : Reachable codec verifyDetached c) :
    (c.world.db.sessions.map Session.sessionToken).Nodup := by
  refine h.induction (I := fun d ↦ (d.world.db.sessions.map Session.sessionToken).Nodup)
    (fun _ _ ↦ List.nodup_nil) ?_
  intro d m d' _ hd hs
  rcases Step.db hs with hsame | ⟨t, job, s, he⟩
  · exact (hsame.sessions.map _).nodup_iff.mp hd
  · rw [he.db]
    exact nodup_sessions_exec hd

/-- The query of the WebSocket gate finds a session under its token. -/
theorem selectSession_complete {now : NaiveDateTime} {db : Db} {x : Session}
    (hnodup : (db.sessions.map Session.sessionToken).Nodup) (hx : x ∈ db.sessions) :
    ((Stmt.selectSession x.sessionToken x.userHashId).exec now db).1 = .ok x := by
  refine first_of_unique (List.mem_filter.mpr ⟨hx, by simp⟩) fun y hy ↦ ?_
  obtain ⟨hy, hsel⟩ := List.mem_filter.mp hy
  simp only [Bool.and_eq_true, decide_eq_true_eq] at hsel
  exact List.inj_on_of_nodup_map hnodup hy hx hsel.1

/-- The statements that take the sessions of `u` away. -/
def Stmt.EndsSessions (u : Bytes) (s : Stmt) : Prop := s = .deleteSessionsOf u ∨ s = .deleteUser u

theorem session_stays {ext : History} (hrun : (server codec verifyDetached).run c ms = some c')
    (hext : c'.trace = c.trace ++ ext) {x : Session} (hx : x ∈ c.world.db.sessions)
    (hno : ∀ t s a, (t, ⟨.sql s, .ok a⟩) ∈ ext → ¬ s.EndsSessions x.userHashId) :
    x ∈ c'.world.db.sessions := by
  refine db_undisturbed (P := fun db ↦ x ∈ db.sessions) (D := Stmt.EndsSessions x.userHashId)
    (fun hsame ↦ hsame.sessions.mem_iff.mp) (fun {now db s} hdb ↦ ?_) hrun hext hno hx
  rcases @sessions_exec now db s x hdb with hin | rfl | ⟨rfl, hok⟩
  · exact .inl hin
  · exact .inr ⟨.inl rfl, _, rfl⟩
  · exact .inr ⟨.inr rfl, hok⟩

/-! ## Identity keys -/

/-- In the history `tr`, the identity key `k` was installed for `u` by a recovery or a
registration. -/
def Installed (tr : History) (u k : Bytes) : Prop :=
  (∃ t g b n, (t, ⟨.sql (.updateIdentity u k g b), .ok n⟩) ∈ tr) ∨
  ∃ t n a, (t, ⟨.sql (.insertUser n), .ok a⟩) ∈ tr ∧ n.userHashId = u ∧ n.identityKeyDilithium = k

theorem Installed.append {tr tr' : History} {k : Bytes} (h : Installed tr u k) :
    Installed (tr ++ tr') u k := by
  rcases h with ⟨t, g, b, n, hmem⟩ | ⟨t, n, a, hmem, hn⟩
  · exact .inl ⟨t, g, b, n, List.mem_append_left _ hmem⟩
  · exact .inr ⟨t, n, a, List.mem_append_left _ hmem, hn⟩

/-- Every identity key in a row of `u` was installed in the history `tr`. -/
def KeysInstalled (u : Bytes) (tr : History) (db : Db) : Prop :=
  ∀ row ∈ db.users, row.userHashId = u → Installed tr u row.identityKeyDilithium

theorem KeysInstalled.exec {tr : History} {db : Db} {now : NaiveDateTime} {t : Nat} {s : Stmt}
    (h : KeysInstalled u tr db) :
    KeysInstalled u (tr ++ [(t, ⟨.sql s, (s.exec now db).1⟩)]) (s.exec now db).2 := by
  intro row hrow hu
  rcases mem_users_exec hrow with hold | ⟨n, rfl, hnew, rfl⟩ | ⟨y, hy, k, rfl, rfl⟩ |
    ⟨y, hy, k, g, b, rfl, rfl⟩
  · exact (h row hold hu).append
  · refine .inr ⟨t, n, 1, ?_, hu, rfl⟩
    simp [Stmt.exec, hnew]
  · exact (h y hy hu).append
  · obtain rfl : y.userHashId = u := hu
    exact .inl ⟨t, g, b, _, List.mem_append_right _ (List.mem_singleton.mpr rfl)⟩

theorem keysInstalled_update {tr : History} {now : NaiveDateTime} {db : Db} {t n : Nat}
    {k g b : Bytes} (hmem : (t, ⟨.sql (.updateIdentity u k g b), .ok n⟩) ∈ tr) :
    KeysInstalled u tr ((Stmt.updateIdentity u k g b).exec now db).2 := by
  intro row hrow hu
  obtain ⟨y, -, rfl⟩ := List.mem_map.mp hrow
  split at hu
  · rw [if_pos ‹_›]
    exact .inl ⟨t, g, b, n, hmem⟩
  · exact absurd hu ‹_›

/-! ## One-time pre-keys -/

/-- The row as a selection gives it. -/
def OneTimePrekey.selection (x : OneTimePrekey) : PrekeySelection :=
  ⟨x.userHashId, x.id, x.prekeyId, x.publicKey⟩

/-- In the history `tr`, thread `t` stores the pre-key `x`. -/
def Uploads (tr : History) (t : Nat) (x : PrekeySelection) : Prop :=
  ∃ ps p a, (t, ⟨.sql (.insertPrekeys ps), .ok a⟩) ∈ tr ∧ p ∈ ps ∧ p.userHashId = x.target ∧
    p.prekeyId = x.prekeyId ∧ p.publicKey = x.publicKey

theorem Uploads.append {tr tr' : History} {t : Nat} {x : PrekeySelection} (h : Uploads tr t x) :
    Uploads (tr ++ tr') t x := by
  obtain ⟨ps, p, a, hmem, hp⟩ := h
  exact ⟨ps, p, a, List.mem_append_left _ hmem, hp⟩

/-- Every pre-key is one of the database `old`, or was stored in the history `tr`. -/
def PrekeysKnown (old : Db) (tr : History) (db : Db) : Prop :=
  ∀ x ∈ db.oneTimePrekeys, (∃ y ∈ old.oneTimePrekeys, y.selection = x.selection) ∨
    ∃ t, Uploads tr t x.selection

theorem PrekeysKnown.mono {old db : Db} {tr tr' : History} (h : PrekeysKnown old tr db) :
    PrekeysKnown old (tr ++ tr') db := by
  intro x hx
  exact (h x hx).imp_right fun ⟨t, ht⟩ ↦ ⟨t, ht.append⟩

theorem PrekeysKnown.exec {old db : Db} {tr : History} {now : NaiveDateTime} {t : Nat} {s : Stmt}
    (h : PrekeysKnown old tr db) :
    PrekeysKnown old (tr ++ [(t, ⟨.sql s, (s.exec now db).1⟩)]) (s.exec now db).2 := by
  rcases exec_ok_or_unchanged now db s with ⟨a, ha⟩ | ⟨seq, hdb⟩
  · intro x hx
    rcases mem_oneTimePrekeys_exec hx with ⟨hx, -⟩ | ⟨y, hy, -, rfl⟩ | ⟨ps, rfl, p, hp, id, -, rfl⟩
    · exact h.mono x hx
    · exact h.mono y hy
    · exact .inr ⟨t, ps, p, a, by simp [ha], hp, rfl, rfl, rfl⟩
  · rw [hdb]
    exact h.mono

/-- By the time of `tr`, thread `t` had read the row and had verified an upload of pre-keys
under its identity key. -/
def UploadSigned (tr : History) (t : Nat) (u : Bytes) (row : User) : Prop :=
  (t, ⟨.sql (.selectUser u), .ok row⟩) ∈ tr ∧ ∃ timestamp signature,
    (t, ⟨.verify row.identityKeyDilithium (prekeyMessage u timestamp) signature, true⟩) ∈ tr

theorem uploadSigned_of_guard {ps : List NewOneTimePrekey} {p : NewOneTimePrekey} {t : Nat}
    {job : Job} {tr : History} (hguard : (Stmt.insertPrekeys ps).Guard codec job (past t tr))
    (hp : p ∈ ps) : ∃ row, UploadSigned tr t p.userHashId row := by
  obtain ⟨req, -, rfl, key, message, signature, ⟨-, -, ⟨row, hrow, rfl⟩, rfl, rfl⟩, hv⟩ |
    ⟨req, -, rfl, key, message, signature, ⟨-, ⟨row, hrow, rfl⟩, rfl, rfl⟩, hv⟩ := hguard
  · obtain ⟨pk, -, rfl⟩ := List.mem_map.mp hp
    exact ⟨row, did_past.mp hrow, _, _, did_past.mp hv⟩
  · obtain ⟨pk, -, rfl⟩ := List.mem_map.mp hp
    exact ⟨row, did_past.mp hrow, _, _, did_past.mp hv⟩

/-! ## The claim -/

section Claim

variable {t n : Nat} {ω : Oracle} {k g b : Bytes} {ext : History}
variable (h : Reachable codec verifyDetached c)
variable (hstep : (server codec verifyDetached).Step c (.step t ω) c₁)
variable (hclaim : c₁.trace = c.trace ++ [(t, ⟨.sql (.updateIdentity u k g b), .ok n⟩)])
variable (hrun : (server codec verifyDetached).run c₁ ms = some c')
variable (hext : c'.trace = c₁.trace ++ ext)
include hstep hclaim hrun hext

/-- A row of `u` read after the claim has the identity key of the claim or a later one. -/
theorem installed_of_read {t' : Nat} {row : User}
    (hread : (t', ⟨.sql (.selectUser u), .ok row⟩) ∈ ext) :
    Installed ((t, ⟨.sql (.updateIdentity u k g b), .ok n⟩) :: ext) u row.identityKeyDilithium := by
  obtain ⟨d, ms₁, ms₂, ext₁, ext₂, h₁, hd, rfl, hr, -⟩ := read_since hrun hext hread
  obtain ⟨job, he, -⟩ := Step.executes_of_trace hstep hclaim
  obtain ⟨hrow, hu⟩ := selectUser_sound hr
  have hinst : KeysInstalled u ([(t, ⟨.sql (.updateIdentity u k g b), .ok n⟩)] ++ ext₁)
      d.world.db := by
    refine run_since (I := fun e db ↦ KeysInstalled u
      ([(t, ⟨.sql (.updateIdentity u k g b), .ok n⟩)] ++ e) db) ?_ ?_ ?_ h₁ hd ?_
    · intro e db db' hsame hI row hrow hu
      exact hI row (hsame.users.mem_iff.mpr hrow) hu
    · intro e e' db hI row hrow hu
      rw [← List.append_assoc]
      exact (hI row hrow hu).append
    · intro e db now t s hI
      rw [← List.append_assoc]
      exact hI.exec
    · rw [he.db]
      exact keysInstalled_update List.mem_cons_self
  rw [← List.singleton_append, ← List.append_assoc]
  exact (hinst row hrow hu).append

include h in
/-- A pre-key served after the claim was there at the claim, or it was uploaded after the claim by
a request that had read the row of `u` before the claim, or under the identity key of the claim or
a later one. -/
theorem served_after_claim {t' : Nat} {event : Event Res} {x : PrekeySelection}
    (hserved : (t', event) ∈ ext) (hx : selectedPrekey event = some x) (hu : x.target = u) :
    (∃ y ∈ c.world.db.oneTimePrekeys, y.selection = x) ∨
    ∃ t'' row, Uploads ext t'' x ∧ UploadSigned c'.trace t'' u row ∧
      ((t'', ⟨.sql (.selectUser u), .ok row⟩) ∈ c.trace ∨
        Installed ((t, ⟨.sql (.updateIdentity u k g b), .ok n⟩) :: ext) u
          row.identityKeyDilithium) := by
  obtain ⟨job, he, -⟩ := Step.executes_of_trace hstep hclaim
  obtain rfl := selected_of_selectedPrekey hx
  obtain ⟨d, ms₁, ms₂, ext₁, ext₂, h₁, hd, rfl, hr, h₂⟩ := read_since hrun hext hserved
  obtain ⟨y, hy, hid, hyu, hpid, hpk, -⟩ := selectUnusedPrekey_sound hr
  have hknown : PrekeysKnown c.world.db ext₁ d.world.db := by
    refine run_since (I := PrekeysKnown c.world.db) ?_ PrekeysKnown.mono PrekeysKnown.exec h₁ hd ?_
    · intro e db db' hsame hI z hz
      exact hI z (hsame.oneTimePrekeys.mem_iff.mpr hz)
    · rw [he.db]
      exact fun z hz ↦ .inl ⟨z, hz, rfl⟩
  obtain rfl : y.selection = x := by
    simp only [OneTimePrekey.selection, hid, hyu, hpid, hpk]
  refine (hknown y hy).imp_right fun ⟨t'', hup⟩ ↦ ?_
  obtain ⟨ps, p, a, hmem, hp, hpu, -⟩ := id hup
  obtain ⟨e₁, e₂, rfl⟩ := List.append_of_mem hmem
  have hc₁ : Reachable codec verifyDetached c₁ := h.run (hstep.run_cons Machine.run_nil)
  have htr : c'.trace = (c₁.trace ++ e₁) ++ (t'', ⟨.sql (.insertPrekeys ps), .ok a⟩) :: (e₂ ++
      (t', ⟨.sql (.selectUnusedPrekey y.userHashId), .ok (y.id, y.prekeyId, y.publicKey)⟩) :: ext₂) := by
    rw [hext]
    simp [OneTimePrekey.selection]
  obtain ⟨d', d'', job', hd', hpre, he', -, -⟩ := (hc₁.run hrun).executed htr
  obtain ⟨row, hread, timestamp, signature, hv⟩ := uploadSigned_of_guard (hd'.executes he') hp
  rw [hpre] at hread hv
  obtain rfl : p.userHashId = u := hpu.trans hu
  refine ⟨t'', row, hup.append, ⟨?_, timestamp, signature, ?_⟩, ?_⟩
  · rw [htr]
    exact List.mem_append_left _ hread
  · rw [htr]
    exact List.mem_append_left _ hv
  rcases List.mem_append.mp hread with hread | hread
  · rw [hclaim] at hread
    refine .inl ((List.mem_append.mp hread).resolve_right fun hmem ↦ ?_)
    cases List.mem_singleton.mp hmem
  · exact .inr (installed_of_read hstep hclaim hrun hext
      (List.mem_append_left _ (List.mem_append_left _ hread)))

end Claim

/-- **The effect of a recovery.**  Let a RECOVERY_CLAIM install the identity key `k` for `u` in a
reachable state, and let the run go on in any way.  A session of `u` from before the claim is still
found by the query of the WebSocket gate, with its expiry, as long as no DELETE of `u` has taken the
sessions of `u` away.  Every one-time pre-key served for `u` after the claim was there at the claim,
or was uploaded by a request that had read the row of `u` before the claim, or was uploaded under
`k` or a key installed later. -/
theorem recovery_effect {clock instant t n : Nat} {ω : Oracle} {k g b : Bytes} {ext : History}
    (h : (server codec verifyDetached).run (.start (.initial clock instant)) ms = some c)
    (hstep : (server codec verifyDetached).Step c (.step t ω) c₁)
    (hclaim : c₁.trace = c.trace ++ [(t, ⟨.sql (.updateIdentity u k g b), .ok n⟩)])
    (hrun : (server codec verifyDetached).run c₁ ms' = some c')
    (hext : c'.trace = c₁.trace ++ ext) :
    (∀ x ∈ c.world.db.sessions, x.userHashId = u →
      (∃ t' s a, (t', ⟨.sql s, .ok a⟩) ∈ ext ∧ s.EndsSessions u) ∨
      ∀ now, ((Stmt.selectSession x.sessionToken u).exec now c'.world.db).1 = .ok x) ∧
    ∀ t' event x, (t', event) ∈ ext → selectedPrekey event = some x → x.target = u →
      (∃ y ∈ c.world.db.oneTimePrekeys, y.selection = x) ∨
      ∃ t'' row, Uploads ext t'' x ∧ UploadSigned c'.trace t'' u row ∧
        ((t'', ⟨.sql (.selectUser u), .ok row⟩) ∈ c.trace ∨
          Installed ((t, ⟨.sql (.updateIdentity u k g b), .ok n⟩) :: ext) u
            row.identityKeyDilithium) := by
  have hc : Reachable codec verifyDetached c := ⟨clock, instant, ms, h⟩
  have hc₁ : Reachable codec verifyDetached c₁ := hc.run (hstep.run_cons Machine.run_nil)
  refine ⟨fun x hx hu ↦ ?_, fun t' event x hserved hx hu ↦
    served_after_claim hc hstep hclaim hrun hext hserved hx hu⟩
  by_cases hend : ∃ t' s a, (t', ⟨.sql s, .ok a⟩) ∈ ext ∧ s.EndsSessions u
  · exact .inl hend
  right
  intro now
  obtain ⟨job, he, -⟩ := Step.executes_of_trace hstep hclaim
  have hx₁ : x ∈ c₁.world.db.sessions := by
    rw [he.db]
    exact hx
  subst hu
  exact selectSession_complete (hc₁.run hrun).nodup_sessions
    (session_stays hrun hext hx₁ fun t' s a hmem hs ↦ hend ⟨t', s, a, hmem, hs⟩)

namespace Sample

/-- User 1 publishes the recovery key 3. -/
def recoveryKey : PublishRecoveryKeyRequest := ⟨word 1, key 3, signature, 0⟩

/-- User 1 recovers its account with the identity key `i`. -/
def recovery (i : UInt8) : RecoveryClaimRequest := ⟨word 1, key i, [1], [i], signature, 0⟩

def recoverySigned : List (Bytes × Bytes) :=
  [(key 1, recoveryKey.signedData), (key 1, prekeyMessage (word 1) 0),
   (key 3, (recovery 4).signedData), (key 3, (recovery 5).signedData),
   (key 2, lookupMessage (word 2) (word 1) 5)]

/-- Thread `t` recovers with the key `i` and gets a token of bytes `i`. -/
def recovers (t : Nat) (i : UInt8) : Moves := steps t 1 ++ .step t (random i) :: steps t 2

/-- User 1 publishes a recovery key, uploads a pre-key under its first identity key, recovers with
the key 4, and recovers again with the key 5, up to the update. -/
def recoveryRun : Moves :=
  registers 0 1 ++ registers 1 2 ++ .spawn (.request (.publishRecoveryKey recoveryKey)) ::
  steps 2 4 ++ .spawn (.request (.uploadPrekeys ⟨word 1, [⟨7, [7]⟩], signature, 0⟩)) ::
  steps 3 4 ++ .spawn (.request (.recoveryClaim (recovery 4))) :: steps 4 3 ++ recovers 4 4 ++
  .spawn (.request (.recoveryClaim (recovery 5))) :: steps 5 3

/-- The second recovery ends, and somebody connects with the token of the first. -/
def reconnectRun : Moves :=
  .step 5 (random 5) :: steps 5 2 ++ .spawn (.websocket 1) ::
  .step 6 (.frame (some (.binary (word 1 ++ word 4)))) :: steps 6 3

/-- User 2 fetches a pre-key of user 1. -/
def bundleRun : Moves :=
  .spawn (.request (.fetchPrekeyBundle ⟨word 2, word 1, signature, 5⟩)) :: steps 7 5

/-- The session of the first recovery. -/
def firstSession : Session := ⟨word 4, word 1, days 30, 0⟩

end Sample

open Sample in
/-- After the second recovery the session of the first one still opens a connection, and the
pre-key uploaded under the key before both is served. -/
theorem credentials_survive_recovery : ∃ c c' : State,
    final recoverySigned recoveryRun = some c ∧
    (system recoverySigned).run c (steps 5 1 ++ reconnectRun ++ bundleRun) = some c' ∧
    firstSession ∈ c.world.db.sessions ∧ c.world.connections.isConnected (word 1) = false ∧
    c'.answered 5 = some (.request (.recoveryClaim (recovery 5)),
      ⟨true, .recoveryClaim ⟨true, word 5, ""⟩, ""⟩) ∧
    c'.world.connections.isConnected (word 1) = true ∧
    c'.answered 7 = some (.request (.fetchPrekeyBundle ⟨word 2, word 1, signature, 5⟩),
      ⟨true, .fetchPrekeyBundle ⟨true, some ⟨7, [7], [5], none, []⟩, ""⟩, ""⟩) := by
  have hbefore : ((final recoverySigned recoveryRun).map fun c ↦
      (c.world.db.sessions, c.world.connections.isConnected (word 1))) =
        some ([firstSession], false) := by decide +kernel
  have hafter : ((final recoverySigned (recoveryRun ++ (steps 5 1 ++ reconnectRun ++
      bundleRun))).map fun c ↦ (c.answered 5, c.world.connections.isConnected (word 1))) =
      some (some (.request (.recoveryClaim (recovery 5)),
        ⟨true, .recoveryClaim ⟨true, word 5, ""⟩, ""⟩), true) := by decide +kernel
  have hserved : ((final recoverySigned (recoveryRun ++ (steps 5 1 ++ reconnectRun ++
      bundleRun))).bind fun c ↦ c.answered 7) =
      some (.request (.fetchPrekeyBundle ⟨word 2, word 1, signature, 5⟩),
        ⟨true, .fetchPrekeyBundle ⟨true, some ⟨7, [7], [5], none, []⟩, ""⟩, ""⟩) := by
    decide +kernel
  obtain ⟨c', hrun, hview'⟩ := Option.map_eq_some_iff.mp hafter
  rw [hrun, Option.bind_some] at hserved
  obtain ⟨c, hc, hc'⟩ := Machine.run_append.mp hrun
  obtain ⟨d, hd, hview⟩ := Option.map_eq_some_iff.mp hbefore
  obtain rfl : d = c := Option.some.inj (hd.symm.trans hc)
  obtain ⟨hsessions, hoff⟩ := Prod.mk.inj hview
  obtain ⟨hans, hon⟩ := Prod.mk.inj hview'
  exact ⟨d, c', hc, hc', by simp [hsessions], hoff, hans, hon, hserved⟩

open Sample in
/-- The query of the WebSocket gate finds the session of the first recovery after the second. -/
theorem recovery_effect_reconnect : ∃ c c' : State,
    final recoverySigned recoveryRun = some c ∧
    (system recoverySigned).run c (steps 5 1 ++ reconnectRun) = some c' ∧
    firstSession ∈ c.world.db.sessions ∧
    ∀ now, ((Stmt.selectSession (word 4) (word 1)).exec now c'.world.db).1 = .ok firstSession := by
  have hbefore : ((final recoverySigned recoveryRun).map fun c ↦ c.world.db.sessions) =
      some [firstSession] := by decide +kernel
  have hupdate : ((final recoverySigned (recoveryRun ++ steps 5 1)).map fun c ↦
      ((c.trace.getLast?).bind (okStmt ·.2), c.trace.length)) =
      some (some (.updateIdentity (word 1) (key 5) [1] [5]), 21) := by decide +kernel
  have hafter : ((final recoverySigned (recoveryRun ++ steps 5 1 ++ reconnectRun)).map fun c ↦
      (c.trace.drop 21).map (okStmt ·.2)) =
      some [none, none, some (.insertSession ⟨word 5, word 1, days 30⟩), none,
        some (.selectSession (word 4) (word 1)), none, none] := by
    decide +kernel
  obtain ⟨c', hrun, hstmts⟩ := Option.map_eq_some_iff.mp hafter
  obtain ⟨c₁, hc₁, hrun'⟩ := Machine.run_append.mp hrun
  obtain ⟨c, hc, hstep⟩ := Machine.run_append.mp hc₁
  obtain ⟨d, hd, hsessions⟩ := Option.map_eq_some_iff.mp hbefore
  obtain rfl : d = c := Option.some.inj (hd.symm.trans hc)
  obtain ⟨d₁, hd₁, hview⟩ := Option.map_eq_some_iff.mp hupdate
  obtain rfl : d₁ = c₁ := Option.some.inj (hd₁.symm.trans hc₁)
  obtain ⟨hlast, hlen⟩ := Prod.mk.inj hview
  obtain ⟨d₂, hnext, hd₂⟩ := Machine.run_cons.mp hstep
  obtain rfl := Option.some.inj hd₂
  obtain ⟨n, hclaim⟩ := step_event hnext hlast
  obtain ⟨ext, hext⟩ := Machine.trace_of_run hrun'
  have hfirst : firstSession ∈ d.world.db.sessions := by simp [hsessions]
  have hkept := (recovery_effect hc (Machine.step_of_next hnext) hclaim hrun' hext).1 firstSession
    hfirst rfl
  refine ⟨d, c', hc, Machine.run_append.mpr ⟨_, hstep, hrun'⟩, hfirst, hkept.resolve_left ?_⟩
  rintro ⟨t', s, a, hmem, hs⟩
  have hstmt : some s ∈ (c'.trace.drop 21).map (okStmt ·.2) := by
    rw [hext, ← hlen, List.drop_left]
    exact List.mem_map.mpr ⟨_, hmem, rfl⟩
  rw [hstmts] at hstmt
  rcases hs with rfl | rfl <;> simp at hstmt

end ZenthDht
