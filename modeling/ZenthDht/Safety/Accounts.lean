import ZenthDht.Safety.Durability

/-!
# Key continuity of an account

From the REGISTER that creates the row of a user to the DELETE that removes it, the identity
key and the recovery key authorise each other's changes: a new identity is signed by the
recovery key, a new recovery key by the identity key, and the deletion by the identity key.
Nothing else changes in the row.
-/

namespace ZenthDht

open Conc

variable {codec : Codec} {verifyDetached : Bytes → Bytes → Bytes → Bool}
variable {c c' c'' : State} {ms ms' : Moves} {m : Move Job Oracle Act}

/-- The move from `c` to `c'` is a RECOVERY_CLAIM that gives the account of `x` a new identity. -/
def IdentityReplaced (c c' : State) (x : User) : Prop :=
  ∃ t req, Executes c t (.request (.recoveryClaim req)) (.updateIdentity x.userHashId
      req.newIdentityDilithiumPubkey req.newIdentitySignature req.newPreKeyBundle) c' ∧
    x.withIdentity req.newIdentityDilithiumPubkey req.newIdentitySignature req.newPreKeyBundle ∈
      c'.world.db.users ∧
    FreshFor c.trace t req.timestamp ∧ SignedForRecovery c.trace t x.userHashId
      (x.userHashId ++ req.newIdentityDilithiumPubkey ++ le64 req.timestamp)

/-- The move from `c` to `c'` is a PUBLISH_RECOVERY_KEY that gives the account of `x` a new
recovery key. -/
def RecoveryKeyReplaced (c c' : State) (x : User) : Prop :=
  ∃ t req, Executes c t (.request (.publishRecoveryKey req))
      (.updateRecoveryKey x.userHashId req.recoveryDilithiumPubkey) c' ∧
    x.withRecoveryKey req.recoveryDilithiumPubkey ∈ c'.world.db.users ∧
    FreshFor c.trace t req.timestamp ∧ SignedByUser c.trace t x.userHashId
      (x.userHashId ++ req.recoveryDilithiumPubkey ++ le64 req.timestamp)

/-- The move from `c` to `c'` is a DELETE that removes the account of `u`. -/
def AccountDeleted (c c' : State) (u : Bytes) : Prop :=
  ∃ t req, Executes c t (.request (.delete req)) (.deleteUser u) c' ∧
    (∀ y ∈ c'.world.db.users, y.userHashId ≠ u) ∧
    SignedByUser c.trace t u (u ++ le64 req.timestamp)

/-- What one move can do to the row of an account. -/
theorem Step.account (h : Reachable codec verifyDetached c)
    (hs : (server codec verifyDetached).Step c m c') {x : User} (hx : x ∈ c.world.db.users) :
    x ∈ c'.world.db.users ∨ IdentityReplaced c c' x ∨ RecoveryKeyReplaced c c' x ∨
      AccountDeleted c c' x.userHashId := by
  rcases Step.db hs with hsame | ⟨t, job, s, he⟩
  · exact .inl (hsame.users.mem_iff.mp hx)
  have hguard := h.executes he
  rcases users_exec c.world.clock s hx with
    hin | ⟨k, rfl, hin⟩ | ⟨k, g, b, rfl, hin⟩ | ⟨rfl, hgone⟩
  · rw [he.db]
    exact .inl hin
  · obtain ⟨req, rfl, hu, rfl, key, message, signature, ⟨-, -, hfresh, hk, rfl, rfl⟩, hv⟩ := hguard
    refine .inr (.inr (.inl ⟨t, req, he, by rw [he.db]; exact hin, hfresh.freshFor, ?_⟩))
    rw [hu]
    exact h.signedByUser hk hv
  · obtain ⟨req, rfl, hu, rfl, rfl, rfl, key, message, signature, ⟨-, -, hfresh, hk, rfl, rfl⟩, hv⟩
      := hguard
    refine .inr (.inl ⟨t, req, he, by rw [he.db]; exact hin, hfresh.freshFor, ?_⟩)
    rw [hu]
    exact h.signedForRecovery hk hv
  · obtain ⟨req, rfl, hu, key, message, signature, ⟨-, -, hk, rfl, rfl⟩, hv⟩ := hguard
    refine .inr (.inr (.inr ⟨t, req, he, by rw [he.db]; exact hgone, ?_⟩))
    rw [hu]
    exact h.signedByUser hk hv

/-- Over a whole run an account keeps its password commitment and proof type, unless a DELETE
its holder signed was executed. -/
theorem account_persists (h : Reachable codec verifyDetached c)
    (hrun : (server codec verifyDetached).run c ms = some c') {x : User}
    (hx : x ∈ c.world.db.users) :
    (∃ y ∈ c'.world.db.users, y.userHashId = x.userHashId ∧
      y.passwordCommitment = x.passwordCommitment ∧ y.proofType = x.proofType) ∨
    ∃ before t req, Since c c' before t (.deleteUser x.userHashId) ∧
      Runs c' t (.request (.delete req)) ∧
      SignedByUser before t x.userHashId (x.userHashId ++ le64 req.timestamp) := by
  by_contra hnone
  obtain ⟨hgone, hdel⟩ := not_or.mp hnone
  obtain ⟨ms₁, m, ms₂, c₁, c₂, -, h₁, ⟨y, hy, hu, hp, ht⟩, hs, hlost, h₂⟩ :=
    Machine.run_crossing (fun d ↦ ∃ y ∈ d.world.db.users, y.userHashId = x.userHashId ∧
      y.passwordCommitment = x.passwordCommitment ∧ y.proofType = x.proofType) hrun
      ⟨x, hx, rfl, rfl, rfl⟩ hgone
  rcases Step.account (h.run h₁) hs hy with hin | ⟨t, req, he, hin, -⟩ | ⟨t, req, he, hin, -⟩ |
    ⟨t, req, he, -, hsig⟩
  · exact hlost ⟨y, hin, hu, hp, ht⟩
  · exact hlost ⟨_, hin, hu, hp, ht⟩
  · exact hlost ⟨_, hin, hu, hp, ht⟩
  · rw [hu] at he hsig
    exact hdel ⟨c₁.trace, t, req, he.since h₁ h₂, he.runs.run h₂, hsig⟩

/-! ## A second REGISTER -/

/-- An INSERT for a user who has a row changes nothing. -/
theorem insertUser_exists (now : NaiveDateTime) {db : Db} {n : NewUser}
    (h : db.hasUser n.userHashId = true) :
    (Stmt.insertUser n).exec now db = (.error (.uniqueViolation "users_pkey"), db) := by
  simp only [Stmt.exec, h, if_true]

/-- A REGISTER about to insert its row while there is one already leaves the database as it
is, and it never reports success. -/
theorem second_register (h : Reachable codec verifyDetached c) {t : Nat}
    {req : RegistrationRequest} {k : _ → Handler (Option Reply)}
    (ht : c.pool[t]? = some ⟨.request (.register req), .perform (.sql (.insertUser req.newUser)) k⟩)
    (hu : c.world.db.hasUser req.usernameHash = true) {ω : Oracle}
    (hnext : (server codec verifyDetached).next c (.step t ω) = some c') :
    c'.world.db = c.world.db ∧ ∀ ms c'' reply,
      (server codec verifyDetached).run c' ms = some c'' →
      c''.pool[t]? = some ⟨.request (.register req), .ret (some reply)⟩ →
      reply.success = false := by
  have hs := Machine.step_of_next hnext
  have hc' : Reachable codec verifyDetached c' := h.run (hs.run_cons Machine.run_nil)
  obtain ⟨hpast, -⟩ := h.guard ht
  -- whatever the reason, the statement fails
  have hfail : ∃ e, c'.trace = c.trace ++ [(t, ⟨.sql (.insertUser req.newUser), .error e⟩)] ∧
      c'.world.db = c.world.db := by
    cases hs with
    | @step t ω j o k' r w ht' hp =>
        rw [ht] at ht'
        obtain ⟨⟩ := Option.some.inj ht'
        rcases perform_sql hp with ⟨rfl, e, rfl⟩ | ⟨rfl, rfl⟩
        · exact ⟨_, rfl, rfl⟩
        · have hexec := insertUser_exists c.world.clock (n := req.newUser) hu
          exact ⟨.uniqueViolation "users_pkey", by simp only [hexec], by simp only [hexec]⟩
  obtain ⟨e, htr, hdb⟩ := hfail
  refine ⟨hdb, fun ms c'' reply hrun hret ↦ ?_⟩
  by_contra hne
  have hc'' := hc'.run hrun
  obtain ⟨n, hdid⟩ := hc''.answer hret reply rfl (by simpa using hne)
  obtain ⟨pre, post, hpre⟩ := List.append_of_mem (did_past.mp hdid)
  obtain ⟨c₁, ω', job, k', w, h₁, rfl, ht₁, -, -⟩ := hc''.moment hpre
  obtain ⟨hpast₁, -⟩ := h₁.guard ht₁
  obtain ⟨ext, hext⟩ := Machine.trace_of_run hrun
  -- both INSERTs are the first event of the thread
  have hfirst : past t c''.trace = ⟨.sql (.insertUser req.newUser), .ok n⟩ :: past t post := by
    rw [hpre, past_append, hpast₁, past_cons_self, List.nil_append]
  have hfirst' : past t c''.trace =
      ⟨.sql (.insertUser req.newUser), .error e⟩ :: past t ext := by
    rw [hext, htr, past_append, past_append, hpast, past_singleton_self]
    rfl
  rw [hfirst] at hfirst'
  exact nomatch (List.cons.inj hfirst').1

/-- **Key continuity.**  In every run: the rows of `users` have distinct hashes; what a move does
to a row is a change of identity signed by the recovery key, a change of the recovery key signed
by the identity key, or the deletion signed by the identity key, each key read from the row of
that user by the same request; password commitment and proof type stay as long as the account
is not deleted; and a second REGISTER changes nothing and fails. -/
theorem account_continuity {clock instant : Nat}
    (h : (server codec verifyDetached).run (.start (.initial clock instant)) ms = some c) :
    (c.world.db.users.map User.userHashId).Nodup ∧
    (∀ m c', (server codec verifyDetached).Step c m c' → ∀ x ∈ c.world.db.users,
      x ∈ c'.world.db.users ∨ IdentityReplaced c c' x ∨ RecoveryKeyReplaced c c' x ∨
        AccountDeleted c c' x.userHashId) ∧
    (∀ ms' c', (server codec verifyDetached).run c ms' = some c' → ∀ x ∈ c.world.db.users,
      (∃ y ∈ c'.world.db.users, y.userHashId = x.userHashId ∧
        y.passwordCommitment = x.passwordCommitment ∧ y.proofType = x.proofType) ∨
      ∃ before t req, Since c c' before t (.deleteUser x.userHashId) ∧
        Runs c' t (.request (.delete req)) ∧
        SignedByUser before t x.userHashId (x.userHashId ++ le64 req.timestamp)) ∧
    (∀ t req k ω c',
      c.pool[t]? = some ⟨.request (.register req), .perform (.sql (.insertUser req.newUser)) k⟩ →
      c.world.db.hasUser req.usernameHash = true →
      (server codec verifyDetached).next c (.step t ω) = some c' →
      c'.world.db = c.world.db ∧ ∀ ms' c'' reply,
        (server codec verifyDetached).run c' ms' = some c'' →
        c''.pool[t]? = some ⟨.request (.register req), .ret (some reply)⟩ →
        reply.success = false) := by
  have hc : Reachable codec verifyDetached c := ⟨clock, instant, ms, h⟩
  refine ⟨hc.keyed.users, fun m c' hs x hx ↦ Step.account hc hs hx, fun ms' c' hrun x hx ↦
    account_persists hc hrun hx, fun t req k ω c' ht hu hnext ↦ second_register hc ht hu hnext⟩

namespace Sample

/-- The message user 1 signs to publish the recovery key 3. -/
def publishSigned : List (Bytes × Bytes) := [(key 1, word 1 ++ key 3 ++ le64 0)]

/-- User 1 registers and publishes the recovery key 3, up to the UPDATE. -/
def publishRun : Moves :=
  registers 0 1 ++
  .spawn (.request (.publishRecoveryKey ⟨word 1, key 3, signature, 0⟩)) :: steps 1 3

end Sample

open Sample in
theorem account_continuity_publishRun :
    ∃ c c' x, final publishSigned publishRun = some c ∧
      (system publishSigned).next c (.step 1 .none) = some c' ∧
      x ∈ c.world.db.users ∧ x ∉ c'.world.db.users ∧
      (IdentityReplaced c c' x ∨ RecoveryKeyReplaced c c' x ∨
        AccountDeleted c c' x.userHashId) := by
  have hrun : ((final publishSigned publishRun).map fun c ↦
      (c.world.db.users.map User.recoveryDilithiumPubkey,
        ((system publishSigned).next c (.step 1 .none)).map fun c' ↦
          c'.world.db.users.map User.recoveryDilithiumPubkey)) =
      some ([none], some [some (key 3)]) := by decide +kernel
  obtain ⟨c, hc, hfacts⟩ := Option.map_eq_some_iff.mp hrun
  obtain ⟨hbefore, hnext⟩ := Prod.mk.inj hfacts
  obtain ⟨c', hc', hafter⟩ := Option.map_eq_some_iff.mp hnext
  obtain ⟨x, hx, hnone⟩ : ∃ x ∈ c.world.db.users, x.recoveryDilithiumPubkey = none := by
    apply List.mem_map.mp
    simp [hbefore]
  have hgone : x ∉ c'.world.db.users := by
    intro hx'
    have := List.mem_map_of_mem (f := User.recoveryDilithiumPubkey) hx'
    simp [hafter, hnone] at this
  have hmove := (account_continuity hc).2.1 _ c' (Machine.step_of_next hc') x hx
  exact ⟨c, c', x, hc, hc', hx, hgone, hmove.resolve_left hgone⟩

end ZenthDht
