import ZenthDht.Spec.Run

/-!
# Where sessions come from

A session row is the only credential the WebSocket gate looks at, so the history behind
every row matters: it was inserted by a LOGIN proof or by a RECOVERY_CLAIM, and in either
case after a verified signature of the user the row names.

The provenance of a row is read off the history.  Challenges, users and sessions may be
deleted and created again between the reads and the writes of one request; what is said is
therefore about what the request itself read.
-/

namespace ZenthDht

open Conc

variable {codec : Codec} {verifyDetached : Bytes → Bytes → Bytes → Bool}
variable {c c' : State} {ms : Moves} {t : Nat}

/-- By the time of `tr`, a LOGIN challenge request for `u` had created the challenge, not more
than 300 seconds before the reading `now` of the clock. -/
def ChallengeIssued (c : State) (tr : History) (u : Bytes) (challenge : AuthChallenge)
    (now : Nat) : Prop :=
  ∃ (t : Nat) (req : LoginRequest) (n : NewAuthChallenge) (createdAt issued : Nat), Runs c t (.request (.login req)) ∧ req.requestChallenge = true ∧
    req.userHashId = u ∧ (t, ⟨.sql (.insertChallenge n), .ok 1⟩) ∈ tr ∧
    challenge = n.row createdAt ∧ challenge.userHashId = u ∧ (t, ⟨.clock, issued⟩) ∈ tr ∧
    (now : Int) ≤ issued + seconds 300

/-- By the time of `tr`, thread `t` was a LOGIN proof that had read the user's row and a
challenge of the user, had verified `nonce || u || timestamp` under the key of that row, and
grants a session for 24 hours. -/
def LoginOrigin (c : State) (tr : History) (t : Nat) (x : Session) : Prop :=
  ∃ (req : LoginRequest) (row : User) (proof : AuthProof) (challenge : AuthChallenge) (now : Nat)
    (before mid : History), Runs c t (.request (.login req)) ∧
    req.requestChallenge = false ∧ req.proof = some proof ∧
    (t, ⟨.sql (.selectUser x.userHashId), .ok row⟩) ∈ tr ∧ row.userHashId = x.userHashId ∧
    tr = before ++
      (t, ⟨.sql (.selectChallenge proof.challengeId x.userHashId), .ok challenge⟩) :: mid ∧
    ChallengeIssued c before x.userHashId challenge now ∧ (t, ⟨.clock, now⟩) ∈ tr ∧
    (t, ⟨.verify row.identityKeyDilithium
      (challenge.nonce ++ x.userHashId ++ le64 proof.timestamp) proof.proof, true⟩) ∈ tr ∧
    x.sessionExpiry = now + hours 24

/-- By the time of `tr`, thread `t` was a RECOVERY_CLAIM that had read a recovery key in the
user's row, had verified `u || new_key || timestamp` under it with a timestamp within 900
seconds of the clock, and grants a session for 30 days. -/
def RecoveryOrigin (c : State) (tr : History) (t : Nat) (x : Session) : Prop :=
  ∃ (req : RecoveryClaimRequest) (row : User) (key : Bytes) (read now : Nat), Runs c t (.request (.recoveryClaim req)) ∧
    req.usernameHash = x.userHashId ∧
    (t, ⟨.sql (.selectUser x.userHashId), .ok row⟩) ∈ tr ∧ row.userHashId = x.userHashId ∧
    row.recoveryDilithiumPubkey = some key ∧ key ≠ [] ∧
    (t, ⟨.clock, read⟩) ∈ tr ∧ absDiff (toSecs read) req.timestamp ≤ 900 ∧
    (t, ⟨.verify key (x.userHashId ++ req.newIdentityDilithiumPubkey ++ le64 req.timestamp)
      req.recoverySignature, true⟩) ∈ tr ∧
    (t, ⟨.clock, now⟩) ∈ tr ∧ x.sessionExpiry = now + days 30

/-- In the history `tr` the row `x` was inserted by a LOGIN proof or a RECOVERY_CLAIM. -/
def SessionOrigin (c : State) (tr : History) (x : Session) : Prop :=
  ∃ before t n after, tr = before ++ (t, ⟨.sql (.insertSession n), .ok 1⟩) :: after ∧
    x.sessionToken = n.sessionToken ∧ x.userHashId = n.userHashId ∧
    x.sessionExpiry = n.sessionExpiry ∧ (LoginOrigin c before t x ∨ RecoveryOrigin c before t x)

/-! ## Reads of a reachable history -/

/-- Every challenge in the table was issued by a LOGIN challenge request. -/
theorem Reachable.challenge_issued (h : Reachable codec verifyDetached c)
    {x : AuthChallenge} (hx : x ∈ c.world.db.authChallenges)
    (hrun : (server codec verifyDetached).run c ms = some c') {now : Nat}
    (hnow : (now : Int) ≤ x.expiresAt) : ChallengeIssued c' c.trace x.userHashId x now := by
  obtain ⟨c₁, m, t, job, s, c₂, ms', h₁, hs, he, hnot, hin, hrun'⟩ :=
    Reachable.origin (P := fun db ↦ x ∈ db.authChallenges)
      (fun hsame ↦ hsame.authChallenges.mem_iff.mpr) (by simp [Db.migrated]) h hx
  rw [he.db] at hin
  obtain hold | ⟨n, rfl, rfl, hok⟩ := mem_authChallenges_exec hin
  · exact absurd hold hnot
  obtain ⟨req, row, issued, rfl, hc, -, hu, -, -, -, hclock, hexp⟩ := h₁.executes he
  obtain ⟨post, htr⟩ := he.history hrun'
  rw [hok] at htr
  refine ⟨t, req, n, c₁.world.clock, issued, (he.runs.run hrun').run hrun, hc, hu.symm, ?_, rfl,
    rfl, ?_, ?_⟩
  · simp [htr]
  · rw [htr]
    exact List.mem_append_left _ (did_past.mp hclock)
  · have : (now : Int) ≤ n.expiresAt := hnow
    rw [hexp] at this
    exact this

/-! ## Provenance -/

/-- What a LOGIN proof has done when it inserts a session. -/
theorem loginOrigin_of_guard (h : Reachable codec verifyDetached c)
    (hrun : (server codec verifyDetached).run c ms = some c')
    {req : LoginRequest} {row : User} {proof : AuthProof} {challenge : AuthChallenge} {now : Nat}
    (hjob : Runs c' t (.request (.login req)))
    (hv : ProofVouched (past t c.trace) req row proof challenge now) {x : Session}
    (hu : x.userHashId = row.userHashId) (hexp : x.sessionExpiry = now + hours 24) :
    LoginOrigin c' c.trace t x := by
  obtain ⟨hread, hverify, -⟩ := hv
  have hrow := did_past.mp hread.userRow
  have hhash : row.userHashId = req.userHashId := h.userHash_of_read hrow
  obtain ⟨before, mid, htr⟩ := List.append_of_mem (did_past.mp hread.challengeRow)
  obtain ⟨c₁, c₂, -, h₁, rfl, -, hsel, m, ms₂, hs, hrun₂⟩ := h.executed htr
  obtain ⟨hmem, -, hcu⟩ := selectChallenge_sound hsel
  have hissued : ChallengeIssued c' c₁.trace x.userHashId challenge now := by
    rw [hu, ← hcu]
    exact h₁.challenge_issued hmem (Machine.run_append.mpr ⟨c, hs.run_cons hrun₂, hrun⟩) hread.unexpired
  refine ⟨req, row, proof, challenge, now, c₁.trace, mid, hjob, hread.isProof.1,
    hread.isProof.2, ?_, hu.symm, ?_, hissued, did_past.mp hread.clock, ?_, hexp⟩
  · rw [hu, hhash]
    exact hrow
  · rw [hu]
    exact htr
  · rw [hu]
    exact did_past.mp hverify

/-- What a RECOVERY_CLAIM has done when it inserts a session. -/
theorem recoveryOrigin_of_guard (h : Reachable codec verifyDetached c)
    {req : RecoveryClaimRequest} {now : Nat} (hjob : Runs c' t (.request (.recoveryClaim req)))
    (hv : (Call.recoveryClaim req).Vouched codec (past t c.trace))
    (hnow : Did (past t c.trace) .clock now) {x : Session} (hu : x.userHashId = req.usernameHash)
    (hexp : x.sessionExpiry = now + days 30) : RecoveryOrigin c' c.trace t x := by
  obtain ⟨key, message, signature, ⟨-, -, ⟨read, hread, hfresh⟩, ⟨row, hrow, hkey, hne⟩, rfl, rfl⟩,
    hverify⟩ := hv
  have hrow := did_past.mp hrow
  refine ⟨req, row, key, read, now, hjob, hu.symm, ?_, ?_, hkey, hne, did_past.mp hread,
    of_decide_eq_true hfresh, ?_, did_past.mp hnow, hexp⟩
  · rw [hu]
    exact hrow
  · rw [hu]
    exact h.userHash_of_read hrow
  · rw [hu]
    exact did_past.mp hverify

/-- Every session row has an origin in the history, as seen from any later state. -/
theorem Reachable.session_origin (h : Reachable codec verifyDetached c) {x : Session}
    (hx : x ∈ c.world.db.sessions) (hrun : (server codec verifyDetached).run c ms = some c') :
    SessionOrigin c' c.trace x := by
  obtain ⟨c₁, m, t, job, s, c₂, ms', h₁, hs, he, hnot, hin, hrun'⟩ :=
    Reachable.origin (P := fun db ↦ x ∈ db.sessions)
      (fun hsame ↦ hsame.sessions.mem_iff.mpr) (by simp [Db.migrated]) h hx
  rw [he.db] at hin
  obtain hold | ⟨n, rfl, rfl, hok⟩ := mem_sessions_exec hin
  · exact absurd hold hnot
  have hjob := (he.runs.run hrun').run hrun
  obtain ⟨post, htr⟩ := he.history hrun'
  rw [hok] at htr
  refine ⟨c₁.trace, t, n, post, htr, rfl, rfl, rfl, ?_⟩
  obtain ⟨req, row, proof, challenge, now, rfl, hv, hu, hexp⟩ | ⟨req, now, rfl, hv, hu, hnow, hexp⟩
    := h₁.executes he
  · left
    have hrun₁ := Machine.run_append.mpr ⟨c, hs.run_cons hrun', hrun⟩
    exact loginOrigin_of_guard h₁ hrun₁ hjob hv hu hexp
  · right
    exact recoveryOrigin_of_guard h₁ hjob hv hnow hu hexp

/-- The WebSocket gate: what a connection has done when it is registered, and the origin of the
session it presented. -/
def GateOpened (c : State) (before : History) (t : Nat) (u : Bytes) : Prop :=
  ∃ token session now, past t before = [⟨.receive, some (.binary (u ++ token))⟩,
      ⟨.sql (.selectSession token u), .ok session⟩, ⟨.clock, now⟩] ∧
    u.length = 32 ∧ session.sessionToken = token ∧ session.userHashId = u ∧
    (now : Int) < session.sessionExpiry ∧ SessionOrigin c before session

theorem Reachable.gate_opened (h : Reachable codec verifyDetached c) {before after : History}
    {u : Bytes} {rx : Receiver} (htr : c.trace = before ++ (t, ⟨.register u, rx⟩) :: after) :
    GateOpened c before t u := by
  obtain ⟨c₁, ω, job, k, w, h₁, rfl, ht, hp, ms, -, hrun₁⟩ := h.moment htr
  obtain ⟨-, token, session, now, hpast, hlen, -, hnow⟩ := h₁.guard ht
  have hsel : (t, ⟨.sql (.selectSession token u), .ok session⟩) ∈ c₁.trace := by
    rw [← mem_past, hpast]
    simp
  obtain ⟨pre, post, htr₁⟩ := List.append_of_mem hsel
  obtain ⟨c₀, c₀', -, h₀, rfl, -, hread, m, ms₀, hs, hrun₀⟩ := h₁.executed htr₁
  obtain ⟨hmem, htoken, hu⟩ := selectSession_sound hread
  obtain ⟨before, t', n, after', htr₀, hrest⟩ :=
    h₀.session_origin hmem (Machine.run_append.mpr ⟨c₁, hs.run_cons hrun₀, hrun₁⟩)
  refine ⟨token, session, now, hpast, hlen, htoken, hu, hnow, before, t', n, ?_, ?_, hrest⟩
  · exact after' ++ (t, ⟨.sql (.selectSession token u), .ok session⟩) :: post
  · rw [htr₁, htr₀, List.append_assoc, List.cons_append]

/-- **Session provenance.**  In every run from an empty database: every row of `sessions` was
inserted by a LOGIN proof or a RECOVERY_CLAIM that had verified its user's signature; a
connection is registered for `u` only when its first frame was `u` followed by the token of such
a row that had not expired; and a row that a move adds or alters is inserted by one of these two
methods. -/
theorem session_provenance {clock instant : Nat}
    (h : (server codec verifyDetached).run (.start (.initial clock instant)) ms = some c) :
    (∀ x ∈ c.world.db.sessions, SessionOrigin c c.trace x) ∧
    (∀ before t u rx after, c.trace = before ++ (t, ⟨.register u, rx⟩) :: after →
      GateOpened c before t u) ∧
    (∀ m c', (server codec verifyDetached).Step c m c' →
      ∀ x ∈ c'.world.db.sessions, x ∉ c.world.db.sessions →
        ∃ t job n, Executes c t job (.insertSession n) c' ∧ x = n.row c.world.clock ∧
          ((∃ req, job = .request (.login req)) ∨ ∃ req, job = .request (.recoveryClaim req))) := by
  have hc : Reachable codec verifyDetached c := ⟨clock, instant, ms, h⟩
  refine ⟨fun x hx ↦ hc.session_origin hx Machine.run_nil, fun before t u rx after htr ↦
    hc.gate_opened htr, fun m c' hs x hx hnew ↦ ?_⟩
  rcases Step.db hs with hsame | ⟨t, job, s, he⟩
  · exact absurd (hsame.sessions.mem_iff.mpr hx) hnew
  rw [he.db] at hx
  obtain hold | ⟨n, rfl, rfl, -⟩ := mem_sessions_exec hx
  · exact absurd hold hnew
  refine ⟨t, job, n, he, rfl, ?_⟩
  obtain ⟨req, _, _, _, _, hjob, -⟩ | ⟨req, _, hjob, -⟩ := hc.executes he
  · exact .inl ⟨req, hjob⟩
  · exact .inr ⟨req, hjob⟩

/-- User 1 registers, asks for a challenge, answers it and opens a connection. -/
def Sample.loginRun : Moves :=
  registers 0 1 ++
  .spawn (.request (.login ⟨"0.1.2", word 1, true, none⟩)) :: steps 1 2 ++
  .step 1 (random 7) :: .step 1 (random 8) :: steps 1 4 ++
  .spawn (.request (.login ⟨"0.1.2", word 1, false, some ⟨word 7, signature, 5⟩⟩)) ::
    steps 2 6 ++ .step 2 (random 9) :: steps 2 2 ++
  [.spawn (.websocket 1), .step 3 (.frame (some (.binary (word 1 ++ word 9))))] ++ steps 3 3

open Sample in
theorem session_provenance_loginRun :
    ∃ c, final [(key 1, word 8 ++ word 1 ++ le64 5)] loginRun = some c ∧
      c.world.db.sessions.length = 1 ∧ (∀ x ∈ c.world.db.sessions, SessionOrigin c c.trace x) ∧
      ∃ before, GateOpened c before 3 (word 1) := by
  have hrun : ((final [(key 1, word 8 ++ word 1 ++ le64 5)] loginRun).map fun c ↦
      (c.world.db.sessions.length, c.trace.any fun e ↦ e.1 = 3 && e.2.1 = .register (word 1))) =
      some (1, true) := by decide +kernel
  obtain ⟨c, hc, hfacts⟩ := Option.map_eq_some_iff.mp hrun
  obtain ⟨hlen, hreg⟩ := Prod.mk.inj hfacts
  obtain ⟨⟨t, o, rx⟩, hmem, he⟩ := List.any_eq_true.mp hreg
  simp only [Bool.and_eq_true, decide_eq_true_eq] at he
  obtain ⟨rfl, rfl⟩ := he
  obtain ⟨before, after, htr⟩ := List.append_of_mem hmem
  obtain ⟨hall, hgate, -⟩ := session_provenance hc
  exact ⟨c, hc, hlen, hall, before, hgate before 3 (word 1) rx after htr⟩

end ZenthDht
