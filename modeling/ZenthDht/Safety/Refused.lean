import ZenthDht.Spec.Alone

/-!
# Requests without a valid signature

Before a request has verified a signature, it executes only statements that read.  The exceptions
are REGISTER, which needs no signature, and LOGIN: a request for a challenge replaces the
challenges of the user, and a proof for a challenge that has expired removes it
(`Reachable.refused`).
-/

namespace ZenthDht

open Conc Stmt

variable {codec : Codec} {verifyDetached : Bytes → Bytes → Bytes → Bool}
variable {c c' d d' : State} {t : Nat} {call : Call} {s : Stmt} {past' : Past}
variable {now : NaiveDateTime} {db : Db} {m : Move Job Oracle Act}

/-! ## Statements -/

/-- The statement changes nothing. -/
def Stmt.Reads (s : Stmt) : Prop := ∀ now db, (s.exec now db).2 = db

/-- No signature has been verified. -/
def Unverified (past' : Past) : Prop :=
  ∀ key message signature, ¬ Did past' (.verify key message signature) true

theorem Call.Vouched.verified (h : call.Vouched codec past') : ¬ Unverified past' := by
  intro hno
  obtain ⟨key, message, signature, -, hv⟩ := h
  exact hno key message signature hv

/-- What a request may execute without a verified signature. -/
theorem Stmt.Guard.unverified (hg : s.Guard codec (.request call) past')
    (hno : Unverified past') :
    s.Reads ∨ (∃ req, call = .register req) ∨
    (∃ req, call = .login req ∧ req.requestChallenge = true ∧
      (s = .deleteChallengesOf req.userHashId ∨
        ∃ n, s = .insertChallenge n ∧ n.userHashId = req.userHashId)) ∨
    ∃ req i, call = .login req ∧ s = .deleteChallenge i := by
  cases s with
  | insertUser n =>
      obtain ⟨-, req, hjob, -⟩ := hg
      exact .inr (.inl ⟨req, Job.request.inj hjob⟩)
  | insertChallenge n =>
      obtain ⟨req, row, now, hjob, hc, -, hu, -⟩ := hg
      exact .inr (.inr (.inl ⟨req, Job.request.inj hjob, hc, .inr ⟨n, rfl, hu⟩⟩))
  | deleteChallenge i =>
      obtain ⟨req, row, proof, challenge, hjob, -⟩ := hg
      exact .inr (.inr (.inr ⟨req, i, Job.request.inj hjob, rfl⟩))
  | deleteChallengesOf u =>
      rcases hg with ⟨req, hjob, hc, rfl⟩ | ⟨req, -, -, hv⟩
      · exact .inr (.inr (.inl ⟨req, Job.request.inj hjob, hc, .inl rfl⟩))
      · exact absurd hno hv.verified
  | insertSession n =>
      rcases hg with ⟨req, row, proof, challenge, now, -, ⟨-, hv, -⟩, -⟩ | ⟨req, now, -, hv, -⟩
      · exact absurd hv (hno _ _ _)
      · exact absurd hno hv.verified
  | updateRecoveryKey u k =>
      obtain ⟨req, -, -, -, hv⟩ := hg
      exact absurd hno hv.verified
  | updateIdentity u k g b =>
      obtain ⟨req, -, -, -, -, -, hv⟩ := hg
      exact absurd hno hv.verified
  | deleteUser u | deleteSessionsOf u | deleteMessagesOf u | deleteFriendRequestsOf u
  | insertFriendRequest n | deleteFriendResponses ids | deleteBlob b =>
      obtain ⟨req, -, -, hv⟩ := hg
      exact absurd hno hv.verified
  | updateFriendRequest r u b g m ts =>
      obtain ⟨req, -, -, -, -, -, -, -, hv⟩ := hg
      exact absurd hno hv.verified
  | insertFriendResponse n =>
      obtain ⟨req, fr, -, -, -, hv⟩ := hg
      exact absurd hno hv.verified
  | updateFriendResponses i a b g =>
      obtain ⟨req, fr, -, -, -, -, -, -, hv⟩ := hg
      exact absurd hno hv.verified
  | insertPrekeys ps =>
      rcases hg with ⟨req, -, -, hv⟩ | ⟨req, -, -, hv⟩
      · exact absurd hno hv.verified
      · exact absurd hno hv.verified
  | markPrekeyUsed i =>
      obtain ⟨req, prekeyId, publicKey, -, -, hv⟩ := hg
      exact absurd hno hv.verified
  | insertMessage n =>
      obtain ⟨env, now, row, -, -, -, -, -, -, -, -, -, -, hv⟩ := hg
      exact absurd hno hv.verified
  | deleteMessage i r | deleteRelayUpTo i r =>
      obtain ⟨req, -, -, -, hv⟩ := hg
      exact absurd hno hv.verified
  | insertRelay n | upsertBlob n =>
      obtain ⟨req, now, -, -, -, hv⟩ := hg
      exact absurd hno hv.verified
  | purgeMessages n | purgeRelay n | purgeBlobs n =>
      obtain ⟨tick, now, hjob, -⟩ := hg
      exact nomatch hjob
  | loadFriendResponses r since => exact .inl fun _ _ ↦ loadFriendResponses_rows r since
  | loadAccepted r since => exact .inl fun _ _ ↦ loadAccepted_rows r since
  | _ => exact .inl fun _ _ ↦ rfl

/-! ## Challenges -/

theorem nodup_challenges_exec (h : (db.authChallenges.map AuthChallenge.challengeId).Nodup) :
    ((s.exec now db).2.authChallenges.map AuthChallenge.challengeId).Nodup := by
  cases s with
  | insertChallenge n =>
      simp only [exec]
      split
      · exact h
      next hnew =>
      split
      · exact h
      rw [List.map_append, List.nodup_append]
      refine ⟨h, by simp, fun a ha b hb hab ↦ hnew ?_⟩
      obtain ⟨x, hx, rfl⟩ := List.mem_map.mp ha
      obtain rfl := List.mem_singleton.mp hb
      simp only [List.any_eq_true, decide_eq_true_eq]
      exact ⟨x, hx, hab⟩
  | deleteChallenge i => exact h.sublist (List.filter_sublist.map _)
  | deleteChallengesOf u => exact h.sublist (List.filter_sublist.map _)
  | deleteUser u =>
      simp only [exec]
      split
      · exact h.sublist (List.filter_sublist.map _)
      · exact h
  | _ =>
      simp only [exec]
      repeat' split
      all_goals exact h

theorem Reachable.nodup_challenges (h : Reachable codec verifyDetached c) :
    (c.world.db.authChallenges.map AuthChallenge.challengeId).Nodup := by
  refine h.induction (I := fun d ↦ (d.world.db.authChallenges.map
    AuthChallenge.challengeId).Nodup) (fun _ _ ↦ List.nodup_nil) ?_
  intro d m d' _ hd hs
  rcases Step.db hs with hsame | ⟨t, job, s, he⟩
  · exact (hsame.authChallenges.map _).nodup_iff.mp hd
  · rw [he.db]
    exact nodup_challenges_exec hd

/-- Among the challenges it has read, the one of id `i` had expired at a reading of the clock. -/
def FoundExpired (past' : Past) (i : Bytes) : Prop :=
  ∃ u y, Did past' (.sql (.selectChallenge i u)) (.ok y) ∧
    ∃ now : Nat, Did past' .clock now ∧ y.expiresAt < now

/-- A LOGIN proof deletes a challenge when it has verified a signature or found it expired. -/
def ExpiryOrder (job : Job) (past' : Past) (o : Op) : Prop :=
  ∀ req i, job = .request (.login req) → o = .sql (.deleteChallenge i) →
    req.requestChallenge = false ∧ (¬ Unverified past' ∨ FoundExpired past' i)

theorem login_expiryOrder (req : LoginRequest) :
    (login req).Obeys (ExpiryOrder (.request (.login req))) (fun _ _ ↦ True) [] := by
  have hfree {past' : Past} {o : Op} (ho : ∀ i, o ≠ .sql (.deleteChallenge i)) :
      ExpiryOrder (.request (.login req)) past' o := fun _ i _ h ↦ absurd h (ho i)
  unfold login getRequiredVersion
  refine ⟨hfree (by simp), fun version ↦ ?_⟩
  dsimp only [Program.bind, Program.pure_eq]
  split
  · trivial
  iterate 2
    split
    · trivial
  refine obeys_sql (hfree (by simp)) (fun e ↦ by cases e <;> trivial) fun row ↦ ?_
  dsimp only
  split
  · unfold handleChallengeRequest
    refine obeys_call (hfree (by simp)) fun _ ↦ obeys_call (hfree (by simp)) fun _ ↦ ?_
    refine obeys_utcNow (hfree (by simp)) fun _ ↦ obeys_call (hfree (by simp)) fun _ ↦ ?_
    exact obeys_sql (hfree (by simp)) (fun e ↦ trivial)
      fun n ↦ obeys_currentTimestamp (hfree (by simp)) fun t ↦ trivial
  next hc =>
  have hproof {req' : LoginRequest} (h : Job.request (.login req) = .request (.login req')) :
      req'.requestChallenge = false := by
    obtain rfl := Call.login.inj (Job.request.inj h)
    simpa using hc
  split
  next proof _ =>
    unfold handleProofVerification
    refine obeys_sql (hfree (by simp)) (fun e ↦ by cases e <;> trivial) fun challenge ↦ ?_
    refine obeys_utcNow (hfree (by simp)) fun now ↦ ?_
    split
    next hexp =>
      refine obeys_call (fun req' i hjob hi ↦ ⟨hproof hjob, .inr ?_⟩) fun _ ↦ trivial
      obtain rfl := Stmt.deleteChallenge.inj (Op.sql.inj hi)
      exact ⟨row.userHashId, challenge, by simp [Did], now, by simp [Did], hexp⟩
    refine obeys_call (o := .verify _ _ _) (hfree (by simp)) fun valid ↦ ?_
    cases valid with
    | false => trivial
    | true =>
    refine obeys_call (fun req' i hjob hi ↦ ⟨hproof hjob, .inl fun hno ↦ ?_⟩) fun _ ↦ ?_
    · exact hno row.identityKeyDilithium (proof.messageToVerify challenge.nonce row.userHashId)
        proof.proof (by simp [Did])
    refine obeys_call (hfree (by simp)) fun _ ↦ obeys_utcNow (hfree (by simp)) fun _ ↦ ?_
    exact obeys_sql (hfree (by simp)) (fun e ↦ trivial) fun _ ↦ trivial
  · trivial

theorem code_expiryOrder (codec : Codec) (job : Job) :
    (code codec job).Obeys (ExpiryOrder job) (fun _ _ ↦ True) [] := by
  by_cases hlogin : ∃ req, job = .request (.login req)
  · obtain ⟨req, rfl⟩ := hlogin
    have hcall : (processCall codec (.login req)).Obeys (ExpiryOrder (.request (.login req)))
        (fun _ _ ↦ True) [] := (login_expiryOrder req).bind fun _ _ _ ↦ trivial
    exact hcall.bind fun _ _ _ ↦ trivial
  · refine Program.obeys_of_forall _ (fun _ _ req _ hjob ↦ ?_) fun _ _ ↦ trivial
    exact absurd ⟨req, hjob⟩ hlogin

/-! ## The effect of a request -/

/-- What a request has done from `c` to `c'` if no signature of it has been verified. -/
def Call.Unauthenticated (c c' : State) (t : Nat) : Call → Prop
  | .register _ => True
  | .login req =>
    c'.world.db.Same { c.world.db with authChallenges := c'.world.db.authChallenges } ∧
    (∀ x ∈ c'.world.db.authChallenges, x ∈ c.world.db.authChallenges ∨
      req.requestChallenge = true ∧ x.userHashId = req.userHashId) ∧
    ∀ x ∈ c.world.db.authChallenges, x ∈ c'.world.db.authChallenges ∨
      req.requestChallenge = true ∧ x.userHashId = req.userHashId ∨
      ∃ now : Nat, (t, ⟨.clock, now⟩) ∈ c'.trace ∧ x.expiresAt < now
  | _ => c'.world.db.Same c.world.db

theorem Call.Unauthenticated.refl (c : State) (t : Nat) (call : Call) :
    call.Unauthenticated c c t := by
  cases call with
  | register req => trivial
  | login req => exact ⟨.rfl, fun x hx ↦ .inl hx, fun x hx ↦ .inl hx⟩
  | _ => exact Db.Same.rfl

theorem Call.Unauthenticated.same (h : call.Unauthenticated c d t)
    (hs : d.world.db.Same d'.world.db) (hsub : ∀ e ∈ d.trace, e ∈ d'.trace) :
    call.Unauthenticated c d' t := by
  cases call with
  | register req => trivial
  | login req =>
      obtain ⟨hdb, hnew, hold⟩ := h
      refine ⟨?_, fun x hx ↦ ?_, fun x hx ↦ ?_⟩
      · exact hs.symm.trans (hdb.trans { Db.Same.rfl with authChallenges := hs.authChallenges })
      · exact hnew x (hs.authChallenges.mem_iff.mpr hx)
      · rcases hold x hx with hx | hx | ⟨now, hnow, hexp⟩
        · exact .inl (hs.authChallenges.mem_iff.mp hx)
        · exact .inr (.inl hx)
        · exact .inr (.inr ⟨now, hsub _ hnow, hexp⟩)
  | _ => exact hs.symm.trans h

/-- The statements on challenges change no other table. -/
theorem challenges_only (now : NaiveDateTime) (db : Db) {s : Stmt}
    (hs : (∃ u, s = .deleteChallengesOf u) ∨ (∃ n, s = .insertChallenge n) ∨
      ∃ i, s = .deleteChallenge i) :
    (s.exec now db).2 = { db with authChallenges := (s.exec now db).2.authChallenges } := by
  rcases hs with ⟨u, rfl⟩ | ⟨n, rfl⟩ | ⟨i, rfl⟩
  · rfl
  · simp only [exec]
    repeat' split
    all_goals rfl
  · rfl

/-- A challenge leaves the table with its id or with its user. -/
theorem authChallenges_exec {x : AuthChallenge} (hx : x ∈ db.authChallenges)
    (hs : s = .deleteChallengesOf x.userHashId → False)
    (hs' : s = .deleteChallenge x.challengeId → False) (hs'' : s = .deleteUser x.userHashId → False) :
    x ∈ (s.exec now db).2.authChallenges := by
  cases s with
  | insertChallenge n =>
      simp only [exec]
      repeat' split
      · exact hx
      · exact hx
      · exact List.mem_append_left _ hx
  | deleteChallenge i =>
      refine List.mem_filter.mpr ⟨hx, ?_⟩
      simpa using fun h ↦ hs' (by rw [h])
  | deleteChallengesOf u =>
      refine List.mem_filter.mpr ⟨hx, ?_⟩
      simpa using fun h ↦ hs (by rw [h])
  | deleteUser u =>
      simp only [exec]
      split
      · refine List.mem_filter.mpr ⟨hx, ?_⟩
        simpa using fun h ↦ hs'' (by rw [h])
      · exact hx
  | _ =>
      simp only [exec]
      repeat' split
      all_goals exact hx

/-- The challenges a proof has read were there before the request. -/
def ReadBefore (c d : State) (t : Nat) (call : Call) : Prop :=
  ∀ req i u y, call = .login req → req.requestChallenge = false →
    (t, ⟨.sql (.selectChallenge i u), .ok y⟩) ∈ d.trace → y ∈ c.world.db.authChallenges

/-- One statement of a request without a verified signature. -/
theorem Executes.unauthenticated (hc : Reachable codec verifyDetached c)
    (hd : Reachable codec verifyDetached d) (he : Executes d t (.request call) s d')
    (hno : Unverified (past t d.trace)) (hI : call.Unauthenticated c d t)
    (hread : ReadBefore c d t call) : call.Unauthenticated c d' t := by
  have hsub := he.subset
  rcases (hd.executes he).unverified hno with hr | ⟨req, rfl⟩ | ⟨req, rfl, hchallenge, hs⟩ |
    ⟨req, i, rfl, rfl⟩
  · refine hI.same ?_ hsub
    rw [he.db, hr]
    exact .rfl
  · trivial
  · -- a request for a challenge: the rows of its user
    obtain ⟨hdb, hnew, hold⟩ := hI
    have honly := challenges_only d.world.clock d.world.db (s := s) (by
      rcases hs with rfl | ⟨n, rfl, -⟩
      · exact .inl ⟨_, rfl⟩
      · exact .inr (.inl ⟨n, rfl⟩))
    refine ⟨?_, fun x hx ↦ ?_, fun x hx ↦ ?_⟩
    · rw [he.db, honly]
      exact { hdb with authChallenges := .rfl }
    · rw [he.db] at hx
      rcases mem_authChallenges_exec hx with hx | ⟨n, rfl, rfl, -⟩
      · exact hnew x hx
      · rcases hs with hs | ⟨n', hs, hu⟩
        · exact nomatch hs
        · obtain rfl := Stmt.insertChallenge.inj hs
          exact .inr ⟨hchallenge, hu⟩
    · by_cases hu : x.userHashId = req.userHashId
      · exact .inr (.inl ⟨hchallenge, hu⟩)
      rcases hold x hx with hx | hx | ⟨now, hnow, hexp⟩
      · left
        rw [he.db]
        refine authChallenges_exec hx (fun h ↦ ?_) (fun h ↦ ?_) (fun h ↦ ?_)
        all_goals rcases hs with rfl | ⟨n, rfl, -⟩
        · exact hu (Stmt.deleteChallengesOf.inj h).symm
        all_goals exact nomatch h
      · exact .inr (.inl hx)
      · exact .inr (.inr ⟨now, hsub _ hnow, hexp⟩)
  · -- a proof: the challenge it names, if that has expired
    obtain ⟨k, hpool, -⟩ := he.pool
    obtain ⟨clock, instant, ms, hms⟩ := hd
    have horder : ExpiryOrder _ _ _ := Machine.guard_of_run (code_expiryOrder codec) hms hpool
    obtain ⟨hproof, hver | ⟨u, y, hy, now, hnow, hexp⟩⟩ := horder req i rfl rfl
    · exact absurd hno hver
    obtain ⟨hdb, hnew, hold⟩ := hI
    refine ⟨?_, fun x hx ↦ ?_, fun x hx ↦ ?_⟩
    · rw [he.db, challenges_only d.world.clock d.world.db (.inr (.inr ⟨i, rfl⟩))]
      exact { hdb with authChallenges := .rfl }
    · rw [he.db] at hx
      exact hnew x (List.mem_of_mem_filter hx)
    · rcases hold x hx with hx' | hx' | ⟨now, hnow, hexp⟩
      · by_cases hi : x.challengeId = i
        · -- the id is a key, so this is the challenge that was read
          have hyc := hread req i u y rfl hproof (did_past.mp hy)
          have hyi : y.challengeId = i := by
            have hd : Reachable codec verifyDetached d := ⟨clock, instant, ms, hms⟩
            obtain ⟨e, _, -, hr, -⟩ := hd.read (did_past.mp hy)
            exact (selectChallenge_sound hr).2.1
          obtain rfl := List.inj_on_of_nodup_map hc.nodup_challenges hx hyc (hi.trans hyi.symm)
          exact .inr (.inr ⟨now, hsub _ (did_past.mp hnow), hexp⟩)
        · left
          rw [he.db]
          exact List.mem_filter.mpr ⟨hx', by simpa using hi⟩
      · exact .inr (.inl hx')
      · exact .inr (.inr ⟨now, hsub _ hnow, hexp⟩)

/-- **Refusals.**  A request that runs alone and has not verified a signature has changed no row,
except as `Call.Unauthenticated` says for REGISTER and LOGIN. -/
theorem Reachable.refused {ms : Moves} (hc : Reachable codec verifyDetached c)
    (hrun : (server codec verifyDetached).run c (.spawn (.request call) :: ms) = some c')
    (halone : ∀ m ∈ ms, m.Alone c.pool.length)
    (hno : Unverified (past c.pool.length c'.trace)) :
    call.Unauthenticated c c' c.pool.length := by
  have hanti {d d' : State} (hsub : ∀ e ∈ d.trace, e ∈ d'.trace)
      (hno : Unverified (past c.pool.length d'.trace)) :
      Unverified (past c.pool.length d.trace) := by
    intro key message signature hv
    exact hno key message signature (did_past.mpr (hsub _ (did_past.mp hv)))
  refine (hc.alone (I := fun d ↦ Unverified (past c.pool.length d.trace) →
    call.Unauthenticated c d c.pool.length ∧ ReadBefore c d c.pool.length call)
    hrun halone ?_ ?_ ?_ hno).1
  · intro d hworld htrace _
    constructor
    · refine (Call.Unauthenticated.refl c c.pool.length call).same ?_ ?_
      · rw [hworld]
        exact .rfl
      · exact fun e he ↦ htrace ▸ he
    · intro req i u y _ _ hmem
      rw [htrace, ← mem_past, hc.no_past] at hmem
      exact nomatch hmem
  · intro d d' hI hq hno
    obtain ⟨hI, hread⟩ := hI (hanti hq.subset hno)
    refine ⟨hI.same hq.db hq.subset, fun req i u y hcall hproof hmem ↦ ?_⟩
    exact hread req i u y hcall hproof (hq.result hmem)
  · intro d d' s hd hI he hno
    have hno := hanti he.subset hno
    obtain ⟨hI, hread⟩ := hI hno
    refine ⟨he.unauthenticated hc hd hno hI hread, ?_⟩
    rintro req i u y rfl hproof hmem
    rcases he.result hmem with hmem | ⟨rfl, -, hr⟩
    · exact hread req i u y rfl hproof hmem
    · -- the challenge is read now, and proofs add none
      obtain ⟨-, hnew, -⟩ := hI
      refine (hnew y (selectChallenge_sound hr).1).resolve_right ?_
      rintro ⟨hchallenge, -⟩
      exact absurd hchallenge (by simp [hproof])

end ZenthDht
