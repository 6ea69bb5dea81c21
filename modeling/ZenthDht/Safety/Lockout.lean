import ZenthDht.Safety.Challenges
import ZenthDht.Safety.Sessions
import ZenthDht.Safety.Refused

/-!
# A login and the requests of others

A login takes two requests: one stores a challenge for the user, the other proves that the sender
holds the key of the user.  Nobody has to prove anything for the first, and it begins with a
delete of all challenges of the user it names.  So whoever names the user between the two steps
takes the challenge away, and the login fails (`stranger_blocks_login`).

Nothing else that others do can make it fail: if no other request deletes the challenges of the
user in between, the proof gets its session (`login_succeeds`).
-/

namespace ZenthDht

open Conc

/-! ## How a LOGIN ends -/

/-- A reading of the clock. -/
def clockReading : Event Res → Option Nat
  | ⟨.clock, now⟩ => some now
  | _ => none

def firstReading (past : Past) : Option Nat := past.findSome? clockReading

/-- The row of a challenge request. -/
def LoginRequest.newChallenge (req : LoginRequest) (user : User) (challengeId nonce : Bytes32)
    (now : Nat) : NewAuthChallenge where
  challengeId := challengeId.1
  userHashId := req.userHashId
  nonce := nonce.1
  requiredProofType := user.proofType
  publicParameters := []
  difficulty := 0
  expiresAt := now + seconds challengeExpirySeconds

/-- All that a challenge request has done when it answers with a challenge. -/
def LoginRequest.askedPast (req : LoginRequest) (v : Except DieselError String) (user : User)
    (challengeId nonce : Bytes32) (now ts : Nat) (deleted : Except DieselError Nat) (n : Nat) :
    Past :=
  [⟨.sql (.selectConfig "required_version"), v⟩, ⟨.sql (.selectUser req.userHashId), .ok user⟩,
    ⟨.fillBytes, challengeId⟩, ⟨.fillBytes, nonce⟩, ⟨.clock, now⟩,
    ⟨.sql (.deleteChallengesOf req.userHashId), deleted⟩,
    ⟨.sql (.insertChallenge (req.newChallenge user challengeId nonce now)), .ok n⟩, ⟨.clock, ts⟩]

/-- Why a LOGIN is refused. -/
inductive LoginRequest.Refusal (req : LoginRequest) (past : Past) : Prop
  | outdated (v : String) (hv : Did past (.sql (.selectConfig "required_version")) (.ok v))
      (hne : req.appVersion ≠ v)
  | malformed (hlen : req.userHashId.length ≠ 32)
  | failed (s : Stmt) (e : DieselError) (hs : Did past (.sql s) (.error e)) (he : e ≠ .notFound)
  | noUser (hu : Did past (.sql (.selectUser req.userHashId)) (.error .notFound))
  | unstored (n : NewAuthChallenge) (e : DieselError) (hc : req.requestChallenge = true)
      (hn : Did past (.sql (.insertChallenge n)) (.error e))
  | noProof (hc : req.requestChallenge = false) (hproof : req.proof = none)
  | noChallenge (proof : AuthProof) (user : User) (hproof : req.proof = some proof)
      (hu : Did past (.sql (.selectUser req.userHashId)) (.ok user))
      (hx : Did past (.sql (.selectChallenge proof.challengeId user.userHashId)) (.error .notFound))
  | expired (proof : AuthProof) (user : User) (x : AuthChallenge) (now : Nat)
      (hproof : req.proof = some proof)
      (hx : Did past (.sql (.selectChallenge proof.challengeId user.userHashId)) (.ok x))
      (hnow : firstReading past = some now) (hlt : x.expiresAt < now)
  | invalid (proof : AuthProof) (user : User) (x : AuthChallenge) (hproof : req.proof = some proof)
      (hu : Did past (.sql (.selectUser req.userHashId)) (.ok user))
      (hx : Did past (.sql (.selectChallenge proof.challengeId user.userHashId)) (.ok x))
      (hv : Did past (.verify user.identityKeyDilithium
        (proof.messageToVerify x.nonce user.userHashId) proof.proof) false)
  | unopened (n : NewSession) (e : DieselError) (hn : Did past (.sql (.insertSession n)) (.error e))

/-- The three ways in which a LOGIN ends. -/
inductive LoginRequest.Ends (req : LoginRequest) (past : Past) : LoginResponse → Prop
  | asked (v : Except DieselError String) (user : User) (challengeId nonce : Bytes32) (now ts : Nat)
      (deleted : Except DieselError Nat) (n : Nat) (hc : req.requestChallenge = true)
      (hlen : req.userHashId.length = 32)
      (hpast : past = req.askedPast v user challengeId nonce now ts deleted n) :
      Ends req past {
        success := true
        challenge := some ⟨challengeId.1, nonce.1, user.proofType, [], toSecs ts, 0⟩ }
  | opened (user : User) (n : NewSession) (rows : Nat) (expiry : UInt64)
      (hu : Did past (.sql (.selectUser req.userHashId)) (.ok user))
      (hn : Did past (.sql (.insertSession n)) (.ok rows)) (hsession : n.userHashId = user.userHashId) :
      Ends req past { success := true, sessionToken := n.sessionToken, sessionExpiry := expiry }
  | refused (resp : LoginResponse) (hfail : resp.success = false) (hnone : resp.challenge = none)
      (h : req.Refusal past) : Ends req past resp

/-- A proof reads the clock after it has looked its challenge up. -/
def LookupOrder (req : LoginRequest) (past : Past) (o : Op) : Prop :=
  o = .clock → req.requestChallenge = true ∨
    ∃ i u x, Did past (.sql (.selectChallenge i u)) (.ok x)

/-- A refusal with its reason. -/
theorem LoginRequest.Refusal.ends {req : LoginRequest} {past : Past} {message : String}
    (h : req.Refusal past) :
    ∃ resp, loginError message = .ok resp ∧ req.Ends past resp :=
  ⟨_, rfl, .refused _ rfl rfl h⟩

theorem handleChallengeRequest_ends {req : LoginRequest} {v : Except DieselError String}
    {user : User} (hc : req.requestChallenge = true) (hlen : req.userHashId.length = 32) :
    (handleChallengeRequest req.userHashId user.proofType).Obeys (LookupOrder req)
      (fun past r ↦ ∃ resp, r = .ok resp ∧ req.Ends past resp)
      ([] ++ [⟨.sql (.selectConfig "required_version"), v⟩] ++
        [⟨.sql (.selectUser req.userHashId), .ok user⟩]) := by
  unfold handleChallengeRequest
  refine obeys_call nofun fun challengeId ↦ obeys_call nofun fun nonce ↦ ?_
  refine obeys_utcNow (fun _ ↦ .inl hc) fun now ↦ obeys_call nofun fun deleted ↦ ?_
  refine obeys_sql nofun (fun e ↦ ?_) fun n ↦ ?_
  · exact LoginRequest.Refusal.ends
      (.unstored (req.newChallenge user challengeId nonce now) e hc (by simp [Did, LoginRequest.newChallenge]))
  · refine obeys_currentTimestamp (fun _ ↦ .inl hc) fun ts ↦ ?_
    exact ⟨_, rfl, .asked v user challengeId nonce now ts deleted n hc hlen rfl⟩

theorem handleProofVerification_ends {req : LoginRequest} {v : Except DieselError String}
    {user : User} {proof : AuthProof} (hproof : req.proof = some proof) :
    (handleProofVerification user proof).Obeys (LookupOrder req)
      (fun past r ↦ ∃ resp, r = .ok resp ∧ req.Ends past resp)
      ([] ++ [⟨.sql (.selectConfig "required_version"), v⟩] ++
        [⟨.sql (.selectUser req.userHashId), .ok user⟩]) := by
  unfold handleProofVerification
  refine obeys_sql (by simp [LookupOrder]) (fun e ↦ ?_) fun x ↦ ?_
  · cases e with
    | notFound =>
        exact LoginRequest.Refusal.ends (.noChallenge proof user hproof (by simp [Did])
          (List.mem_append_right _ List.mem_cons_self))
    | _ =>
        exact LoginRequest.Refusal.ends
          (.failed _ _ (List.mem_append_right _ List.mem_cons_self) (by simp))
  refine obeys_utcNow (fun _ ↦ .inr ⟨_, _, x, by simp [Did]⟩) fun now ↦ ?_
  split
  next hlt =>
    refine obeys_call (by simp [LookupOrder]) fun r ↦ ?_
    exact LoginRequest.Refusal.ends (.expired proof user x now hproof (by simp [Did]) rfl hlt)
  refine obeys_call (by simp [LookupOrder]) fun valid ↦ ?_
  cases valid with
  | false =>
      exact LoginRequest.Refusal.ends
        (.invalid proof user x hproof (by simp [Did]) (by simp [Did]) (by simp [Did]))
  | true =>
  refine obeys_call (by simp [LookupOrder]) fun deleted ↦ ?_
  refine obeys_call (by simp [LookupOrder]) fun token ↦ ?_
  refine obeys_utcNow (fun _ ↦ .inr ⟨_, _, x, by simp [Did]⟩) fun expiryNow ↦ ?_
  refine obeys_sql (by simp [LookupOrder]) (fun e ↦ ?_) fun n ↦ ?_
  · exact LoginRequest.Refusal.ends
      (.unopened ⟨token.1, user.userHashId, now + hours sessionExpiryHours⟩ e (by simp [Did]))
  · refine ⟨_, rfl, .opened user ⟨token.1, user.userHashId, now + hours sessionExpiryHours⟩ n _ ?_ ?_
      rfl⟩
    · simp [Did]
    · simp [Did]

theorem login_ends (req : LoginRequest) :
    (login req).Obeys (LookupOrder req) (fun past r ↦ ∃ resp, r = .ok resp ∧ req.Ends past resp)
      [] := by
  unfold login getRequiredVersion
  refine ⟨nofun, fun version ↦ ?_⟩
  change Program.Obeys _ _ _ (match (version.toOption.filter _) with | some _ => _ | none => _)
  split
  next required hv =>
    obtain ⟨hv, hne⟩ := Option.filter_eq_some_iff.mp hv
    refine ⟨_, rfl, .refused _ rfl rfl (.outdated required ?_ (of_decide_eq_true hne))⟩
    cases version with
    | error e => exact nomatch hv
    | ok v =>
        obtain rfl := Option.some.inj hv
        exact List.mem_cons_self
  split
  next hnil => exact LoginRequest.Refusal.ends (.malformed (by simp [hnil]))
  split
  next hlen => exact LoginRequest.Refusal.ends (.malformed hlen)
  next hlen =>
  refine obeys_sql nofun (fun e ↦ ?_) fun user ↦ ?_
  · cases e with
    | notFound =>
        exact LoginRequest.Refusal.ends (.noUser (List.mem_append_right _ List.mem_cons_self))
    | _ =>
        exact LoginRequest.Refusal.ends
          (.failed _ _ (List.mem_append_right _ List.mem_cons_self) nofun)
  dsimp only
  split
  next hc => exact handleChallengeRequest_ends hc (not_not.mp hlen)
  next hc =>
  split
  next proof hproof => exact handleProofVerification_ends hproof
  next hproof => exact LoginRequest.Refusal.ends (.noProof (by simpa using hc) hproof)

/-! ## The two steps of a login -/

/-- Since thread `t₀` stored a challenge, `e` has happened. -/
def SinceStored (tr : History) (t₀ : Nat) (e : Nat × Event Res) : Prop :=
  ∃ (p k : Nat) (n : NewAuthChallenge) (r : Nat), p < k ∧
    tr[p]? = some (t₀, ⟨.sql (.insertChallenge n), .ok r⟩) ∧ tr[k]? = some e

/-- Between the storing of a challenge by thread `t₀` and the lookup of one by thread `t`, `e` has
happened. -/
def BetweenSteps (tr : History) (t₀ t : Nat) (e : Nat × Event Res) : Prop :=
  ∃ (p k q : Nat) (n : NewAuthChallenge) (r : Nat) (i u : Bytes) (x : _), p < k ∧ k < q ∧
    tr[p]? = some (t₀, ⟨.sql (.insertChallenge n), .ok r⟩) ∧ tr[k]? = some e ∧
    tr[q]? = some (t, ⟨.sql (.selectChallenge i u), x⟩)

/-- The request is a proof, by `u`, for the challenge. -/
structure LoginRequest.Proves (req : LoginRequest) (u : Bytes) (ch : DtoAuthChallenge)
    (proof : AuthProof) : Prop where
  user : req.userHashId = u
  isProof : req.requestChallenge = false ∧ req.proof = some proof
  challenge : proof.challengeId = ch.challengeId

/-- The login of `u`, which has got the nonce from thread `t₀` and sends the proof to thread `t`,
is one that should succeed. -/
structure Deserves (verifyDetached : Bytes → Bytes → Bytes → Bool) (c : State) (t₀ t : Nat)
    (u nonce : Bytes) (proof : AuthProof) : Prop where
  /-- The proof is signed under the key the server has for `u` when it checks the proof. -/
  signed : ∀ user, (t, ⟨.sql (.selectUser u), .ok user⟩) ∈ c.trace →
    verifyDilithiumSignature verifyDetached user.identityKeyDilithium
      (proof.messageToVerify nonce u) proof.proof = true
  /-- No reading of the clock, from the storing to the lookup and to the check of the expiry, is
  more than 300 seconds after the first reading of the challenge request. -/
  timely : ∀ now₀ now : Nat, firstReading (past t₀ c.trace) = some now₀ →
    (∃ t', BetweenSteps c.trace t₀ t (t', ⟨.clock, now⟩)) ∨
      firstReading (past t c.trace) = some now → (now : Int) ≤ now₀ + seconds 300
  /-- `u` is not deleted. -/
  kept : ∀ t' r, ¬ SinceStored c.trace t₀ (t', ⟨.sql (.deleteUser u), .ok r⟩)
  /-- The database does not fail: a statement of the proof may find no row, and that is all. -/
  healthy : ∀ s e, (t, ⟨.sql s, .error e⟩) ∈ c.trace → e = .notFound
  /-- Nobody else has signed the nonce under a key of `u`. -/
  keyless : ∀ t' user ts signature, t' ≠ t →
    (t', ⟨.sql (.selectUser u), .ok user⟩) ∈ c.trace →
    (t', ⟨.verify user.identityKeyDilithium (nonce ++ u ++ le64 ts) signature, true⟩) ∉ c.trace

/-- Nothing takes the challenge away. -/
structure Unhindered (c : State) (t₀ t : Nat) (u challengeId : Bytes) (appVersion : String) :
    Prop where
  /-- No other request deletes the challenges of `u` between the two steps, as every challenge
  request that names `u` does. -/
  alone : ∀ t' r, ¬ BetweenSteps c.trace t₀ t (t', ⟨.sql (.deleteChallengesOf u), r⟩)
  /-- The challenge id is drawn once. -/
  drawn : ∀ t' n r, (t', ⟨.sql (.insertChallenge n), .ok r⟩) ∈ c.trace →
    n.challengeId = challengeId → t' = t₀
  /-- The version of the proof is the required one, if one is required. -/
  current : ∀ v, (t, ⟨.sql (.selectConfig "required_version"), .ok v⟩) ∈ c.trace → appVersion = v

variable {codec : Codec} {verifyDetached : Bytes → Bytes → Bytes → Bool} {c c₁ : State}
variable {t₀ t t' p q k : Nat} {ask req : LoginRequest} {v : Except DieselError String} {user : User}
variable {challengeId nonce : Bytes32} {now₀ ts rows : Nat} {deleted : Except DieselError Nat}

theorem processCall_login_ends (req : LoginRequest) :
    (processCall codec (.login req)).Obeys (LookupOrder req) (fun past r ↦
      ∃ resp, r = ⟨resp.success, .login resp, ""⟩ ∧ req.Ends past resp) [] := by
  refine (login_ends req).bind fun past r ⟨resp, hr, h⟩ ↦ ⟨resp, ?_, h⟩
  rw [hr]
  rfl

/-- A proof that has looked a challenge up had done so when it read the clock. -/
theorem lookup_before_clock {clock instant : Nat} {ms : Moves}
    (hms : (server codec verifyDetached).run (.start (.initial clock instant)) ms = some c)
    (hjob : Runs c t (.request (.login req))) (hproof : req.requestChallenge = false)
    {i u : Bytes} {x : _} {now : Nat}
    (hp : c.trace[p]? = some (t, ⟨.sql (.selectChallenge i u), x⟩))
    (hk : c.trace[k]? = some (t, ⟨.clock, now⟩)) : p < k := by
  obtain ⟨ms₁, ω, ms₂, d, job, rest, w, rfl, hd, hpre, ht, hperf, hrun⟩ :=
    Machine.event_at hms hk (Nat.zero_le _)
  rw [← hpre] at hrun
  have hstep : (server codec verifyDetached).run d (.step t ω :: ms₂) = some c :=
    Machine.Step.run_cons (.step ht hperf) hrun
  obtain rfl := (Runs.run ⟨_, ht⟩ hstep).unique hjob
  have hreach : Reachable codec verifyDetached d := ⟨clock, instant, ms₁, hd⟩
  have horder : LookupOrder req _ _ := hreach.request_guard (processCall_login_ends req) ht
  obtain hask | ⟨i', u', x', hfound⟩ := horder rfl
  · rw [hproof] at hask
    exact nomatch hask
  · rw [hpre] at hfound
    obtain ⟨j, hjk, hj⟩ := did_take.mp hfound
    rwa [read_once hms hp hj]

theorem first_ne_notFound {α : Type} {l : List α} {a : α} (ha : a ∈ l) :
    Stmt.first l ≠ .error .notFound := by
  cases l with
  | nil => exact absurd ha List.not_mem_nil
  | cons b l => exact nofun

/-- An insert does not say that it has found no row. -/
theorem session_found (h : Reachable codec verifyDetached c) {n : NewSession} :
    (t, ⟨.sql (.insertSession n), .error .notFound⟩) ∉ c.trace := by
  intro he
  obtain ⟨pre, post, htr⟩ := List.append_of_mem he
  obtain ⟨d, ω, job, k, w, -, -, -, hperf, -⟩ := h.moment htr
  rcases perform_sql hperf with ⟨-, e, he⟩ | ⟨hr, -⟩
  · exact nomatch he
  · simp only [Stmt.exec] at hr
    repeat' split at hr
    all_goals exact nomatch hr

theorem deleteUser_ok (now : NaiveDateTime) (db : Db) (u : Bytes) :
    ∃ n, ((Stmt.deleteUser u).exec now db).1 = .ok n := by
  simp only [Stmt.exec]
  split
  · exact ⟨1, rfl⟩
  · exact ⟨0, rfl⟩

/-- A challenge is stored for a user that exists. -/
theorem insertChallenge_ok {n : NewAuthChallenge} {now : NaiveDateTime} {db : Db} {r : Nat}
    (h : ((Stmt.insertChallenge n).exec now db).1 = .ok r) :
    db.hasUser n.userHashId = true ∧
      n.row now ∈ ((Stmt.insertChallenge n).exec now db).2.authChallenges := by
  simp only [Stmt.exec] at h ⊢
  split at h
  · exact nomatch h
  next hnew =>
  split at h
  · exact nomatch h
  next huser =>
    rw [if_neg hnew, if_neg huser]
    exact ⟨by simpa using huser, List.mem_append_right _ List.mem_cons_self⟩

/-- A LOGIN that has answered with a challenge has stored it. -/
theorem Reachable.asked (h : Reachable codec verifyDetached c) {resp : LoginResponse}
    (hans : c.answered t = some (.request (.login ask), ⟨true, .login resp, ""⟩))
    {ch : DtoAuthChallenge} (hch : resp.challenge = some ch) :
    ∃ v user challengeId nonce now ts deleted n, ask.userHashId.length = 32 ∧
      ch.challengeId = challengeId.1 ∧ ch.nonce = nonce.1 ∧
      past t c.trace = ask.askedPast v user challengeId nonce now ts deleted n := by
  obtain ⟨resp', hreply, hends⟩ := h.request_answer (processCall_login_ends ask) hans
  obtain rfl : resp = resp' := Payload.login.inj (congrArg Reply.payload hreply)
  cases hends with
  | asked v user challengeId nonce now ts deleted n _ hlen hpast =>
      obtain rfl := Option.some.inj hch
      exact ⟨v, user, challengeId, nonce, now, ts, deleted, n, hlen, rfl, rfl, hpast⟩
  | opened => exact nomatch hch
  | refused _ _ hnone => exact nomatch hnone.symm.trans hch

section

variable (h : Reachable codec verifyDetached c)
variable (hpast : past t₀ c.trace = ask.askedPast v user challengeId nonce now₀ ts deleted rows)
variable (hdrawn : ∀ t' n r, (t', ⟨.sql (.insertChallenge n), .ok r⟩) ∈ c.trace →
  n.challengeId = challengeId.1 → t' = t₀)
include h hpast hdrawn

/-- A challenge that is found under the id is the one that thread `t₀` has stored before. -/
theorem stored_before {u : Bytes} {x : AuthChallenge}
    (hk : c.trace[k]? = some (t', ⟨.sql (.selectChallenge challengeId.1 u), .ok x⟩)) :
    x.userHashId = u ∧ (∃ now, x = (ask.newChallenge user challengeId nonce now₀).row now) ∧
      ∃ (j : Nat) (n : NewAuthChallenge) (r : Nat), j < k ∧
        c.trace[j]? = some (t₀, ⟨.sql (.insertChallenge n), .ok r⟩) := by
  obtain ⟨clock, instant, ms, hms⟩ := h
  obtain ⟨ms₁, ω, ms₂, d, job, rest, w, rfl, hd, hpre, ht, hperf, -⟩ :=
    Machine.event_at hms hk (Nat.zero_le _)
  rcases perform_sql hperf with ⟨-, e, he⟩ | ⟨hr, -⟩
  · cases he
  obtain ⟨hx, hid, hu⟩ := selectChallenge_sound hr.symm
  have hreach : Reachable codec verifyDetached d := ⟨clock, instant, ms₁, hd⟩
  obtain ⟨d₁, m, t'', job', s, d₂, ms', h₁, -, he, hnot, hin, hrun⟩ :=
    hreach.origin (P := fun db ↦ x ∈ db.authChallenges)
      (fun hsame ↦ hsame.authChallenges.mem_iff.mpr) (by simp [Db.migrated]) hx
  rw [he.db] at hin
  obtain hold | ⟨n, rfl, rfl, hok⟩ := mem_authChallenges_exec hin
  · exact absurd hold hnot
  obtain ⟨post, htr⟩ := he.history hrun
  rw [hok] at htr
  have hj : d.trace[d₁.trace.length]? = some (t'', ⟨.sql (.insertChallenge n), .ok 1⟩) := by
    rw [htr, List.getElem?_append_right le_rfl, Nat.sub_self]
    rfl
  rw [hpre, List.getElem?_take] at hj
  split at hj
  next hlt =>
    have hmem := List.mem_of_getElem? hj
    obtain rfl := hdrawn t'' n 1 hmem hid
    have hstored := mem_past.mpr hmem
    rw [hpast] at hstored
    obtain ⟨rfl, -⟩ : n = ask.newChallenge user challengeId nonce now₀ ∧ 1 = rows := by
      simpa [LoginRequest.askedPast] using hstored
    exact ⟨hu, ⟨_, rfl⟩, _, _, _, hlt, hj⟩
  · cases hj

/-- No other request deletes the challenge before it is looked up. -/
theorem not_deleted {proof : AuthProof}
    (hlogin : Deserves verifyDetached c t₀ t ask.userHashId nonce.1 proof) {i u : Bytes} {x : _}
    (hq : c.trace[q]? = some (t, ⟨.sql (.selectChallenge i u), x⟩)) (hkq : k < q) {a : Nat}
    (hk : c.trace[k]? = some (t', ⟨.sql (.deleteChallenge challengeId.1), .ok a⟩)) : False := by
  have hreach := h
  obtain ⟨clock, instant, ms, hms⟩ := h
  obtain ⟨job, hjob, req, row, proof', y, rfl, hproof', hid, hrow, hfound⟩ :=
    guard_at (code_obeys codec) hms hk
  obtain ⟨j, hj, hfound⟩ := did_take.mp hfound
  have hne : t' ≠ t := by
    rintro rfl
    have heq := read_once hms hfound hq
    omega
  obtain ⟨job, hjob', horder⟩ := guard_at (code_expiryOrder codec) hms hk
  obtain rfl := hjob.unique hjob'
  obtain ⟨hproof, hverified | ⟨u', z, hz, now, hnow, hexpired⟩⟩ := horder req _ rfl rfl
  · -- the thread has verified a signature of the nonce under a key of the user
    obtain ⟨key, message, signature, hv⟩ : ∃ key message signature,
        Did (past t' (c.trace.take k)) (.verify key message signature) true := by
      simpa only [Unverified, not_forall, not_not] using hverified
    obtain ⟨j, -, hj⟩ := did_take.mp hv
    obtain ⟨_, _, _, ⟨row', proof'', z, now, hread, rfl, rfl, rfl⟩, hv⟩ :=
      hreach.vouched hjob (did_past.mpr (List.mem_of_getElem? hj))
    obtain rfl := Option.some.inj (hproof'.symm.trans hread.isProof.2)
    have hrow' := did_past.mp hread.userRow
    obtain ⟨l, hl⟩ := List.getElem?_of_mem (did_past.mp hread.challengeRow)
    rw [← hid] at hl
    obtain ⟨hz, ⟨created, rfl⟩, -⟩ := stored_before hreach hpast hdrawn hl
    have hu : row'.userHashId = ask.userHashId := hz.symm
    rw [← hreach.userHash_of_read hrow', hu] at hrow'
    rw [AuthProof.messageToVerify, hu] at hv
    exact hlogin.keyless t' row' _ _ hne hrow' (did_past.mp hv)
  · -- the challenge had expired
    obtain ⟨m, hmk, hm⟩ := did_take.mp hnow
    obtain ⟨l, -, hl⟩ := did_take.mp hz
    obtain ⟨-, ⟨created, rfl⟩, p, n, rows', hpl, hp⟩ := stored_before hreach hpast hdrawn hl
    have hlm := lookup_before_clock hms hjob hproof hl hm
    have hlate := hlogin.timely now₀ now (by rw [hpast]; rfl) (.inl ⟨t', p, m, q, n, rows', i, u, x,
      hpl.trans hlm, hmk.trans hkq, hp, hm, hq⟩)
    exact absurd hexpired (Int.not_lt.mpr hlate)

omit hdrawn in
/-- The challenge is there when it is looked up. -/
theorem challenge_kept {proof : AuthProof}
    (hlogin : Deserves verifyDetached c t₀ t ask.userHashId nonce.1 proof) {version : String}
    (hfree : Unhindered c t₀ t ask.userHashId challengeId.1 version)
    (hp : c.trace[p]? = some (t₀, ⟨.sql (.insertChallenge
      (ask.newChallenge user challengeId nonce now₀)), .ok rows⟩)) (hpq : p < q) :
    c.trace[q]? ≠ some (t, ⟨.sql (.selectChallenge challengeId.1 ask.userHashId),
      .error .notFound⟩) := by
  intro hq
  obtain ⟨c₁, job, c₂, ms, d, ext, ω, w, -, he, -, hr, -, hrun, hperf, -, -, hext, hbetween⟩ :=
    h.later hpq hp hq
  let x := (ask.newChallenge user challengeId nonce now₀).row c₁.world.clock
  have hstart : x ∈ c₂.world.db.authChallenges := by
    rw [he.db]
    exact (insertChallenge_ok hr).2
  have hkept : x ∈ d.world.db.authChallenges := by
    refine db_undisturbed (P := fun db ↦ x ∈ db.authChallenges)
      (D := fun s ↦ s = .deleteChallengesOf ask.userHashId ∨ s = .deleteChallenge challengeId.1 ∨
        s = .deleteUser ask.userHashId)
      (fun hsame ↦ hsame.authChallenges.mem_iff.mp) (fun {now db s} hin ↦ ?_) hrun hext ?_ hstart
    · by_cases hs : s = .deleteChallengesOf ask.userHashId ∨ s = .deleteChallenge challengeId.1 ∨
          s = .deleteUser ask.userHashId
      · refine .inr ⟨hs, ?_⟩
        rcases hs with rfl | rfl | rfl
        · exact ⟨_, rfl⟩
        · exact ⟨_, rfl⟩
        · exact deleteUser_ok _ _ _
      · simp only [not_or] at hs
        exact .inl (authChallenges_exec hin hs.1 hs.2.1 hs.2.2)
    · rintro t' s a hmem (rfl | rfl | rfl)
      · obtain ⟨k, hpk, hkq, hk⟩ := hbetween _ _ hmem
        exact hfree.alone t' _ ⟨p, k, q, _, _, _, _, _, hpk, hkq, hp, hk, hq⟩
      · obtain ⟨k, -, hkq, hk⟩ := hbetween _ _ hmem
        exact not_deleted h hpast hfree.drawn hlogin hq hkq hk
      · obtain ⟨k, hpk, -, hk⟩ := hbetween _ _ hmem
        exact hlogin.kept t' _ ⟨p, k, _, _, hpk, hp, hk⟩
  rcases perform_sql hperf with ⟨-, e, he⟩ | ⟨hr', -⟩
  · exact nomatch he
  · refine first_ne_notFound (List.mem_filter.mpr ⟨hkept, ?_⟩) hr'.symm
    simp [x, NewAuthChallenge.row, LoginRequest.newChallenge]

omit hpast hdrawn in
/-- The user is there when the proof reads the row. -/
theorem user_kept {proof : AuthProof}
    (hlogin : Deserves verifyDetached c t₀ t ask.userHashId nonce.1 proof)
    (hp : c.trace[p]? = some (t₀, ⟨.sql (.insertChallenge
      (ask.newChallenge user challengeId nonce now₀)), .ok rows⟩)) (hpq : p < q) :
    c.trace[q]? ≠ some (t, ⟨.sql (.selectUser ask.userHashId), .error .notFound⟩) := by
  intro hq
  obtain ⟨c₁, job, c₂, ms, d, ext, ω, w, -, he, -, hr, -, hrun, hperf, -, -, hext, hbetween⟩ :=
    h.later hpq hp hq
  have hstart : c₂.world.db.hasUser ask.userHashId = true := by
    rw [he.db]
    exact hasUser_exec (insertChallenge_ok hr).1 nofun
  have hkept : d.world.db.hasUser ask.userHashId = true := by
    refine db_undisturbed (P := fun db ↦ db.hasUser ask.userHashId = true)
      (D := (· = .deleteUser ask.userHashId))
      (fun hsame hin ↦ by rwa [← hsame.hasUser]) (fun {now db s} hin ↦ ?_) hrun hext ?_ hstart
    · rcases eq_or_ne s (.deleteUser ask.userHashId) with rfl | hs
      · exact .inr ⟨rfl, deleteUser_ok _ _ _⟩
      · exact .inl (hasUser_exec hin hs)
    · rintro t' s a hmem rfl
      obtain ⟨k, hpk, -, hk⟩ := hbetween _ _ hmem
      exact hlogin.kept t' _ ⟨p, k, _, _, hpk, hp, hk⟩
  obtain ⟨x, hx, hu⟩ := hasUser_iff.mp hkept
  rcases perform_sql hperf with ⟨-, e, he⟩ | ⟨hr', -⟩
  · exact nomatch he
  · exact first_ne_notFound (List.mem_filter.mpr ⟨hx, decide_eq_true hu⟩) hr'.symm

end

/-- A proof that should succeed is not refused. -/
theorem not_refused (h : Reachable codec verifyDetached c)
    (hpast : past t₀ c.trace = ask.askedPast v user challengeId nonce now₀ ts deleted rows)
    (hlen : ask.userHashId.length = 32) {proof : AuthProof} {ch : DtoAuthChallenge}
    (hreq : req.Proves ask.userHashId ch proof) (hid : ch.challengeId = challengeId.1)
    (hlogin : Deserves verifyDetached c t₀ t ask.userHashId nonce.1 proof)
    (hfree : Unhindered c t₀ t ask.userHashId challengeId.1 req.appVersion)
    (hp : c.trace[p]? = some (t₀, ⟨.sql (.insertChallenge
      (ask.newChallenge user challengeId nonce now₀)), .ok rows⟩))
    (hafter : ∀ (q : Nat) e, c.trace[q]? = some (t, e) → p < q)
    (hrefusal : req.Refusal (past t c.trace)) : False := by
  have hfirst : firstReading (past t₀ c.trace) = some now₀ := by
    rw [hpast]
    rfl
  have hmine {proof' : AuthProof} (hproof' : req.proof = some proof') :
      proof' = proof ∧ proof'.challengeId = challengeId.1 := by
    obtain rfl := Option.some.inj (hproof'.symm.trans hreq.isProof.2)
    exact ⟨rfl, hreq.challenge.trans hid⟩
  have hfound {i u : Bytes} {x : AuthChallenge} (hi : i = challengeId.1)
      (hx : Did (past t c.trace) (.sql (.selectChallenge i u)) (.ok x)) :
      u = ask.userHashId ∧
        ∃ now, x = (ask.newChallenge user challengeId nonce now₀).row now := by
    subst hi
    obtain ⟨q, hq⟩ := List.getElem?_of_mem (did_past.mp hx)
    obtain ⟨hu, ⟨now, rfl⟩, -⟩ := stored_before h hpast hfree.drawn hq
    exact ⟨hu.symm, now, rfl⟩
  cases hrefusal with
  | outdated v hv hne => exact hne (hfree.current v (did_past.mp hv))
  | malformed hlen' => exact hlen' (hreq.user ▸ hlen)
  | failed s e hs he => exact he (hlogin.healthy s e (did_past.mp hs))
  | noUser hu =>
      rw [hreq.user] at hu
      obtain ⟨q, hq⟩ := List.getElem?_of_mem (did_past.mp hu)
      exact user_kept h hlogin hp (hafter q _ hq) hq
  | unstored n e hc hn => exact nomatch hc.symm.trans hreq.isProof.1
  | noProof hc hnone => exact nomatch hnone.symm.trans hreq.isProof.2
  | noChallenge proof' user' hproof' hu hx =>
      obtain ⟨rfl, hid'⟩ := hmine hproof'
      have hu' := h.userHash_of_read (did_past.mp hu)
      rw [hid', hu', hreq.user] at hx
      obtain ⟨q, hq⟩ := List.getElem?_of_mem (did_past.mp hx)
      exact challenge_kept h hpast hlogin hfree hp (hafter q _ hq) hq
  | expired proof' user' x now hproof' hx hnow hlt =>
      obtain ⟨rfl, hid'⟩ := hmine hproof'
      obtain ⟨-, created, rfl⟩ := hfound hid' hx
      exact absurd hlt (Int.not_lt.mpr (hlogin.timely now₀ now hfirst (.inr hnow)))
  | invalid proof' user' x hproof' hu hx hv =>
      obtain ⟨rfl, hid'⟩ := hmine hproof'
      obtain ⟨hu', created, rfl⟩ := hfound hid' hx
      have hrow := did_past.mp hu
      rw [hreq.user] at hrow
      have hvalid := hlogin.signed user' hrow
      have hinvalid := h.verdict (did_past.mp hv)
      rw [hu'] at hinvalid
      exact nomatch hinvalid.symm.trans hvalid
  | unopened n e hn =>
      have hn := did_past.mp hn
      obtain rfl := hlogin.healthy _ _ hn
      exact session_found h hn

/-- **A login among strangers.**  Let thread `t₀` have answered a LOGIN of a user with a challenge,
and let thread `t` be started after that, for a proof of the same user for this challenge, and have
answered.  If the login is one that should succeed and nothing takes the challenge away, whatever
else happens, the proof is a success and has opened a session of the user. -/
theorem login_succeeds {clock instant : Nat} {ms₁ ms₂ : Moves} {resp : LoginResponse}
    {ch : DtoAuthChallenge} {proof : AuthProof} {reply : Reply}
    (h₁ : (server codec verifyDetached).run (.start (.initial clock instant)) ms₁ = some c₁)
    (hask : c₁.answered t₀ = some (.request (.login ask), ⟨true, .login resp, ""⟩))
    (hch : resp.challenge = some ch)
    (h₂ : (server codec verifyDetached).run c₁ ms₂ = some c) (hlater : c₁.pool.length ≤ t)
    (hans : c.answered t = some (.request (.login req), reply))
    (hreq : req.Proves ask.userHashId ch proof)
    (hlogin : Deserves verifyDetached c t₀ t ask.userHashId ch.nonce proof)
    (hfree : Unhindered c t₀ t ask.userHashId ch.challengeId req.appVersion) :
    reply.success = true ∧ ∃ n rows, (t, ⟨.sql (.insertSession n), .ok rows⟩) ∈ c.trace ∧
      n.userHashId = ask.userHashId := by
  have hc₁ : Reachable codec verifyDetached c₁ := ⟨clock, instant, ms₁, h₁⟩
  have hc := hc₁.run h₂
  obtain ⟨v, user, challengeId, nonce, now₀, ts, deleted, rows, hlen, hid, hnonce, hpast₁⟩ :=
    hc₁.asked hask hch
  have hpast := (Machine.past_of_ret h₂ (answered_iff.mp hask)).trans hpast₁
  rw [hid] at hfree
  rw [hnonce] at hlogin
  obtain ⟨ext, hext⟩ := Machine.trace_of_run h₂
  obtain ⟨p, hp₁⟩ := List.getElem?_of_mem (show (t₀, ⟨.sql (.insertChallenge
    (ask.newChallenge user challengeId nonce now₀)), .ok rows⟩) ∈ c₁.trace by
      rw [← mem_past, hpast₁]
      simp [LoginRequest.askedPast])
  obtain ⟨hplt, -⟩ := List.getElem?_eq_some_iff.mp hp₁
  have hp := hp₁
  rw [← List.getElem?_append_left hplt, ← hext] at hp
  have hafter (q : Nat) (e : Event Res) (hq : c.trace[q]? = some (t, e)) : p < q := by
    by_contra hle
    rw [hext, List.getElem?_append_left (by omega)] at hq
    have hnone := (Machine.traced_of_run h₁).2 t hlater
    exact List.not_mem_nil (hnone ▸ mem_past.mpr (List.mem_of_getElem? hq))
  obtain ⟨resp', rfl, hends⟩ := hc.request_answer (processCall_login_ends req) hans
  cases hends with
  | asked _ _ _ _ _ _ _ _ hask' => exact nomatch hask'.symm.trans hreq.isProof.1
  | opened user' n rows' expiry hu hn hsession =>
      refine ⟨rfl, n, rows', did_past.mp hn, ?_⟩
      rw [hsession, hc.userHash_of_read (did_past.mp hu), hreq.user]
  | refused _ _ _ hrefusal =>
      exact (not_refused hc hpast hlen hreq hid hlogin hfree hp hafter hrefusal).elim

namespace Sample

/-- The proof of user 1 for the challenge 7. -/
def loginProof : AuthProof := ⟨word 7, signature, 5⟩

/-- An event that leaves the login of user 1, which ends in thread `t`, alone: the row of a user
that thread `t` reads has the key that signed the proof, no user is deleted, the clock stands
still, thread 1 stores the only challenge, and nobody else has a valid signature. -/
def sparing (t : Nat) : Nat × Event Res → Bool
  | (t', ⟨.sql (.selectUser _), .ok user⟩) =>
      t' ≠ t || verifyDilithiumSignature (verify answerSigned) user.identityKeyDilithium
        (loginProof.messageToVerify (word 8) (word 1)) signature
  | (_, ⟨.sql (.deleteUser _), .ok _⟩) => false
  | (t', ⟨.sql (.insertChallenge n), .ok _⟩) => t' = 1 || n.challengeId ≠ word 7
  | (_, ⟨.sql (.selectConfig _), .ok v⟩) => v = "0.1.2"
  | (_, ⟨.clock, now⟩) => now = 0
  | (t', ⟨.verify _ _ _, valid⟩) => t' = t || !valid
  | _ => true

/-- No row was found, or there is no error. -/
def unfailing : Nat × Event Res → Bool
  | (_, ⟨.sql _, .error e⟩) => e = .notFound
  | _ => true

/-- A challenge is stored. -/
def stores : Nat × Event Res → Bool
  | (_, ⟨.sql (.insertChallenge _), _⟩) => true
  | _ => false

/-- All challenges of a user are deleted. -/
def deletesAll : Nat × Event Res → Bool
  | (_, ⟨.sql (.deleteChallengesOf _), _⟩) => true
  | _ => false

/-- In a history that spares it the proof of user 1 is one that should succeed. -/
theorem deserves_of_sparing {c : State} {t : Nat} (hsparing : c.trace.all (sparing t) = true)
    (hok : c.trace.all unfailing = true) :
    Deserves (verify answerSigned) c 1 t (word 1) (word 8) loginProof := by
  have hevent := List.all_eq_true.mp hsparing
  have hclock {t' now : Nat} (hmem : (t', ⟨.clock, now⟩) ∈ c.trace) : now = 0 := by
    simpa [sparing] using hevent _ hmem
  constructor
  · intro user hmem
    simpa [sparing, loginProof] using hevent _ hmem
  · rintro now₀ now - hnow
    suffices now = 0 by
      subst this
      exact Int.add_nonneg (Int.natCast_nonneg _) (by decide)
    rcases hnow with ⟨t', p, k, q, n, r, i, u, x, -, -, -, hk, -⟩ | hfirst
    · exact hclock (List.mem_of_getElem? hk)
    · obtain ⟨e, he, hread⟩ := List.exists_of_findSome?_eq_some hfirst
      have hmem := mem_past.mp he
      match e, hread with
      | ⟨.clock, _⟩, rfl => exact hclock hmem
  · rintro t' r ⟨p, k, n, rows, -, -, hk⟩
    exact nomatch hevent _ (List.mem_of_getElem? hk)
  · intro s e hmem
    exact of_decide_eq_true (List.all_eq_true.mp hok _ hmem)
  · intro t' user ts sig hne _ hmem
    have hvalid := hevent _ hmem
    simp [sparing, hne] at hvalid

/-- A stranger asks for a challenge in the name of user 1. -/
def stranger : Moves :=
  .spawn (.request (.login ⟨"0.1.2", word 1, true, none⟩)) :: steps 2 2 ++
    .step 2 (random 17) :: .step 2 (random 18) :: steps 2 4

/-- Then user 1 answers the challenge 7 in thread 3. -/
def answersLate : Moves := stranger ++ .spawn answer :: steps 3 3

/-- The answer that user 1 has got from thread 1. -/
def challenged : LoginResponse where
  success := true
  challenge := some ⟨word 7, word 8, 0, [], 0, 0⟩

end Sample

open Sample in
/-- A stranger who names user 1 takes the challenge away: the login is one that should succeed, and
its proof is refused. -/
theorem stranger_blocks_login : ∃ c₁ c : State, final answerSigned challengeRun = some c₁ ∧
    c₁.answered 1 = some (.request (.login ⟨"0.1.2", word 1, true, none⟩),
      ⟨true, .login challenged, ""⟩) ∧
    (system answerSigned).run c₁ answersLate = some c ∧
    Deserves (Sample.verify answerSigned) c 1 3 (word 1) (word 8) loginProof ∧
    (c.answered 3).map (·.2.success) = some false := by
  have hasked : ((final answerSigned challengeRun).bind fun c ↦ c.answered 1) =
      some (.request (.login ⟨"0.1.2", word 1, true, none⟩), ⟨true, .login challenged, ""⟩) := by
    decide +kernel
  have hrefused : ((final answerSigned (challengeRun ++ answersLate)).map fun c ↦
      ((c.answered 3).map (·.2.success), c.trace.all (sparing 3), c.trace.all unfailing)) =
      some (some false, true, true) := by decide +kernel
  obtain ⟨c₁, hc₁, hasked⟩ := Option.bind_eq_some_iff.mp hasked
  obtain ⟨c, hc, hview⟩ := Option.map_eq_some_iff.mp hrefused
  obtain ⟨hrefused, hview⟩ := Prod.mk.inj hview
  obtain ⟨hsparing, hok⟩ := Prod.mk.inj hview
  obtain ⟨c₁', hc₁', hrun⟩ := Machine.run_append.mp hc
  obtain rfl := Option.some.inj (hc₁.symm.trans hc₁')
  exact ⟨c₁, c, hc₁, hasked, hrun, deserves_of_sparing hsparing hok, hrefused⟩

open Sample in
/-- Nobody else names user 1. -/
theorem login_succeeds_answerRun : ∃ c : State, final answerSigned answerRun = some c ∧
    ∃ n rows, (2, ⟨.sql (.insertSession n), .ok rows⟩) ∈ c.trace ∧ n.userHashId = word 1 := by
  have hasked : ((final answerSigned challengeRun).map fun c ↦ (c.pool.length, c.answered 1)) =
      some (2, some (.request (.login ⟨"0.1.2", word 1, true, none⟩),
        ⟨true, .login challenged, ""⟩)) := by decide +kernel
  have hends : ((final answerSigned answerRun).map fun c ↦
      ((c.answered 2).map (·.1), c.trace.all (sparing 2), c.trace.all unfailing,
        decide (c.trace.Pairwise fun e e' ↦ ¬ (stores e ∧ deletesAll e')))) =
      some (some answer, true, true, true) := by decide +kernel
  obtain ⟨c₁, hc₁, hview⟩ := Option.map_eq_some_iff.mp hasked
  obtain ⟨hlater, hasked⟩ := Prod.mk.inj hview
  obtain ⟨c, hc, hview⟩ := Option.map_eq_some_iff.mp hends
  simp only [Prod.mk.injEq, decide_eq_true_eq] at hview
  obtain ⟨hans, hsparing, hok, hpairs⟩ := hview
  obtain ⟨⟨_, reply⟩, hans, rfl⟩ := Option.map_eq_some_iff.mp hans
  have hfinal := hc
  rw [answerRun, List.append_assoc] at hc
  obtain ⟨c₁', hc₁', hrun⟩ := Machine.run_append.mp hc
  obtain rfl := Option.some.inj (hc₁.symm.trans hc₁')
  have hfree : Unhindered c 1 2 (word 1) (word 7) "0.1.2" := by
    have hevent := List.all_eq_true.mp hsparing
    constructor
    · rintro t' r ⟨p, k, q, n, rows, i, u, x, hpk, -, hp, hk, -⟩
      obtain ⟨hplt, hp⟩ := List.getElem?_eq_some_iff.mp hp
      obtain ⟨hklt, hk⟩ := List.getElem?_eq_some_iff.mp hk
      refine List.pairwise_iff_getElem.mp hpairs p k hplt hklt hpk ?_
      rw [hp, hk]
      exact ⟨rfl, rfl⟩
    · intro t' n r hmem hid
      simpa [sparing, hid] using hevent _ hmem
    · intro v hmem
      exact (of_decide_eq_true (hevent _ hmem)).symm
  exact ⟨c, hfinal, (login_succeeds hc₁ hasked rfl hrun hlater.le hans ⟨rfl, ⟨rfl, rfl⟩, rfl⟩
    (deserves_of_sparing hsparing hok) hfree).2⟩

end ZenthDht
