import ZenthDht.Spec.Run

/-!
# Login challenges and the sessions created from them

A LOGIN proof reads its challenge, verifies the signature, deletes the challenge and inserts
the session, in separate statements, and it looks neither at the row count nor at the error
of the delete.  So two proofs that read the same row before either has deleted it both get a
session, and so does every proof of a row whose delete has failed (`challenge_race`).

These two ways are the only ones: in a run where no proof reads a row that another proof is
still working on, and no delete of a verified proof fails, at most one session is ever created
from a row (`challenge_consumed_once`).
-/

namespace ZenthDht

open Conc

/-! ## Challenge rows and sessions in the history -/

/-- The events that matter to a challenge row: it is inserted, a thread reads it, a thread
inserts a session. -/
inductive ChallengeEvent
  | issued (challengeId : Bytes)
  | read (t : Nat) (challengeId : Bytes)
  | opened (t : Nat)
deriving DecidableEq

def challengeEvent : Nat × Event Res → Option ChallengeEvent
  | (_, ⟨.sql (.insertChallenge n), .ok _⟩) => some (.issued n.challengeId)
  | (t, ⟨.sql (.selectChallenge i _), .ok _⟩) => some (.read t i)
  | (t, ⟨.sql (.insertSession _), .ok _⟩) => some (.opened t)
  | _ => none

/-- The challenge event at a place of the history. -/
def challengeEventAt (tr : History) (p : Nat) : Option ChallengeEvent := tr[p]?.bind challengeEvent

/-- The session inserted at place `p` was created from the challenge row inserted at place `i`:
the thread had read, at a place `q`, the challenge that was inserted last under its id. -/
def CreatedFrom (tr : History) (i p : Nat) : Prop :=
  ∃ t challengeId q, challengeEventAt tr p = some (.opened t) ∧ q < p ∧
    challengeEventAt tr q = some (.read t challengeId) ∧ i < q ∧
    challengeEventAt tr i = some (.issued challengeId) ∧
    ∀ j < q, i < j → challengeEventAt tr j ≠ some (.issued challengeId)

section

variable {tr : History} {p t : Nat} {i : Bytes}

theorem issued_at : challengeEventAt tr p = some (.issued i) ↔
    ∃ t n r, tr[p]? = some (t, ⟨.sql (.insertChallenge n), .ok r⟩) ∧ n.challengeId = i := by
  simp only [challengeEventAt, Option.bind_eq_some_iff]
  constructor
  · rintro ⟨e, he, hv⟩
    unfold challengeEvent at hv
    split at hv <;> simp at hv
    exact ⟨_, _, _, he, hv⟩
  · rintro ⟨t, n, r, he, rfl⟩
    exact ⟨_, he, rfl⟩

theorem read_at : challengeEventAt tr p = some (.read t i) ↔
    ∃ u x, tr[p]? = some (t, ⟨.sql (.selectChallenge i u), .ok x⟩) := by
  simp only [challengeEventAt, Option.bind_eq_some_iff]
  constructor
  · rintro ⟨e, he, hv⟩
    unfold challengeEvent at hv
    split at hv <;> simp at hv
    obtain ⟨rfl, rfl⟩ := hv
    exact ⟨_, _, he⟩
  · rintro ⟨u, x, he⟩
    exact ⟨_, he, rfl⟩

theorem eventAt_of_take {e : ChallengeEvent} {q : Nat}
    (h : challengeEventAt (tr.take q) p = some e) : p < q ∧ challengeEventAt tr p = some e := by
  unfold challengeEventAt at h ⊢
  rw [List.getElem?_take] at h
  split at h
  next hlt => exact ⟨hlt, h⟩
  · exact nomatch h

theorem opened_at : challengeEventAt tr p = some (.opened t) ↔
    ∃ n r, tr[p]? = some (t, ⟨.sql (.insertSession n), .ok r⟩) := by
  simp only [challengeEventAt, Option.bind_eq_some_iff]
  constructor
  · rintro ⟨e, he, hv⟩
    unfold challengeEvent at hv
    split at hv <;> simp at hv
    obtain rfl := hv
    exact ⟨_, _, he⟩
  · rintro ⟨n, r, he⟩
    exact ⟨_, he, rfl⟩

end

/-! ## The order of the steps of a proof -/

/-- A LOGIN reads a challenge once, verifies before it deletes, and inserts one session. -/
def LoginOrder (job : Job) (past : Past) (o : Op) : Prop :=
  (∃ req, job = .request (.login req)) →
    match o with
    | .sql (.selectChallenge _ _) => ∀ i u r, ¬ Did past (.sql (.selectChallenge i u)) r
    | .verify _ _ _ => ∀ i r, ¬ Did past (.sql (.deleteChallenge i)) r
    | .sql (.insertSession _) => ∀ n r, ¬ Did past (.sql (.insertSession n)) r
    | _ => True

theorem login_order (req : LoginRequest) :
    (login req).Obeys (LoginOrder (.request (.login req))) (fun _ _ ↦ True) [] := by
  unfold login getRequiredVersion
  refine ⟨fun _ ↦ trivial, fun version ↦ ?_⟩
  change Program.Obeys _ _ _ (match (version.toOption.filter _) with | some _ => _ | none => _)
  split
  · trivial
  iterate 2
    split
    · trivial
  refine obeys_sql (fun _ ↦ trivial) (fun e ↦ by cases e <;> trivial) fun row ↦ ?_
  dsimp only
  split
  · unfold handleChallengeRequest
    refine obeys_call (fun _ ↦ trivial) fun _ ↦ obeys_call (fun _ ↦ trivial) fun _ ↦ ?_
    refine obeys_utcNow (fun _ ↦ trivial) fun _ ↦ obeys_call (fun _ ↦ trivial) fun _ ↦ ?_
    exact obeys_sql (fun _ ↦ trivial) (fun e ↦ trivial)
      fun n ↦ obeys_currentTimestamp (fun _ ↦ trivial) fun t ↦ trivial
  split
  · unfold handleProofVerification
    refine obeys_sql (fun _ ↦ by simp [Did]) (fun e ↦ by cases e <;> trivial) fun challenge ↦ ?_
    refine obeys_utcNow (fun _ ↦ trivial) fun now ↦ ?_
    split
    · exact obeys_call (fun _ ↦ trivial) fun _ ↦ trivial
    refine obeys_call (o := .verify _ _ _) (fun _ ↦ by simp [Did]) fun valid ↦ ?_
    split
    · trivial
    refine obeys_call (fun _ ↦ trivial) fun _ ↦ obeys_call (fun _ ↦ trivial) fun _ ↦ ?_
    refine obeys_utcNow (fun _ ↦ trivial) fun _ ↦ ?_
    exact obeys_sql (fun _ ↦ by simp [Did]) (fun e ↦ trivial) fun _ ↦ trivial
  · trivial

theorem code_loginOrder (codec : Codec) (job : Job) :
    (code codec job).Obeys (LoginOrder job) (fun _ _ ↦ True) [] := by
  by_cases hlogin : ∃ req, job = .request (.login req)
  · obtain ⟨req, rfl⟩ := hlogin
    have hcall : (processCall codec (.login req)).Obeys (LoginOrder (.request (.login req)))
        (fun _ _ ↦ True) [] := (login_order req).bind fun _ _ _ ↦ trivial
    exact hcall.bind fun _ _ _ ↦ trivial
  · exact Program.obeys_of_forall _ (fun _ _ hl ↦ absurd hl hlogin) fun _ _ ↦ trivial

variable {codec : Codec} {verifyDetached : Bytes → Bytes → Bytes → Bool}
variable {c : State} {ms : Moves} {clock instant : Nat}

section Order

variable (h : (server codec verifyDetached).run (.start (.initial clock instant)) ms = some c)
variable {t q q' p d : Nat} {i i' u u' : Bytes}
include h

/-- The thread that reads a challenge is a LOGIN proof of that challenge. -/
theorem proof_of_read {r : _} (hq : c.trace[q]? = some (t, ⟨.sql (.selectChallenge i u), r⟩)) :
    ∃ req proof, Runs c t (.request (.login req)) ∧ req.proof = some proof ∧
      i = proof.challengeId := by
  obtain ⟨job, hjob, req, proof, rfl, hp, hi⟩ := guard_at (code_obeys codec) h hq
  exact ⟨req, proof, hjob, hp, hi⟩

theorem order_at {o : Op} {r : Res o} {req : LoginRequest}
    (hjob : Runs c t (.request (.login req))) (hq : c.trace[q]? = some (t, ⟨o, r⟩)) :
    LoginOrder (.request (.login req)) (past t (c.trace.take q)) o := by
  obtain ⟨job, hjob', hguard⟩ := guard_at (code_loginOrder codec) h hq
  rwa [hjob.unique hjob']

/-- A thread reads a challenge once. -/
theorem read_once {r r' : _} (hq : c.trace[q]? = some (t, ⟨.sql (.selectChallenge i u), r⟩))
    (hq' : c.trace[q']? = some (t, ⟨.sql (.selectChallenge i' u'), r'⟩)) : q = q' := by
  obtain ⟨req, proof, hjob, -, -⟩ := proof_of_read h hq
  rcases lt_trichotomy q q' with hlt | heq | hlt
  · exact absurd (did_take.mpr ⟨q, hlt, hq⟩) (order_at h hjob hq' ⟨req, rfl⟩ i u r)
  · exact heq
  · exact absurd (did_take.mpr ⟨q', hlt, hq'⟩) (order_at h hjob hq ⟨req, rfl⟩ i' u' r')

/-- A LOGIN inserts one session. -/
theorem opened_once {req : LoginRequest} (hjob : Runs c t (.request (.login req)))
    (hp : challengeEventAt c.trace p = some (.opened t))
    (hq : challengeEventAt c.trace q = some (.opened t)) : p = q := by
  obtain ⟨n, r, hp⟩ := opened_at.mp hp
  obtain ⟨n', r', hq⟩ := opened_at.mp hq
  rcases lt_trichotomy p q with hlt | heq | hlt
  · exact absurd (did_take.mpr ⟨p, hlt, hp⟩) (order_at h hjob hq ⟨req, rfl⟩ n (.ok r))
  · exact heq
  · exact absurd (did_take.mpr ⟨q, hlt, hq⟩) (order_at h hjob hp ⟨req, rfl⟩ n' (.ok r'))

/-- A proof that inserts a session has verified its signature and then tried to delete the
challenge it read. -/
theorem delete_of_opened (hp : challengeEventAt c.trace p = some (.opened t))
    (hq : challengeEventAt c.trace q = some (.read t i)) :
    ∃ d r, d < p ∧ c.trace[d]? = some (t, ⟨.sql (.deleteChallenge i), r⟩) := by
  obtain ⟨n, r, hp⟩ := opened_at.mp hp
  obtain ⟨u, x, hq⟩ := read_at.mp hq
  obtain ⟨req, proof, hjob, hproof, rfl⟩ := proof_of_read h hq
  obtain ⟨job, hjob', hguard⟩ := guard_at (code_obeys codec) h hp
  obtain rfl := hjob.unique hjob'
  obtain ⟨req', row, proof', challenge, now, hreq, ⟨hread, -, d, hd⟩, -⟩ | ⟨req', now, hreq, -⟩ :=
    hguard
  · cases hreq
    obtain rfl := Option.some.inj (hproof.symm.trans hread.isProof.2)
    obtain ⟨k, hk, hkd⟩ := did_take.mp hd
    exact ⟨k, d, hk, hkd⟩
  · exact nomatch hreq

/-- The delete comes after the read and, for a proof that inserts a session, after the
verification. -/
theorem delete_after {r : _} (hp : challengeEventAt c.trace p = some (.opened t))
    (hq : challengeEventAt c.trace q = some (.read t i))
    (hd : c.trace[d]? = some (t, ⟨.sql (.deleteChallenge i), r⟩)) :
    q < d ∧ ∃ v < d, ∃ k m s, c.trace[v]? = some (t, ⟨.verify k m s, true⟩) := by
  obtain ⟨n, r', hp⟩ := opened_at.mp hp
  obtain ⟨u, x, hq⟩ := read_at.mp hq
  obtain ⟨req, proof, hjob, hproof, rfl⟩ := proof_of_read h hq
  constructor
  · obtain ⟨job, hjob', req', row, proof', challenge, hreq, hproof', -, -, hsel⟩ :=
      guard_at (code_obeys codec) h hd
    obtain ⟨q', hlt, hq'⟩ := did_take.mp hsel
    rwa [read_once h hq hq']
  · obtain ⟨job, hjob', hguard⟩ := guard_at (code_obeys codec) h hp
    obtain rfl := hjob.unique hjob'
    obtain ⟨req', row, proof', challenge, now, hreq, ⟨-, hver, -⟩, -⟩ | ⟨req', now, hreq, -⟩ :=
      hguard
    · obtain ⟨v, -, hv⟩ := did_take.mp hver
      refine ⟨v, ?_, _, _, _, hv⟩
      rcases lt_trichotomy v d with hlt | rfl | hlt
      · exact hlt
      · rw [hd] at hv
        exact nomatch hv
      · exact absurd (did_take.mpr ⟨d, hlt, hd⟩) (order_at h hjob hv ⟨req, rfl⟩ _ r)
    · exact nomatch hreq

end Order

/-! ## The condition -/

/-- Thread `t` has read the challenge `i` and is still working on it: it has neither come to the
delete of the challenge nor answered. -/
def WorksOn (c : State) (t : Nat) (i : Bytes) : Prop :=
  (∃ e ∈ c.trace, challengeEvent e = some (.read t i)) ∧
  (∀ e ∈ c.trace, e.1 = t → e.2.1 ≠ .sql (.deleteChallenge i)) ∧ c.running t = true

instance (c : State) (t : Nat) (i : Bytes) : Decidable (WorksOn c t i) :=
  inferInstanceAs (Decidable (_ ∧ _ ∧ _))

/-- A signature that was found valid. -/
def acceptsSignature : Event Res → Bool
  | ⟨.verify _ _ _, valid⟩ => valid
  | _ => false

/-- Thread `t` has verified a signature. -/
def HasVerified (c : State) (t : Nat) : Prop := ∃ e ∈ c.trace, e.1 = t ∧ acceptsSignature e.2 = true

instance (c : State) (t : Nat) : Decidable (HasVerified c t) :=
  inferInstanceAs (Decidable (∃ e ∈ c.trace, _))

/-- What has to hold of a move: a challenge row is not read while another thread works on it,
and the delete of a thread that has verified its signature does not fail. -/
def Exclusive (c : State) : Move Job Oracle Act → Prop
  | .step t ω =>
    match c.pool[t]? with
    | some ⟨_, .perform (.sql (.selectChallenge i u)) _⟩ =>
      (∃ x ∈ c.world.db.authChallenges, x.challengeId = i ∧ x.userHashId = u) →
        ∀ t' < c.pool.length, t' ≠ t → ¬ WorksOn c t' i
    | some ⟨_, .perform (.sql (.deleteChallenge _)) _⟩ => HasVerified c t → ω.fails = false
    | _ => True
  | _ => True

instance (c : State) (m : Move Job Oracle Act) : Decidable (Exclusive c m) := by
  unfold Exclusive
  split
  · split <;> infer_instance
  · infer_instance

/-- A challenge that is found after a delete of its id was inserted in between. -/
theorem issued_between {c₁ c₂ : State} {ms' : Moves} {i : Bytes}
    (h : (server codec verifyDetached).run c₁ ms' = some c₂)
    (hnone : ∀ x ∈ c₁.world.db.authChallenges, x.challengeId ≠ i)
    (hsome : ∃ x ∈ c₂.world.db.authChallenges, x.challengeId = i) :
    ∃ k, c₁.trace.length ≤ k ∧ challengeEventAt c₂.trace k = some (.issued i) := by
  obtain ⟨x, hx, hid⟩ := hsome
  obtain ⟨ms₁, d, m, t, job, s, d', ms₂, h₁, -, he, hold, hnew, h₂⟩ :=
    db_crossing (P := fun db ↦ ∀ x ∈ db.authChallenges, x.challengeId ≠ i)
      (fun hsame hP x hx ↦ hP x (hsame.authChallenges.mem_iff.mpr hx)) h hnone
      (fun hP ↦ hP x hx hid)
  rw [he.db] at hnew
  obtain ⟨y, hy, hyid⟩ : ∃ y ∈ (s.exec d.world.clock d.world.db).2.authChallenges,
      y.challengeId = i := by simpa using hnew
  rcases mem_authChallenges_exec hy with hy | ⟨n, rfl, rfl, hok⟩
  · exact absurd hyid (hold y hy)
  obtain ⟨ext, hext⟩ := Machine.trace_of_run h₁
  obtain ⟨post, hpost⟩ := he.history h₂
  refine ⟨d.trace.length, by simp [hext], issued_at.mpr ⟨t, n, 1, ?_, hyid⟩⟩
  rw [hpost, hok, List.getElem?_append_right le_rfl, Nat.sub_self]
  rfl

/-- After the delete of a challenge no row has its id. -/
theorem deleteChallenge_exec (now : NaiveDateTime) (db : Db) (i : Bytes) :
    ∀ x ∈ ((Stmt.deleteChallenge i).exec now db).2.authChallenges, x.challengeId ≠ i := by
  intro x hx
  simpa using (List.mem_filter.mp hx).2

variable (h : (server codec verifyDetached).run (.start (.initial clock instant)) ms = some c)
include h

/-- By the time another thread reads a challenge, a thread that read it before and inserts a
session has come to its delete. -/
theorem delete_before_read (hex : (server codec verifyDetached).Along Exclusive
      (.start (.initial clock instant)) ms) {p q₁ q₂ t₁ t₂ : Nat} {i : Bytes}
    (hp : challengeEventAt c.trace p = some (.opened t₁))
    (hq₁ : challengeEventAt c.trace q₁ = some (.read t₁ i))
    (hq₂ : challengeEventAt c.trace q₂ = some (.read t₂ i)) (ht : t₁ ≠ t₂) (hlt : q₁ < q₂) :
    ∃ d r, d < q₂ ∧ c.trace[d]? = some (t₁, ⟨.sql (.deleteChallenge i), r⟩) := by
  obtain ⟨u, x, hread₂⟩ := read_at.mp hq₂
  obtain ⟨u₁, x₁, hread₁⟩ := read_at.mp hq₁
  obtain ⟨ms₁, ω, ms₂, c₂, job, k, w, rfl, h₁, hpre, hpool, hperf, h₂⟩ :=
    Machine.event_at h hread₂ (Nat.zero_le _)
  have hrow : ∃ x ∈ c₂.world.db.authChallenges, x.challengeId = i ∧ x.userHashId = u := by
    rcases perform_sql hperf with ⟨-, e, he⟩ | ⟨hr, -⟩
    · exact nomatch he
    · exact ⟨x, selectChallenge_sound hr.symm⟩
  have hnot : ∀ t' < c₂.pool.length, t' ≠ t₂ → ¬ WorksOn c₂ t' i := by
    have hsafe := hex.at h₁
    simp only [Exclusive, hpool] at hsafe
    exact hsafe hrow
  have hseen : (t₁, ⟨.sql (.selectChallenge i u₁), .ok x₁⟩) ∈ c₂.trace := by
    rw [hpre]
    exact mem_take_iff.mpr ⟨q₁, hlt, hread₁⟩
  by_contra hnone
  have hdel : ∀ r, (t₁, ⟨.sql (.deleteChallenge i), r⟩) ∉ c₂.trace := by
    intro r hr
    rw [hpre] at hr
    obtain ⟨d, hd, hdel⟩ := mem_take_iff.mp hr
    exact hnone ⟨d, r, hd, hdel⟩
  obtain ⟨⟨job₁, rest⟩, hpool₁⟩ := Machine.pool_of_mem h₁ hseen
  cases rest with
  | perform o k =>
      obtain ⟨hlt₁, -⟩ := List.getElem?_eq_some_iff.mp hpool₁
      refine hnot t₁ hlt₁ ht ⟨⟨_, hseen, rfl⟩, ?_, by simp only [Config.running, hpool₁]⟩
      rintro ⟨t, o, r⟩ he rfl rfl
      exact hdel r he
  | ret a =>
      -- the thread has answered, so all it ever did is in the history already
      obtain ⟨d, r, -, hd⟩ := delete_of_opened h hp hq₁
      rw [← hpre] at h₂
      have hpast := Machine.past_of_ret (Machine.Step.run_cons (.step hpool hperf) h₂) hpool₁
      have hmem : (⟨.sql (.deleteChallenge i), r⟩ : Event Res) ∈ past t₁ c.trace :=
        mem_past.mpr (List.mem_of_getElem? hd)
      rw [hpast] at hmem
      exact hdel r (mem_past.mp hmem)

/-- No two threads get sessions from one row. -/
theorem one_thread (hex : (server codec verifyDetached).Along Exclusive
      (.start (.initial clock instant)) ms) {p j q₁ q₂ t₁ t₂ : Nat} {i : Bytes}
    (hp : challengeEventAt c.trace p = some (.opened t₁))
    (hq₁ : challengeEventAt c.trace q₁ = some (.read t₁ i))
    (hq₂ : challengeEventAt c.trace q₂ = some (.read t₂ i)) (hj : j < q₁) (hlt : q₁ < q₂)
    (hlast : ∀ k < q₂, j < k → challengeEventAt c.trace k ≠ some (.issued i)) : t₁ = t₂ := by
  by_contra ht
  obtain ⟨d, r, hdlt, hd⟩ := delete_before_read h hex hp hq₁ hq₂ ht hlt
  obtain ⟨hqd, v, hv, key, message, signature, hver⟩ := delete_after h hp hq₁ hd
  obtain ⟨u, x, hread⟩ := read_at.mp hq₂
  obtain ⟨ms₁, ω, ms₂, c₁, job, k, w, rfl, h₁, hpre, hpool, hperf, h₂⟩ :=
    Machine.event_at h hd (Nat.zero_le _)
  have hverified : (t₁, ⟨.verify key message signature, true⟩) ∈ c₁.trace := by
    rw [hpre]
    exact mem_take_iff.mpr ⟨v, hv, hver⟩
  have hω : ω.fails = false := by
    have hsafe := hex.at h₁
    simp only [Exclusive, hpool] at hsafe
    exact hsafe ⟨_, hverified, rfl, rfl⟩
  -- the delete is executed, and then no row has the id until a new one is inserted
  have hexec : w = { c₁.world with
      db := ((Stmt.deleteChallenge i).exec c₁.world.clock c₁.world.db).2 } := by
    cases ω with
    | fail e => exact nomatch hω
    | _ =>
        obtain ⟨-, rfl⟩ := Prod.mk.inj (Option.some.inj hperf)
        rfl
  subst hexec
  have hlen : (c.trace.take d ++ [(t₁, ⟨.sql (.deleteChallenge i), r⟩)] : History).length = d + 1 := by
    have := (List.getElem?_eq_some_iff.mp hd).1
    simp only [List.length_append, List.length_take, List.length_singleton]
    omega
  obtain ⟨ms₃, ω', ms₄, c₂, job', k', w', rfl, h₃, hpre₂, -, hperf₂, -⟩ :=
    Machine.event_at h₂ hread (by simp only [hlen]; omega)
  have hrow : ∃ x ∈ c₂.world.db.authChallenges, x.challengeId = i := by
    rcases perform_sql hperf₂ with ⟨-, e, he⟩ | ⟨hr, -⟩
    · exact nomatch he
    · obtain ⟨hx, hid, -⟩ := selectChallenge_sound hr.symm
      exact ⟨x, hx, hid⟩
  obtain ⟨n, hle, hissued⟩ :=
    issued_between h₃ (deleteChallenge_exec c₁.world.clock c₁.world.db i) hrow
  rw [hpre₂] at hissued
  obtain ⟨hn, hissued⟩ := eventAt_of_take hissued
  exact hlast n hn (by simp only [hlen] at hle; omega) hissued

/-- **A challenge is consumed at most once** in every run whose moves are `Exclusive`: two
sessions created from one row are one session. -/
theorem challenge_consumed_once (hex : (server codec verifyDetached).Along Exclusive
      (.start (.initial clock instant)) ms) {i p p' : Nat} (hp : CreatedFrom c.trace i p)
    (hp' : CreatedFrom c.trace i p') : p = p' := by
  obtain ⟨t, challengeId, q, hopen, -, hread, hiq, hissued, hlast⟩ := hp
  obtain ⟨t', challengeId', q', hopen', -, hread', hiq', hissued', hlast'⟩ := hp'
  obtain rfl : challengeId = challengeId' := by
    rw [hissued] at hissued'
    exact ChallengeEvent.issued.inj (Option.some.inj hissued')
  have hthread : t = t' := by
    rcases lt_trichotomy q q' with hlt | rfl | hlt
    · exact one_thread h hex hopen hread hread' hiq hlt hlast'
    · rw [hread] at hread'
      exact (ChallengeEvent.read.inj (Option.some.inj hread')).1
    · exact (one_thread h hex hopen' hread' hread hiq' hlt hlast).symm
  subst hthread
  obtain ⟨u, x, hsel⟩ := read_at.mp hread
  obtain ⟨req, proof, hjob, -, -⟩ := proof_of_read h hsel
  exact opened_once h hjob hopen hopen'

omit h

namespace Sample

/-- The answer of user 1 to the challenge 7, whose nonce is 8. -/
def answerSigned : List (Bytes × Bytes) := [(key 1, word 8 ++ word 1 ++ le64 5)]

/-- User 1 registers and asks for the challenge 7, which is inserted at place 7. -/
def challengeRun : Moves :=
  registers 0 1 ++
  .spawn (.request (.login ⟨"0.1.2", word 1, true, none⟩)) :: steps 1 2 ++
  .step 1 (random 7) :: .step 1 (random 8) :: steps 1 4

def answer : Job := .request (.login ⟨"0.1.2", word 1, false, some ⟨word 7, signature, 5⟩⟩)

/-- Thread `t` goes from its read of the challenge to its session, with the token `i`. -/
def opens (t : Nat) (i : UInt8) : Moves := steps t 3 ++ .step t (random i) :: steps t 2

/-- One answer. -/
def answerRun : Moves := challengeRun ++ .spawn answer :: steps 2 3 ++ opens 2 9

/-- Two answers that both read the challenge before either deletes it. -/
def raceRun : Moves :=
  challengeRun ++ [.spawn answer, .spawn answer] ++ steps 2 3 ++ steps 3 3 ++ opens 2 9 ++ opens 3 10

end Sample

/-- The events of a history, one after the other. -/
theorem challengeEventAt_eq (tr : History) (p : Nat) :
    challengeEventAt tr p = ((tr.map challengeEvent)[p]?).join := by
  rw [challengeEventAt, List.getElem?_map]
  cases tr[p]? <;> rfl

open Sample in
/-- Two sessions are created from the challenge row inserted at place 7. -/
theorem challenge_race : ∃ c, final answerSigned raceRun = some c ∧
    CreatedFrom c.trace 7 20 ∧ CreatedFrom c.trace 7 26 := by
  have hrun : ((final answerSigned raceRun).map fun c ↦ c.trace.map challengeEvent) = some
      [none, none, none, none, none, none, none, some (.issued (word 7)), none,
       none, none, some (.read 2 (word 7)), none, none, some (.read 3 (word 7)),
       none, none, none, none, none, some (.opened 2),
       none, none, none, none, none, some (.opened 3)] := by decide +kernel
  obtain ⟨c, hc, hev⟩ := Option.map_eq_some_iff.mp hrun
  refine ⟨c, hc, ⟨2, word 7, 11, ?_⟩, 3, word 7, 14, ?_⟩
  all_goals
    simp only [challengeEventAt_eq, hev]
    decide

open Sample in
theorem challenge_consumed_once_answerRun :
    ∃ c, final answerSigned answerRun = some c ∧ CreatedFrom c.trace 7 17 ∧
      ∀ p, CreatedFrom c.trace 7 p → p = 17 := by
  have hrun : ((final answerSigned answerRun).map fun c ↦ c.trace.map challengeEvent) = some
      [none, none, none, none, none, none, none, some (.issued (word 7)), none,
       none, none, some (.read 2 (word 7)), none, none, none, none, none, some (.opened 2)] := by
    decide +kernel
  have hex : (system answerSigned).Along Exclusive (.start (.initial 0 0)) answerRun :=
    Machine.along_of_check (by decide +kernel)
  obtain ⟨c, hc, hev⟩ := Option.map_eq_some_iff.mp hrun
  have hcreated : CreatedFrom c.trace 7 17 := by
    refine ⟨2, word 7, 11, ?_⟩
    simp only [challengeEventAt_eq, hev]
    decide
  exact ⟨c, hc, hcreated, fun p hp ↦ challenge_consumed_once hc hex hp hcreated⟩

end ZenthDht
