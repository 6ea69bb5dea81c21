import ZenthDht.Spec.Statements

/-!
# Concurrent changes of the keys of an account

PUBLISH_RECOVERY_KEY replaces the recovery key of a user and is signed with the identity key;
RECOVERY_CLAIM replaces the identity key and is signed with the recovery key.  Both read the row,
verify, and update the row later, so each may be verified under a key that the other is about to
replace: both are accepted, which running them one after the other does not give
(`both_accepted`).  This is the only way in which they are not serialisable
(`key_changes_serialisable`).
-/

namespace ZenthDht

open Conc

/-! ## The two requests -/

/-- The request is refused and does nothing more. -/
def Refuses (p : Program StmtRes (Option Reply)) : Prop :=
  ∃ r, p = .ret (some r) ∧ r.success = false

/-- The signature of the request is valid under the identity key. -/
def PublishRecoveryKeyRequest.SignedBy (verifyDetached : Bytes → Bytes → Bytes → Bool)
    (req : PublishRecoveryKeyRequest) (key : Bytes) : Bool :=
  verifyDilithiumSignature verifyDetached key req.signedData req.authSignature

/-- The signature of the request is valid under the recovery key. -/
def RecoveryClaimRequest.SignedBy (verifyDetached : Bytes → Bytes → Bytes → Bool)
    (req : RecoveryClaimRequest) (key : Bytes) : Bool :=
  verifyDilithiumSignature verifyDetached key req.signedData req.recoverySignature

/-- What PUBLISH_RECOVERY_KEY does once its signature has been verified. -/
def publishWrite (req : PublishRecoveryKeyRequest) :
    Handler (Except String PublishRecoveryKeyResponse) := do
  match ← sql (.updateRecoveryKey req.usernameHash req.recoveryDilithiumPubkey) with
  | .error e => pure (.error s!"DB update: {e.toString}")
  | .ok _ => pure (.ok { success := true })

/-- What RECOVERY_CLAIM does once its signature has been verified. -/
def claimWrite (req : RecoveryClaimRequest) : Handler (Except String RecoveryClaimResponse) := do
  match ← sql (.updateIdentity req.usernameHash req.newIdentityDilithiumPubkey
      req.newIdentitySignature req.newPreKeyBundle) with
  | .error e => pure (.error s!"DB update identity: {e.toString}")
  | .ok _ =>
  let sessionToken ← randomBytes
  let now ← utcNow
  match ← sql (.insertSession {
      sessionToken := sessionToken.1, userHashId := req.usernameHash,
      sessionExpiry := now + days 30 }) with
  | .error e => pure (.error s!"DB insert session: {e.toString}")
  | .ok _ => pure (.ok { success := true, sessionToken := sessionToken.1 })

/-- The request reads the row of `u`, is refused unless the row satisfies `accepts`, and then
runs `write`. -/
structure Reads (u : Bytes) (accepts : User → Bool) (write : Program StmtRes (Option Reply))
    (now : NaiveDateTime) (k : StmtRes ⟨.selectUser u, now⟩ → Program StmtRes (Option Reply)) :
    Prop where
  missing : ∀ err, Refuses (k (.error err))
  found : ∀ row, accepts row = true → k (.ok row) = write
  refused : ∀ row, accepts row = false → Refuses (k (.ok row))

theorem statements_publish (codec : Codec) (verifyDetached : Bytes → Bytes → Bytes → Bool) (e : Env)
    (req : PublishRecoveryKeyRequest) :
    Refuses (statements verifyDetached (code codec (.request (.publishRecoveryKey req))) e) ∨
    req.recoveryDilithiumPubkey ≠ [] ∧ ∃ now k write,
      statements verifyDetached (code codec (.request (.publishRecoveryKey req))) e =
        .perform ⟨.selectUser req.usernameHash, now⟩ k ∧
      Reads req.usernameHash (fun row ↦ req.SignedBy verifyDetached row.identityKeyDilithium)
        write now k ∧
      (Refuses write ∨ ∃ now done, write =
        .perform ⟨.updateRecoveryKey req.usernameHash req.recoveryDilithiumPubkey, now⟩ done ∧
        ∀ r, ∃ reply, done r = .ret (some reply) ∧ (r.isOk → reply.success = true)) := by
  obtain ⟨answer, hanswer⟩ : ∃ answer : _ → Handler (Option Reply), answer = fun r ↦
      .ret (some (.explained .publishRecoveryKey (·.success) (·.errorMessage) r)) := ⟨_, rfl⟩
  have hcode : code codec (.request (.publishRecoveryKey req)) = publishRecoveryKey req >>= answer :=
    hanswer ▸ Program.bind_assoc _ _ _
  rw [hcode]
  unfold publishRecoveryKey
  iterate 3
    split
    · exact .inl ⟨_, by rw [hanswer]; rfl, rfl⟩
  next hkey _ =>
  rw [statements_fresh]
  split
  · exact .inl ⟨_, by rw [hanswer]; rfl, rfl⟩
  cases hsel : (e.tail 0).fails with
  | some m =>
      rw [statements_fails hsel]
      exact .inl ⟨_, by rw [hanswer]; rfl, rfl⟩
  | none =>
  rw [statements_executes hsel]
  refine .inr ⟨hkey, _, _, statements verifyDetached (publishWrite req >>= answer) e.tail.tail.tail,
    rfl, ⟨fun err ↦ ⟨_, by rw [hanswer]; rfl, rfl⟩, fun row hv ↦ ?_, fun row hv ↦ ?_⟩, ?_⟩
  · have hv : verifyDilithiumSignature verifyDetached row.identityKeyDilithium req.signedData
      req.authSignature = true := hv
    simp only [statements_verify, hv]
    rfl
  · have hv : verifyDilithiumSignature verifyDetached row.identityKeyDilithium req.signedData
      req.authSignature = false := hv
    simp only [statements_verify, hv]
    exact ⟨_, by rw [hanswer]; rfl, rfl⟩
  · unfold publishWrite
    cases hupd : (e.tail.tail.tail 0).fails with
    | some m =>
        rw [statements_fails hupd]
        exact .inl ⟨_, by rw [hanswer]; rfl, rfl⟩
    | none =>
        rw [statements_executes hupd]
        refine .inr ⟨_, _, rfl, fun r ↦ ?_⟩
        cases r with
        | error err => exact ⟨_, by rw [hanswer]; rfl, nofun⟩
        | ok n => exact ⟨_, by rw [hanswer]; rfl, fun _ ↦ rfl⟩

theorem statements_claim (codec : Codec) (verifyDetached : Bytes → Bytes → Bytes → Bool) (e : Env)
    (req : RecoveryClaimRequest) :
    Refuses (statements verifyDetached (code codec (.request (.recoveryClaim req))) e) ∨
    ∃ now k write,
      statements verifyDetached (code codec (.request (.recoveryClaim req))) e =
        .perform ⟨.selectUser req.usernameHash, now⟩ k ∧
      Reads req.usernameHash (fun row ↦ (row.recoveryDilithiumPubkey.filter (· ≠ [])).any
        (req.SignedBy verifyDetached)) write now k ∧
      (Refuses write ∨ ∃ now rest, write =
        .perform ⟨.updateIdentity req.usernameHash req.newIdentityDilithiumPubkey
          req.newIdentitySignature req.newPreKeyBundle, now⟩ rest ∧
        ∀ r, (rest r).Only fun o ↦ ∃ n now, o = ⟨.insertSession n, now⟩) := by
  obtain ⟨answer, hanswer⟩ : ∃ answer : _ → Handler (Option Reply), answer = fun r ↦
      .ret (some (.explained .recoveryClaim (·.success) (·.errorMessage) r)) := ⟨_, rfl⟩
  have hcode : code codec (.request (.recoveryClaim req)) = recoveryClaim req >>= answer :=
    hanswer ▸ Program.bind_assoc _ _ _
  rw [hcode]
  unfold recoveryClaim
  iterate 3
    split
    · exact .inl ⟨_, by rw [hanswer]; rfl, rfl⟩
  rw [statements_fresh]
  split
  · exact .inl ⟨_, by rw [hanswer]; rfl, rfl⟩
  cases hsel : (e.tail 0).fails with
  | some m =>
      rw [statements_fails hsel]
      exact .inl ⟨_, by rw [hanswer]; rfl, rfl⟩
  | none =>
  rw [statements_executes hsel]
  refine .inr ⟨_, _, statements verifyDetached (claimWrite req >>= answer) e.tail.tail.tail, rfl,
    ⟨fun err ↦ ⟨_, by rw [hanswer]; rfl, rfl⟩, fun row hv ↦ ?_, fun row hv ↦ ?_⟩, ?_⟩
  · simp only
    cases hkey : row.recoveryDilithiumPubkey.filter (· ≠ []) with
    | none =>
        rw [hkey] at hv
        exact nomatch hv
    | some key =>
        rw [hkey] at hv
        have hv : verifyDilithiumSignature verifyDetached key req.signedData
          req.recoverySignature = true := hv
        simp only [statements_verify, hv]
        rfl
  · simp only
    cases hkey : row.recoveryDilithiumPubkey.filter (· ≠ []) with
    | none => exact ⟨_, by rw [hanswer]; rfl, rfl⟩
    | some key =>
        rw [hkey] at hv
        have hv : verifyDilithiumSignature verifyDetached key req.signedData
          req.recoverySignature = false := hv
        simp only [statements_verify, hv]
        exact ⟨_, by rw [hanswer]; rfl, rfl⟩
  · unfold claimWrite
    cases hupd : (e.tail.tail.tail 0).fails with
    | some m =>
        rw [statements_fails hupd]
        exact .inl ⟨_, by rw [hanswer]; rfl, rfl⟩
    | none =>
        rw [statements_executes hupd]
        refine .inr ⟨_, _, rfl, fun r ↦ ?_⟩
        cases r with
        | error err =>
            rw [hanswer]
            trivial
        | ok n =>
            simp only [statements_randomBytes, statements_utcNow]
            cases hins : (e.tail.tail.tail.tail.tail.tail 0).fails with
            | some m =>
                rw [statements_fails hins, hanswer]
                trivial
            | none =>
                rw [statements_executes hins, hanswer]
                refine ⟨⟨_, _, rfl⟩, fun r ↦ ?_⟩
                cases r <;> trivial

/-! ## What they touch -/

section

variable {u k g b : Bytes} {n : NewSession} {t t' : NaiveDateTime} {db : Db}

/-- The row with a new recovery key, if it is that of `u`. -/
def setRecoveryKey (u k : Bytes) (x : User) : User :=
  if x.userHashId = u then { x with recoveryDilithiumPubkey := some k } else x

/-- The row with a new identity, if it is that of `u`. -/
def setIdentity (u k g b : Bytes) (x : User) : User :=
  if x.userHashId = u then
    { x with identityKeyDilithium := k, identitySignature := g, preKeyBundle := b }
  else x

@[simp] theorem setRecoveryKey_userHashId (x : User) :
    (setRecoveryKey u k x).userHashId = x.userHashId := by
  unfold setRecoveryKey
  split <;> rfl

@[simp] theorem setIdentity_userHashId (x : User) :
    (setIdentity u k g b x).userHashId = x.userHashId := by
  unfold setIdentity
  split <;> rfl

theorem setIdentity_setRecoveryKey {k' : Bytes} (x : User) :
    setIdentity u k g b (setRecoveryKey u k' x) = setRecoveryKey u k' (setIdentity u k g b x) := by
  unfold setIdentity setRecoveryKey
  by_cases hx : x.userHashId = u
  · simp [hx]
  · simp [hx]

theorem execute_updateRecoveryKey : execute ⟨.updateRecoveryKey u k, t⟩ db =
    (.ok (db.users.countP fun x ↦ x.userHashId = u),
      { db with users := db.users.map (setRecoveryKey u k) }) := rfl

theorem execute_updateIdentity : execute ⟨.updateIdentity u k g b, t⟩ db =
    (.ok (db.users.countP fun x ↦ x.userHashId = u),
      { db with users := db.users.map (setIdentity u k g b) }) := rfl

theorem updates_commute {k' : Bytes} :
    Commutes execute ⟨.updateIdentity u k g b, t⟩ ⟨.updateRecoveryKey u k', t'⟩ where
  left db := by
    simp only [execute_updateIdentity, execute_updateRecoveryKey, List.countP_map]
    simp [Function.comp_def]
  right db := by
    simp only [execute_updateIdentity, execute_updateRecoveryKey, List.countP_map]
    simp [Function.comp_def]
  world db := by
    simp only [execute_updateIdentity, execute_updateRecoveryKey, List.map_map]
    simp [Function.comp_def, setIdentity_setRecoveryKey]

theorem execute_insertSession_users : (execute ⟨.insertSession n, t⟩ db).2.users = db.users := by
  simp only [execute, Stmt.exec]
  repeat' split
  all_goals rfl

theorem insertSession_commutes_select :
    Commutes execute ⟨.insertSession n, t⟩ ⟨.selectUser u, t'⟩ where
  left _ := rfl
  right db := by
    change Stmt.first (List.filter _ (execute ⟨.insertSession n, t⟩ db).2.users) = _
    rw [execute_insertSession_users]
    rfl
  world _ := rfl

theorem hasUser_setRecoveryKey {v : Bytes} :
    Db.hasUser { db with users := db.users.map (setRecoveryKey u k) } v = db.hasUser v := by
  simp [Db.hasUser, List.any_map, Function.comp_def]

theorem insertSession_commutes_publish :
    Commutes execute ⟨.insertSession n, t⟩ ⟨.updateRecoveryKey u k, t'⟩ where
  left db := by
    rw [execute_updateRecoveryKey]
    simp only [execute, Stmt.exec, hasUser_setRecoveryKey]
    repeat' split
    all_goals rfl
  right db := by
    simp only [execute_updateRecoveryKey, execute_insertSession_users]
  world db := by
    rw [execute_updateRecoveryKey, execute_updateRecoveryKey]
    simp only [execute, Stmt.exec, hasUser_setRecoveryKey]
    repeat' split
    all_goals rfl

/-! ## Serialisability -/

/-- Whether a request was accepted. -/
def accepted (r : Option Reply) : Bool := r.any Reply.success

/-- What a user can tell apart: which of the two requests were accepted, and the row of `u`. -/
def outcome (u : Bytes) (claim publish : Option Reply) (db : Db) : Bool × Bool × List User :=
  (accepted claim, accepted publish, db.users.filter fun x ↦ x.userHashId = u)

/-- The claim `p` and the publication `q`, run together, have ended as they do one after the
other, in one of the two orders. -/
def Serialisable (u : Bytes) (p q : Program StmtRes (Option Reply)) (db : Db)
    (r₁ r₂ : Option Reply) (db' : Db) : Prop :=
  (∃ s₁ s₂ d, InTurn execute p q db s₁ s₂ d ∧ outcome u s₁ s₂ d = outcome u r₁ r₂ db') ∨
  ∃ s₁ s₂ d, InTurn execute q p db s₂ s₁ d ∧ outcome u s₁ s₂ d = outcome u r₁ r₂ db'

theorem Refuses.alone {p : Program StmtRes (Option Reply)} (h : Refuses p) :
    ∃ r, p.alone execute db = (some r, db) ∧ r.success = false := by
  obtain ⟨r, rfl, hr⟩ := h
  exact ⟨r, rfl, hr⟩

/-- A request that is refused, after nothing but reads, has run first. -/
theorem Refuses.inTurn {p p' q q' : Program StmtRes (Option Reply)} {tr : List (Side × TimedStmt)}
    {r₁ r₂ : Option Reply} {db' : Db} (hr : Refuses p')
    (h : Interleaves execute p' q' db tr r₁ r₂ db')
    (hp : p.alone execute db = p'.alone execute db) (hq : q.alone execute db = q'.alone execute db) :
    InTurn execute p q db r₁ r₂ db' ∧ ∀ x, (Side.left, x) ∉ tr := by
  obtain ⟨r, rfl, -⟩ := hr
  obtain ⟨⟨w, hfirst, hsecond⟩, hno⟩ := h.inTurn_of_ret
  obtain ⟨rfl, rfl⟩ := Prod.mk.inj hfirst
  exact ⟨⟨db, hp, hq.trans hsecond⟩, hno⟩

theorem Refuses.writesOnce {p q : Program StmtRes (Option Reply)} (hr : Refuses p) :
    WritesOnce execute q p := by
  obtain ⟨r, rfl, -⟩ := hr
  trivial

/-- The row found after an update of all rows. -/
theorem select_map {f : User → User} (hf : ∀ x, (f x).userHashId = x.userHashId) {row : User}
    (h : (execute ⟨.selectUser u, t⟩ db).1 = .ok row) {d : Db} (hd : d.users = db.users.map f) :
    (execute ⟨.selectUser u, t'⟩ d).1 = .ok (f row) := by
  change Stmt.first (db.users.filter _) = _ at h
  change Stmt.first (d.users.filter _) = _
  rw [hd, List.filter_map]
  simp only [Function.comp_def, hf]
  cases hrows : db.users.filter fun x ↦ x.userHashId = u with
  | nil =>
      rw [hrows] at h
      exact nomatch h
  | cons x xs =>
      rw [hrows] at h
      exact congrArg (fun x ↦ Except.ok (f x)) (Except.ok.inj h)

theorem select_of_filter {d d' : Db} {row row' : User}
    (hd : (d.users.filter fun x ↦ x.userHashId = u) = d'.users.filter fun x ↦ x.userHashId = u)
    (h : (execute ⟨.selectUser u, t⟩ d).1 = .ok row)
    (h' : (execute ⟨.selectUser u, t⟩ d').1 = .ok row') : row = row' := by
  have hsame : (execute ⟨.selectUser u, t⟩ d).1 = (execute ⟨.selectUser u, t⟩ d').1 :=
    congrArg Stmt.first hd
  rw [h, h'] at hsame
  exact Except.ok.inj hsame

/-- Opening sessions leaves the accounts alone. -/
theorem users_of_only {p : Program StmtRes (Option Reply)}
    (h : p.Only fun o ↦ ∃ n now, o = ⟨.insertSession n, now⟩) :
    (p.alone execute db).2.users = db.users := by
  induction p generalizing db with
  | ret a => rfl
  | perform o k ih =>
      obtain ⟨⟨n, now, rfl⟩, hrest⟩ := h
      exact (ih _ (hrest _)).trans execute_insertSession_users

section

variable {accepts : User → Bool} {write : Program StmtRes (Option Reply)} {now : NaiveDateTime}
  {kr : StmtRes ⟨.selectUser u, now⟩ → Program StmtRes (Option Reply)} {row : User}

theorem Reads.writesOnce {q : Program StmtRes (Option Reply)} (h : Reads u accepts write now kr)
    (hw : (∃ row, accepts row = true) → WritesOnce execute q write)
    (r : StmtRes ⟨.selectUser u, now⟩) : WritesOnce execute q (kr r) := by
  cases r with
  | error err => exact (h.missing err).writesOnce
  | ok row =>
      cases hacc : accepts row with
      | false => exact (h.refused row hacc).writesOnce
      | true =>
          rw [h.found row hacc]
          exact hw ⟨row, hacc⟩

/-- A request that is not refused has found a row that it accepts. -/
theorem Reads.of_not_refused (h : Reads u accepts write now kr)
    (hno : ¬ Refuses (kr (execute ⟨.selectUser u, now⟩ db).1)) :
    ∃ row, (execute ⟨.selectUser u, now⟩ db).1 = .ok row ∧ accepts row = true ∧
      kr (execute ⟨.selectUser u, now⟩ db).1 = write := by
  cases hrow : (execute ⟨.selectUser u, now⟩ db).1 with
  | error err => exact absurd (hrow ▸ h.missing err) hno
  | ok row =>
      cases hacc : accepts row with
      | false => exact absurd (hrow ▸ h.refused row hacc) hno
      | true => exact ⟨row, rfl, hacc, h.found row hacc⟩

theorem Reads.alone_accepted (h : Reads u accepts write now kr)
    (hrow : (execute ⟨.selectUser u, now⟩ db).1 = .ok row) (ha : accepts row = true) :
    (Program.perform ⟨.selectUser u, now⟩ kr).alone execute db = write.alone execute db := by
  simp only [Program.alone, hrow, h.found row ha]
  rfl

theorem Reads.alone_refused (h : Reads u accepts write now kr)
    (hrow : (execute ⟨.selectUser u, now⟩ db).1 = .ok row) (ha : accepts row = false) :
    ∃ r, (Program.perform ⟨.selectUser u, now⟩ kr).alone execute db = (some r, db) ∧
      r.success = false := by
  simp only [Program.alone, hrow]
  exact (h.refused row ha).alone

end

/-- The log has no operation of one of the two. -/
theorem not_overlap {tr : List (Side × TimedStmt)} {s : Side} (h : ∀ x, (s, x) ∉ tr) :
    ¬ Overlap tr := by
  rintro ⟨s', o, o', tr', rfl, ⟨x, hx⟩, y, hy⟩
  cases s with
  | left => exact h x (List.mem_cons_of_mem _ (List.mem_cons_of_mem _ hx))
  | right => exact h y (List.mem_cons_of_mem _ (List.mem_cons_of_mem _ hy))

/-- Requests that have run one after the other and do not overlap. -/
theorem serialisable_of_inTurn {p q : Program StmtRes (Option Reply)} {r₁ r₂ : Option Reply}
    {db' : Db} {tr : List (Side × TimedStmt)} {signed : Prop} (hno : ¬ Overlap tr)
    (h : InTurn execute p q db r₁ r₂ db' ∨ InTurn execute q p db r₂ r₁ db') :
    Serialisable u p q db r₁ r₂ db' ↔ ¬ (Overlap tr ∧ signed) :=
  ⟨fun _ hconflict ↦ hno hconflict.1, fun _ ↦
    h.imp (fun h ↦ ⟨r₁, r₂, db', h, rfl⟩) fun h ↦ ⟨r₁, r₂, db', h, rfl⟩⟩

section Overlapping

variable {signedC signedP : Bytes → Bool} {k' : Bytes} {now₁ now₂ t₁ t₂ : NaiveDateTime}
variable {kC : StmtRes ⟨.selectUser u, now₁⟩ → Program StmtRes (Option Reply)}
  {kP : StmtRes ⟨.selectUser u, now₂⟩ → Program StmtRes (Option Reply)}
variable {rest : StmtRes ⟨.updateIdentity u k g b, t₁⟩ → Program StmtRes (Option Reply)}
  {done : StmtRes ⟨.updateRecoveryKey u k', t₂⟩ → Program StmtRes (Option Reply)}
variable {row : User} {tr : List (Side × TimedStmt)} {r₁ r₂ : Option Reply} {db' : Db}

/-- The two updates commute, and so does the session that the claim opens. -/
theorem writes_commute
    (hrest : ∀ r, (rest r).Only fun o ↦ ∃ n now, o = ⟨.insertSession n, now⟩)
    (hdone : ∀ r, ∃ reply, done r = .ret (some reply)) :
    (Program.perform ⟨.updateRecoveryKey u k', t₂⟩ done).Only fun o ↦
      (Program.perform ⟨.updateIdentity u k g b, t₁⟩ rest).Only fun o' ↦ Commutes execute o' o := by
  refine ⟨⟨updates_commute, fun r ↦ (hrest r).mono ?_⟩, fun r ↦ ?_⟩
  · rintro _ ⟨n, now, rfl⟩
    exact insertSession_commutes_publish
  · obtain ⟨reply, hreply⟩ := hdone r
    rw [hreply]
    trivial

theorem claimed_users
    (hrest : ∀ r, (rest r).Only fun o ↦ ∃ n now, o = ⟨.insertSession n, now⟩) {d : Db}
    (h : (Program.perform ⟨.updateIdentity u k g b, t₁⟩ rest).alone execute db = (r₁, d)) :
    d.users = db.users.map (setIdentity u k g b) := by
  have hd : d = _ := (congrArg Prod.snd h).symm
  rw [hd]
  exact users_of_only (hrest _)

/-- Both requests have read the same row and go on to update it.  They are serialisable if the
signature of one of them is valid under the key that the other sets. -/
theorem overlapping_serialisable
    (hC : Reads u (fun row ↦ (row.recoveryDilithiumPubkey.filter (· ≠ [])).any signedC)
      (.perform ⟨.updateIdentity u k g b, t₁⟩ rest) now₁ kC)
    (hP : Reads u (fun row ↦ signedP row.identityKeyDilithium)
      (.perform ⟨.updateRecoveryKey u k', t₂⟩ done) now₂ kP)
    (hrest : ∀ r, (rest r).Only fun o ↦ ∃ n now, o = ⟨.insertSession n, now⟩)
    (hdone : ∀ r, ∃ reply, done r = .ret (some reply) ∧ (r.isOk → reply.success = true))
    (hk' : k' ≠ []) (hrow : (execute ⟨.selectUser u, now₁⟩ db).1 = .ok row)
    (haC : (row.recoveryDilithiumPubkey.filter (· ≠ [])).any signedC = true)
    (haP : signedP row.identityKeyDilithium = true)
    (h : Interleaves execute (.perform ⟨.updateIdentity u k g b, t₁⟩ rest)
      (.perform ⟨.updateRecoveryKey u k', t₂⟩ done) db tr r₁ r₂ db') :
    Serialisable u (.perform ⟨.selectUser u, now₁⟩ kC) (.perform ⟨.selectUser u, now₂⟩ kP) db
      r₁ r₂ db' ↔ ¬ (signedP k = false ∧ signedC k' = false) := by
  have hcomm := writes_commute hrest fun r ↦ (hdone r).imp fun _ h ↦ h.1
  obtain ⟨d₁, hC₁, hP₁⟩ := h.serial hcomm
  obtain ⟨d₂, hP₂, hC₂⟩ := h.symm.serial hcomm.swap
  have hrow₂ : (execute ⟨.selectUser u, now₂⟩ db).1 = .ok row := hrow
  have husers₁ : d₁.users = db.users.map (setIdentity u k g b) :=
    claimed_users hrest hC₁
  have husers' : db'.users = d₂.users.map (setIdentity u k g b) :=
    claimed_users hrest hC₂
  obtain ⟨reply, hreply, hok⟩ := hdone (execute ⟨.updateRecoveryKey u k', t₂⟩ db).1
  simp only [Program.alone, hreply] at hP₂
  obtain ⟨rfl, rfl⟩ := Prod.mk.inj hP₂
  have hr₂ : reply.success = true := hok rfl
  have husers₂ : (execute ⟨.updateRecoveryKey u k', t₂⟩ db).2.users =
      db.users.map (setRecoveryKey u k') := rfl
  -- what each request finds when the other one has run
  have hu : row.userHashId = u := (selectUser_sound hrow).2
  have hfound₁ : (execute ⟨.selectUser u, now₂⟩ d₁).1 = .ok (setIdentity u k g b row) :=
    select_map setIdentity_userHashId hrow husers₁
  have hfound₂ : (execute ⟨.selectUser u, now₁⟩ _).1 = .ok (setRecoveryKey u k' row) :=
    select_map setRecoveryKey_userHashId hrow husers₂
  have hkey₁ : (setIdentity u k g b row).identityKeyDilithium = k := by simp [setIdentity, hu]
  have hkey₂ : ((setRecoveryKey u k' row).recoveryDilithiumPubkey.filter (· ≠ [])).any signedC =
      signedC k' := by simp [setRecoveryKey, hu, hk']
  have hclaim := (hC.alone_accepted hrow haC).trans hC₁
  have hpublish : (Program.perform ⟨.selectUser u, now₂⟩ kP).alone execute db =
      (some reply, (execute ⟨.updateRecoveryKey u k', t₂⟩ db).2) := by
    rw [hP.alone_accepted hrow₂ haP, Program.alone, hreply]
    rfl
  constructor
  · rintro (⟨s₁, s₂, d, ⟨w₁, hfirst, hsecond⟩, hout⟩ | ⟨s₁, s₂, d, ⟨w₁, hfirst, hsecond⟩, hout⟩)
      ⟨hsP, hsC⟩
    · -- the publication runs second and is refused
      rw [hclaim] at hfirst
      obtain ⟨rfl, rfl⟩ := Prod.mk.inj hfirst
      obtain ⟨r, hr, hno⟩ := hP.alone_refused hfound₁ (by rw [hkey₁, hsP])
      obtain ⟨rfl, rfl⟩ := Prod.mk.inj (hr.symm.trans hsecond)
      have haccepted : r.success = reply.success := (Prod.mk.inj (Prod.mk.inj hout).2).1
      rw [hno, hr₂] at haccepted
      cases haccepted
    · -- the claim runs second and is refused, so the identity key has to be the new one already
      rw [hpublish] at hfirst
      obtain ⟨rfl, rfl⟩ := Prod.mk.inj hfirst
      obtain ⟨r, hr, -⟩ := hC.alone_refused hfound₂ (by rw [hkey₂, hsC])
      obtain ⟨rfl, rfl⟩ := Prod.mk.inj (hr.symm.trans hsecond)
      have hsame := select_of_filter (Prod.mk.inj (Prod.mk.inj hout).2).2
        hfound₂ (select_map setIdentity_userHashId hfound₂ husers')
      have hident : row.identityKeyDilithium = k := by
        have := congrArg User.identityKeyDilithium hsame
        simpa [setIdentity, setRecoveryKey, hu] using this
      rw [hident, hsP] at haP
      cases haP
  · intro hsigned
    by_cases hsP : signedP k = true
    · refine .inl ⟨r₁, some reply, db', ⟨d₁, hclaim, ?_⟩, rfl⟩
      exact (hP.alone_accepted hfound₁ (by rw [hkey₁, hsP])).trans hP₁
    · have hsC : signedC k' = true := by
        by_contra hsC
        exact hsigned ⟨Bool.eq_false_of_not_eq_true hsP, Bool.eq_false_of_not_eq_true hsC⟩
      refine .inr ⟨r₁, some reply, db', ⟨_, hpublish, ?_⟩, rfl⟩
      exact (hC.alone_accepted hfound₂ (by rw [hkey₂, hsC])).trans hC₂

/-- The statements of a publication. -/
theorem publish_only {writeP : Program StmtRes (Option Reply)}
    (hP : Reads u (fun row ↦ signedP row.identityKeyDilithium) writeP now₂ kP)
    (hwriteP : Refuses writeP ∨ ∃ t₂ done, writeP = .perform ⟨.updateRecoveryKey u k', t₂⟩ done ∧
      ∀ r, ∃ reply, done r = .ret (some reply) ∧ (r.isOk → reply.success = true)) :
    (Program.perform ⟨.selectUser u, now₂⟩ kP).Only fun o : TimedStmt ↦
      (∃ now, o = ⟨.selectUser u, now⟩) ∨ ∃ now, o = ⟨.updateRecoveryKey u k', now⟩ := by
  have hrefuses : ∀ {p : Program StmtRes (Option Reply)}, Refuses p → p.Only fun o : TimedStmt ↦
      (∃ now, o = ⟨.selectUser u, now⟩) ∨ ∃ now, o = ⟨.updateRecoveryKey u k', now⟩ := by
    rintro _ ⟨r, rfl, -⟩
    trivial
  refine ⟨.inl ⟨now₂, rfl⟩, fun r ↦ ?_⟩
  cases r with
  | error err => exact hrefuses (hP.missing err)
  | ok row =>
      cases hacc : signedP row.identityKeyDilithium with
      | false => exact hrefuses (hP.refused row hacc)
      | true =>
          rw [hP.found row hacc]
          rcases hwriteP with hrefused | ⟨t₂, done, rfl, hdone⟩
          · exact hrefuses hrefused
          · refine ⟨.inr ⟨t₂, rfl⟩, fun r ↦ ?_⟩
            obtain ⟨reply, hreply, -⟩ := hdone r
            rw [hreply]
            trivial

/-- The two requests, from their reads on. -/
theorem reads_serialisable {writeC writeP : Program StmtRes (Option Reply)}
    (hC : Reads u (fun row ↦ (row.recoveryDilithiumPubkey.filter (· ≠ [])).any signedC)
      writeC now₁ kC)
    (hP : Reads u (fun row ↦ signedP row.identityKeyDilithium) writeP now₂ kP)
    (hwriteC : Refuses writeC ∨ ∃ t₁ rest, writeC = .perform ⟨.updateIdentity u k g b, t₁⟩ rest ∧
      ∀ r, (rest r).Only fun o ↦ ∃ n now, o = ⟨.insertSession n, now⟩)
    (hwriteP : Refuses writeP ∨ ∃ t₂ done, writeP = .perform ⟨.updateRecoveryKey u k', t₂⟩ done ∧
      ∀ r, ∃ reply, done r = .ret (some reply) ∧ (r.isOk → reply.success = true))
    (hk' : k' ≠ [])
    (h : Interleaves execute (.perform ⟨.selectUser u, now₁⟩ kC) (.perform ⟨.selectUser u, now₂⟩ kP)
      db tr r₁ r₂ db') :
    Serialisable u (.perform ⟨.selectUser u, now₁⟩ kC) (.perform ⟨.selectUser u, now₂⟩ kP) db
      r₁ r₂ db' ↔ ¬ (Overlap tr ∧ signedP k = false ∧ signedC k' = false) := by
  have honceC : ∀ r, WritesOnce execute (.perform ⟨.selectUser u, now₂⟩ kP) (kC r) :=
    hC.writesOnce fun hacc ↦ by
      rcases hwriteC with hrefused | ⟨t₁, rest, rfl, hrest⟩
      · exact hrefused.writesOnce
      · exact fun r ↦ (publish_only hP hwriteP).mono fun o ho ↦ (hrest r).mono (by
          rintro _ ⟨n, now, rfl⟩
          rcases ho with ⟨now, rfl⟩ | ⟨now, rfl⟩
          · exact insertSession_commutes_select
          · exact insertSession_commutes_publish)
  have honceP : ∀ r, WritesOnce execute (.perform ⟨.selectUser u, now₁⟩ kC) (kP r) :=
    hP.writesOnce fun hacc ↦ by
      rcases hwriteP with hrefused | ⟨t₂, done, rfl, hdone⟩
      · exact hrefused.writesOnce
      · intro r
        obtain ⟨reply, hreply, -⟩ := hdone r
        rw [hreply]
        exact Program.only_of_forall (fun _ ↦ trivial) _
  rcases h.reads_first (fun _ ↦ rfl) (fun _ ↦ rfl) honceC honceP with
    ⟨hno, hturn⟩ | ⟨tr', hiff, hread⟩
  · exact serialisable_of_inTurn hno hturn
  -- both have read; if one of them is refused, that one has run first
  by_cases hrefusedC : Refuses (kC (execute ⟨.selectUser u, now₁⟩ db).1)
  · obtain ⟨hturn, hno⟩ : InTurn execute (.perform ⟨.selectUser u, now₁⟩ kC)
        (.perform ⟨.selectUser u, now₂⟩ kP) db r₁ r₂ db' ∧ ∀ x, (Side.left, x) ∉ tr' :=
      hrefusedC.inTurn hread rfl rfl
    exact serialisable_of_inTurn (fun ho ↦ (hiff.mp ho).1.elim hno) (.inl hturn)
  by_cases hrefusedP : Refuses (kP (execute ⟨.selectUser u, now₂⟩ db).1)
  · obtain ⟨hturn, hno⟩ : InTurn execute (.perform ⟨.selectUser u, now₂⟩ kP)
        (.perform ⟨.selectUser u, now₁⟩ kC) db r₂ r₁ db' ∧ ∀ x, (Side.left, x) ∉ _ :=
      hrefusedP.inTurn hread.symm rfl rfl
    exact serialisable_of_inTurn (fun ho ↦ (hiff.mp ho).2.elim fun x hx ↦ hno x (mem_mirror.mpr hx))
      (.inr hturn)
  obtain ⟨row, hrow, haC, hwC⟩ := hC.of_not_refused hrefusedC
  obtain ⟨row', hrow', haP, hwP⟩ := hP.of_not_refused hrefusedP
  obtain rfl : row = row' := Except.ok.inj (hrow.symm.trans hrow')
  rw [hwC] at hread hrefusedC
  rw [hwP] at hread hrefusedP
  obtain ⟨t₁, rest, rfl, hrest⟩ := hwriteC.resolve_left hrefusedC
  obtain ⟨t₂, done, rfl, hdone⟩ := hwriteP.resolve_left hrefusedP
  have hoverlap : Overlap tr := hiff.mpr ⟨⟨_, hread.mem_left⟩, ⟨_, hread.mem_right⟩⟩
  rw [overlapping_serialisable hC hP hrest hdone hk' hrow haC haP hread]
  exact ⟨fun hno hconflict ↦ hno hconflict.2, fun hno hsigned ↦ hno ⟨hoverlap, hsigned⟩⟩

end Overlapping

end

section

variable {codec : Codec} {verifyDetached : Bytes → Bytes → Bytes → Bool} {e₁ e₂ : Env}
variable {claim : RecoveryClaimRequest} {publish : PublishRecoveryKeyRequest}
variable {db db' : Db} {tr : List (Side × TimedStmt)} {r₁ r₂ : Option Reply}

/-- The statements of a RECOVERY_CLAIM. -/
abbrev claimStatements (codec : Codec) (verifyDetached : Bytes → Bytes → Bytes → Bool) (e : Env)
    (claim : RecoveryClaimRequest) : Program StmtRes (Option Reply) :=
  statements verifyDetached (code codec (.request (.recoveryClaim claim))) e

/-- The statements of a PUBLISH_RECOVERY_KEY. -/
abbrev publishStatements (codec : Codec) (verifyDetached : Bytes → Bytes → Bytes → Bool) (e : Env)
    (publish : PublishRecoveryKeyRequest) : Program StmtRes (Option Reply) :=
  statements verifyDetached (code codec (.request (.publishRecoveryKey publish))) e

theorem publish_followed : (code codec (.request (.publishRecoveryKey publish))).Only
    Op.Followed := by
  refine Program.Only.bind (Program.Only.bind ?_ fun _ ↦ trivial) fun _ ↦ trivial
  unfold publishRecoveryKey
  iterate 3
    split
    · trivial
  refine ⟨trivial, fun now ↦ ?_⟩
  change Program.Only Op.Followed (if _ then _ else _)
  split
  · trivial
  refine ⟨trivial, fun found ↦ ?_⟩
  cases found with
  | error err => trivial
  | ok row =>
      refine ⟨trivial, fun valid ↦ ?_⟩
      cases valid with
      | false => trivial
      | true => exact ⟨trivial, fun r ↦ by cases r <;> trivial⟩

theorem claim_followed : (code codec (.request (.recoveryClaim claim))).Only Op.Followed := by
  refine Program.Only.bind (Program.Only.bind ?_ fun _ ↦ trivial) fun _ ↦ trivial
  unfold recoveryClaim
  iterate 3
    split
    · trivial
  refine ⟨trivial, fun now ↦ ?_⟩
  change Program.Only Op.Followed (if _ then _ else _)
  split
  · trivial
  refine ⟨trivial, fun found ↦ ?_⟩
  cases found with
  | error err => trivial
  | ok row =>
      dsimp only [Program.bind]
      split
      · trivial
      refine ⟨trivial, fun valid ↦ ?_⟩
      cases valid with
      | false => trivial
      | true =>
          refine ⟨trivial, fun updated ↦ ?_⟩
          cases updated with
          | error err => trivial
          | ok n =>
              exact ⟨trivial, fun token ↦ ⟨trivial, fun now ↦ ⟨trivial, fun r ↦ by
                cases r <;> trivial⟩⟩⟩

/-- A run of the server that does nothing but a claim and a publication, both to their end,
interleaves their statements. -/
theorem key_changes_interleave {t₁ t₂ : Nat} {c c' : State} {ms : Moves} (hne : t₁ ≠ t₂)
    (hrun : (server codec verifyDetached).run c ms = some c') (hms : ∀ m ∈ ms, OnlyThreads t₁ t₂ m)
    (h₁ : c.pool[t₁]? = some ⟨.request (.recoveryClaim claim),
      code codec (.request (.recoveryClaim claim))⟩)
    (h₂ : c.pool[t₂]? = some ⟨.request (.publishRecoveryKey publish),
      code codec (.request (.publishRecoveryKey publish))⟩)
    (h₁' : c'.pool[t₁]? = some ⟨.request (.recoveryClaim claim), .ret r₁⟩)
    (h₂' : c'.pool[t₂]? = some ⟨.request (.publishRecoveryKey publish), .ret r₂⟩) :
    ∃ e₁ e₂ tr, Interleaves execute (claimStatements codec verifyDetached e₁ claim)
      (publishStatements codec verifyDetached e₂ publish) c.world.db tr r₁ r₂ c'.world.db :=
  interleaves_of_run hne hrun hms h₁ h₂ claim_followed publish_followed h₁' h₂'

/-- **Serialisability of key changes.**  Whatever the environment gives to a RECOVERY_CLAIM and a
PUBLISH_RECOVERY_KEY of one user, and however their statements interleave, they end as they do one
after the other unless both have read the row before either of them updates it, both update it,
and neither signature is valid under the key that the other request sets. -/
theorem key_changes_serialisable (hu : publish.usernameHash = claim.usernameHash)
    (h : Interleaves execute (claimStatements codec verifyDetached e₁ claim)
      (publishStatements codec verifyDetached e₂ publish) db tr r₁ r₂ db') :
    Serialisable claim.usernameHash (claimStatements codec verifyDetached e₁ claim)
      (publishStatements codec verifyDetached e₂ publish) db r₁ r₂ db' ↔
    ¬ (Overlap tr ∧ publish.SignedBy verifyDetached claim.newIdentityDilithiumPubkey = false ∧
      claim.SignedBy verifyDetached publish.recoveryDilithiumPubkey = false) := by
  rcases statements_claim codec verifyDetached e₁ claim with
    hrefused | ⟨now₁, kC, writeC, hC, hreadC, hwriteC⟩
  · obtain ⟨hturn, hno⟩ := hrefused.inTurn h rfl rfl
    exact serialisable_of_inTurn (not_overlap hno) (.inl hturn)
  rcases statements_publish codec verifyDetached e₂ publish with
    hrefused | ⟨hkey, now₂, kP, writeP, hP, hreadP, hwriteP⟩
  · obtain ⟨hturn, hno⟩ := hrefused.inTurn h.symm rfl rfl
    exact serialisable_of_inTurn (not_overlap fun x hx ↦ hno x (mem_mirror.mpr hx)) (.inr hturn)
  obtain ⟨u, k', sig, ts⟩ := publish
  obtain rfl : u = claim.usernameHash := hu
  rw [claimStatements, publishStatements, hC, hP] at h ⊢
  exact reads_serialisable hreadC hreadP hwriteC hwriteP hkey h

end

namespace Sample

/-- The account of user 1, with the identity key 1 and the recovery key 2. -/
def keyed : Db :=
  { Db.migrated with users := [⟨word 1, [1], key 1, [1], [1], 0, 0, some (key 2)⟩] }

/-- The recovery key becomes 3. -/
def rotation : PublishRecoveryKeyRequest := ⟨word 1, key 3, signature, 0⟩

/-- The identity key becomes 4. -/
def takeover : RecoveryClaimRequest := ⟨word 1, key 4, [1], [4], signature, 0⟩

/-- Each of them is signed with the key that the other one replaces. -/
def rotationSigned : List (Bytes × Bytes) :=
  [(key 1, rotation.signedData), (key 2, takeover.signedData)]

/-- Nothing fails, at time 0. -/
def calm : Env := fun _ ↦ ⟨0, none, ⟨List.replicate 32 5, rfl⟩⟩

abbrev takeoverStatements : Program StmtRes (Option Reply) :=
  claimStatements codec (verify rotationSigned) calm takeover

abbrev rotationStatements : Program StmtRes (Option Reply) :=
  publishStatements codec (verify rotationSigned) calm rotation

end Sample

open Sample in
/-- Both requests read the row, and then each of them replaces the key that the other one was
verified under.  Both are accepted; one after the other, the second one is refused. -/
theorem both_accepted : ∃ tr r₁ r₂ db',
    Interleaves execute takeoverStatements rotationStatements keyed tr r₁ r₂ db' ∧
    accepted r₁ = true ∧ accepted r₂ = true ∧
    ¬ Serialisable (word 1) takeoverStatements rotationStatements keyed r₁ r₂ db' := by
  have hboth : ((interleave execute [.left, .right, .left, .right, .left] takeoverStatements
      rotationStatements keyed).map fun x ↦ (accepted x.2.1, accepted x.2.2.1)) =
      some (true, true) := by decide +kernel
  have hrefused : accepted (rotationStatements.alone execute
      (takeoverStatements.alone execute keyed).2).1 = false := by decide +kernel
  have hrefused' : accepted (takeoverStatements.alone execute
      (rotationStatements.alone execute keyed).2).1 = false := by decide +kernel
  obtain ⟨⟨tr, r₁, r₂, db'⟩, hrun, hview⟩ := Option.map_eq_some_iff.mp hboth
  obtain ⟨h₁, h₂⟩ : accepted r₁ = true ∧ accepted r₂ = true := Prod.mk.inj hview
  refine ⟨tr, r₁, r₂, db', .of_interleave hrun, h₁, h₂, ?_⟩
  rintro (⟨s₁, s₂, d, ⟨w, hfirst, hsecond⟩, hout⟩ | ⟨s₁, s₂, d, ⟨w, hfirst, hsecond⟩, hout⟩)
  · have hs₂ : accepted s₂ = accepted r₂ := (Prod.mk.inj (Prod.mk.inj hout).2).1
    rw [hfirst, hsecond, hs₂, h₂] at hrefused
    exact nomatch hrefused
  · have hs₁ : accepted s₁ = accepted r₁ := (Prod.mk.inj hout).1
    rw [hfirst, hsecond, hs₁, h₁] at hrefused'
    exact nomatch hrefused'

open Sample in
/-- The claim reads the row and replaces the identity key, the publication reads the row and is
refused under the new key, and the claim stores its session. -/
theorem key_changes_serialisable_rotation : ∃ tr r₁ r₂ db',
    Interleaves execute takeoverStatements rotationStatements keyed tr r₁ r₂ db' ∧
    accepted r₁ = true ∧ accepted r₂ = false ∧
    Serialisable (word 1) takeoverStatements rotationStatements keyed r₁ r₂ db' := by
  have hboth : ((interleave execute [.left, .left, .right, .left] takeoverStatements
      rotationStatements keyed).map fun x ↦ (accepted x.2.1, accepted x.2.2.1,
        x.1.map Prod.fst)) =
      some (true, false, [.left, .left, .right, .left]) := by decide +kernel
  obtain ⟨⟨tr, r₁, r₂, db'⟩, hrun, hview⟩ := Option.map_eq_some_iff.mp hboth
  obtain ⟨h₁, hview⟩ := Prod.mk.inj hview
  obtain ⟨h₂, hsides⟩ : accepted r₂ = false ∧ _ := Prod.mk.inj hview
  have hrun := Interleaves.of_interleave hrun
  refine ⟨tr, r₁, r₂, db', hrun, h₁, h₂, (key_changes_serialisable rfl hrun).mpr ?_⟩
  rintro ⟨⟨s, o, o', tr', rfl, -⟩, -⟩
  cases s <;> exact nomatch hsides

end ZenthDht
