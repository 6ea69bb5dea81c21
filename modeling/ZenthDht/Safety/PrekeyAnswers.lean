import ZenthDht.Safety.Verifiable
import ZenthDht.Spec.Prekeys
import ZenthDht.Spec.Sequence

/-!
# Which requests for pre-keys succeed

A request on one-time pre-keys that runs alone succeeds if its fields pass, it is signed by the
account it speaks for, and the database does not fail, and only then (`Ended.success_iff`).  All of
this can be told from the request and the rows it starts from.
-/

namespace ZenthDht

open Conc Stmt

variable {codec : Codec} {verifyDetached : Bytes → Bytes → Bytes → Bool}
variable {c : State} {db db' : Db} {now : NaiveDateTime} {s : Stmt} {t : Nat} {past' : Past}

/-! ## Accounts -/

/-- The statement writes to `users`. -/
def Stmt.writesUsers : Stmt → Bool
  | .insertUser _ | .updateRecoveryKey _ _ | .updateIdentity _ _ _ _ | .deleteUser _ => true
  | _ => false

theorem Stmt.users_exec_of_spares (h : s.writesUsers = false) :
    (s.exec now db).2.users = db.users := by
  cases s with
  | insertUser n => exact nomatch h
  | updateRecoveryKey u k => exact nomatch h
  | updateIdentity u k g b => exact nomatch h
  | deleteUser u => exact nomatch h
  | _ =>
      simp only [exec]
      repeat' split
      all_goals rfl

/-- The request is one of the four that write to `users`. -/
def Call.writesUsers : Call → Bool
  | .register _ | .delete _ | .publishRecoveryKey _ | .recoveryClaim _ => true
  | _ => false

/-- No statement has written to `users`. -/
def SparesUsers (past : Past) : Prop := ∀ s r, Did past (.sql s) r → s.writesUsers = false

/-- All other requests leave the accounts alone. -/
theorem Reachable.sparesUsers {call : Call} (hc : Reachable codec verifyDetached c)
    (hruns : Runs c t (.request call)) (hcall : call.writesUsers = false) :
    SparesUsers (past t c.trace) := by
  intro s r hd
  by_contra hwrites
  obtain ⟨q, hq⟩ := List.getElem?_of_mem (mem_past.mp hd)
  obtain ⟨clock, instant, ms, h⟩ := hc
  obtain ⟨job, hjob, hguard⟩ := guard_at (code_obeys codec) h hq
  obtain rfl := hjob.unique hruns
  cases s with
  | insertUser n =>
      obtain ⟨-, req, hreq, -⟩ := hguard
      obtain rfl := Job.request.inj hreq
      exact nomatch hcall
  | updateRecoveryKey u k =>
      obtain ⟨req, hreq, -⟩ := hguard
      obtain rfl := Job.request.inj hreq
      exact nomatch hcall
  | updateIdentity u k g b =>
      obtain ⟨req, hreq, -⟩ := hguard
      obtain rfl := Job.request.inj hreq
      exact nomatch hcall
  | deleteUser u =>
      obtain ⟨req, hreq, -⟩ := hguard
      obtain rfl := Job.request.inj hreq
      exact nomatch hcall
  | _ => exact hwrites rfl

/-- What a look-up of an account has returned, it has returned on the accounts there were at the
beginning, or it has failed for a reason of its own. -/
theorem Replays.selectUser {u : Bytes} {r : Except DieselError User} (hr : Replays past' db db')
    (hspares : SparesUsers past') (hd : Did past' (.sql (.selectUser u)) r) :
    (∃ m, r = .error (.other m)) ∨
      ∃ d now, db.users.Perm d.users ∧ r = ((selectUser u).exec now d).1 := by
  induction past' generalizing db with
  | nil => exact absurd hd List.not_mem_nil
  | cons e past' ih =>
      obtain ⟨db₁, he, hr⟩ := hr
      have hspares' : SparesUsers past' := fun s r h ↦ hspares s r (List.mem_cons_of_mem _ h)
      rcases List.mem_cons.mp hd with rfl | hd
      · obtain ⟨d, now, hsame, ⟨hr, -⟩ | ⟨-, m, hm⟩⟩ := he
        · exact .inr ⟨d, now, hsame.users, hr⟩
        · exact .inl ⟨m, hm⟩
      · have husers : db.users.Perm db₁.users := by
          obtain ⟨o, r'⟩ := e
          cases o with
          | sql s =>
              obtain ⟨d, now, hsame, ⟨-, rfl⟩ | ⟨rfl, -⟩⟩ := he
              · rw [Stmt.users_exec_of_spares (hspares s r' List.mem_cons_self)]
                exact hsame.users
              · exact hsame.users
          | _ => exact Db.Same.users he
        rcases ih hr hspares' hd with hm | ⟨d, now, hperm, hr⟩
        · exact .inl hm
        · exact .inr ⟨d, now, husers.trans hperm, hr⟩

section

variable {u message signature : Bytes}

theorem Replays.found {x : User} (hr : Replays past' db db') (hspares : SparesUsers past')
    (hd : Did past' (.sql (.selectUser u)) (.ok x)) : x ∈ db.users ∧ x.userHashId = u := by
  rcases hr.selectUser hspares hd with ⟨m, hm⟩ | ⟨d, now, hperm, hx⟩
  · exact nomatch hm
  · obtain ⟨hx, hu⟩ := selectUser_sound hx.symm
    exact ⟨hperm.mem_iff.mpr hx, hu⟩

theorem Replays.notFound (hr : Replays past' db db') (hspares : SparesUsers past')
    (hd : Did past' (.sql (.selectUser u)) (.error .notFound)) :
    ∀ x ∈ db.users, x.userHashId ≠ u := by
  intro x hx hu
  rcases hr.selectUser hspares hd with ⟨m, hm⟩ | ⟨d, now, hperm, hnone⟩
  · exact nomatch hm
  · have hmem : x ∈ d.users.filter fun x ↦ x.userHashId = u :=
      List.mem_filter.mpr ⟨hperm.mem_iff.mp hx, decide_eq_true hu⟩
    simp only [exec] at hnone
    cases hrows : d.users.filter fun x ↦ x.userHashId = u with
    | nil => rw [hrows] at hmem; exact absurd hmem List.not_mem_nil
    | cons y ys => rw [hrows] at hnone; exact nomatch hnone

/-- Accounts are told apart by their hashes. -/
theorem Db.Keyed.user_unique (h : db.Keyed) {x y : User} (hx : x ∈ db.users) (hy : y ∈ db.users)
    (heq : x.userHashId = y.userHashId) : x = y := List.inj_on_of_nodup_map h.users hx hy heq

/-- A signature that has been verified under the key that was found. -/
theorem verifies_of_did {x : User} (hc : Reachable codec verifyDetached c)
    (hr : Replays (past t c.trace) db db')
    (hspares : SparesUsers (past t c.trace))
    (hx : Did (past t c.trace) (.sql (.selectUser u)) (.ok x))
    (hv : Did (past t c.trace) (.verify x.identityKeyDilithium message signature) true) :
    db.Verifies verifyDetached u message signature := by
  obtain ⟨hmem, hu⟩ := hr.found hspares hx
  exact ⟨x, hmem, hu, hc.verdict (mem_past.mp hv)⟩

theorem Unsigned.not_verifies (hc : Reachable codec verifyDetached c) (hkeyed : db.Keyed)
    (hr : Replays (past t c.trace) db db')
    (hspares : SparesUsers (past t c.trace))
    (h : Unsigned (past t c.trace) u message signature) :
    ¬ db.Verifies verifyDetached u message signature := by
  rintro ⟨y, hy, hyu, hverifies⟩
  rcases h with hnone | ⟨x, hx, hv⟩
  · exact hr.notFound hspares hnone y hy hyu
  · obtain ⟨hx, hxu⟩ := hr.found hspares hx
    obtain rfl := hkeyed.user_unique hx hy (hxu.trans hyu.symm)
    have hverdict := hc.verdict (mem_past.mp hv)
    rw [hverifies] at hverdict
    cases hverdict

end

/-! ## Answers -/

/-- The four requests on one-time pre-keys. -/
def Call.onPrekeys : Call → Bool
  | .uploadPrekeys _ | .replenishPrekeys _ | .checkPrekeyCount _ | .fetchPrekeyBundle _ => true
  | _ => false

/-- The fields of the request pass, and on the rows `db` its signature is that of the account it
speaks for.  An UPLOAD_PREKEYS has also to be fresh when the clock is read, and for a
FETCH_PREKEY_BUNDLE the target has to have a bundle that decodes. -/
def Call.Genuine (codec : Codec) (verifyDetached : Bytes → Bytes → Bytes → Bool) (db : Db)
    (past : Past) : Call → Prop
  | .uploadPrekeys req => req.Complete ∧
      (∀ now : Nat, Did past .clock now → fresh now req.timestamp = true) ∧
      db.Verifies verifyDetached req.usernameHash
        (prekeyMessage req.usernameHash req.timestamp) req.authSignature
  | .replenishPrekeys req => req.Complete ∧ db.Verifies verifyDetached req.usernameHash
      (prekeyMessage req.usernameHash req.timestamp) req.authSignature
  | .checkPrekeyCount req => req.Complete ∧ db.Verifies verifyDetached req.usernameHash
      (prekeyMessage req.usernameHash req.timestamp) req.authSignature
  | .fetchPrekeyBundle req => req.Complete ∧ db.Verifies verifyDetached req.requesterHash
        (lookupMessage req.requesterHash req.targetHash req.timestamp) req.authSignature ∧
      ∃ y ∈ db.users, y.userHashId = req.targetHash ∧
        (codec.decodePreKeyBundle y.preKeyBundle).isSome
  | _ => False

theorem explained_fails {α : Type} {payload : α → Payload} {success : α → Bool}
    {message : α → String} {r : Except String α} (h : ∀ resp, r = .ok resp → success resp = false) :
    (Reply.explained payload success message r).success ≠ true := by
  cases r with
  | error e => exact nofun
  | ok resp => simp [Reply.explained, h resp rfl]

section

variable {reply : Option Reply}

theorem Ended.uploadPrekeys_done {req : UploadPreKeysRequest} (hend : Ended c t (.uploadPrekeys req) reply)
    (hc : Reachable codec verifyDetached c) :
    ∃ r, reply = some (.explained .uploadPrekeys (·.success) (·.errorMessage) r) ∧
      req.Done (past t c.trace) r := by
  have hcall : (processCall codec (.uploadPrekeys req)).Obeys (fun _ o ↦ o ≠ .panic)
      (fun past reply ↦ ∃ r, req.Done past r ∧
        reply = .explained .uploadPrekeys (·.success) (·.errorMessage) r) [] :=
    (ZenthDht.uploadPrekeys_done req).bind fun past r h ↦ ⟨r, h, rfl⟩
  obtain ⟨_, rfl, r, hdone, rfl⟩ := hend.done hc hcall
  exact ⟨r, rfl, hdone⟩

theorem Ended.replenishPrekeys_done {req : ReplenishPreKeysRequest} (hend : Ended c t (.replenishPrekeys req) reply)
    (hc : Reachable codec verifyDetached c) :
    ∃ r, reply = some (.explained .replenishPrekeys (·.success) (·.errorMessage) r) ∧
      req.Done (past t c.trace) r := by
  have hcall : (processCall codec (.replenishPrekeys req)).Obeys (fun _ o ↦ o ≠ .panic)
      (fun past reply ↦ ∃ r, req.Done past r ∧
        reply = .explained .replenishPrekeys (·.success) (·.errorMessage) r) [] :=
    (ZenthDht.replenishPrekeys_done req).bind fun past r h ↦ ⟨r, h, rfl⟩
  obtain ⟨_, rfl, r, hdone, rfl⟩ := hend.done hc hcall
  exact ⟨r, rfl, hdone⟩

theorem Ended.checkPrekeyCount_done {req : CheckPreKeyCountRequest} (hend : Ended c t (.checkPrekeyCount req) reply)
    (hc : Reachable codec verifyDetached c) :
    ∃ r, reply = some (.explained .checkPrekeyCount (·.success) (·.errorMessage) r) ∧
      req.Done (past t c.trace) r := by
  have hcall : (processCall codec (.checkPrekeyCount req)).Obeys (fun _ o ↦ o ≠ .panic)
      (fun past reply ↦ ∃ r, req.Done past r ∧
        reply = .explained .checkPrekeyCount (·.success) (·.errorMessage) r) [] :=
    (ZenthDht.checkPrekeyCount_done req).bind fun past r h ↦ ⟨r, h, rfl⟩
  obtain ⟨_, rfl, r, hdone, rfl⟩ := hend.done hc hcall
  exact ⟨r, rfl, hdone⟩

theorem Ended.fetchPrekeyBundle_done {req : FetchPreKeyBundleRequest} (hend : Ended c t (.fetchPrekeyBundle req) reply)
    (hc : Reachable codec verifyDetached c) :
    ∃ r, reply = some (.explained .fetchPrekeyBundle (·.success) (·.errorMessage) r) ∧
      req.Done codec (past t c.trace) r := by
  have hcall : (processCall codec (.fetchPrekeyBundle req)).Obeys (fun _ o ↦ o ≠ .panic)
      (fun past reply ↦ ∃ r, req.Done codec past r ∧
        reply = .explained .fetchPrekeyBundle (·.success) (·.errorMessage) r) [] :=
    (ZenthDht.fetchPrekeyBundle_done req).bind fun past r h ↦ ⟨r, h, rfl⟩
  obtain ⟨_, rfl, r, hdone, rfl⟩ := hend.done hc hcall
  exact ⟨r, rfl, hdone⟩

theorem uploadPrekeys_success {req : UploadPreKeysRequest} (hc : Reachable codec verifyDetached c)
    (hkeyed : db.Keyed) (hend : Ended c t (.uploadPrekeys req) reply)
    (hr : Replays (past t c.trace) db db') :
    ∃ r, reply = some r ∧ (r.success = true ↔
      (Call.uploadPrekeys req).Genuine codec verifyDetached db (past t c.trace) ∧
      Healthy (past t c.trace)) := by
  have hspares := hc.sparesUsers hend.runs rfl
  obtain ⟨r, rfl, hdone⟩ := hend.uploadPrekeys_done hc
  obtain ⟨-, hwhy, hfail⟩ | ⟨user, ts, n, hcomplete, hfresh, hpast, rfl⟩ := hdone
  · refine ⟨_, rfl, iff_of_false (explained_fails hfail) ?_⟩
    rintro ⟨⟨hcomplete, hfresh, hverifies⟩, hhealthy⟩
    rcases hwhy hhealthy with h | ⟨now, hnow, hstale⟩ | h
    · exact h hcomplete
    · rw [hfresh now hnow] at hstale
      cases hstale
    · exact h.not_verifies hc hkeyed hr hspares hverifies
  · refine ⟨_, rfl, iff_of_true rfl ⟨⟨hcomplete, ?_, ?_⟩, ?_⟩⟩
    · rw [hpast]
      intro now hnow
      obtain rfl : now = ts := by simpa [Did, UploadPreKeysRequest.storedPast] using hnow
      exact hfresh
    · refine verifies_of_did (x := user) hc hr hspares ?_ ?_
      · simp [hpast, Did, UploadPreKeysRequest.storedPast]
      · simp [hpast, Did, UploadPreKeysRequest.storedPast]
    · simp [hpast, UploadPreKeysRequest.storedPast, databaseFails]

theorem replenishPrekeys_success {req : ReplenishPreKeysRequest}
    (hc : Reachable codec verifyDetached c) (hkeyed : db.Keyed)
    (hend : Ended c t (.replenishPrekeys req) reply) (hr : Replays (past t c.trace) db db') :
    ∃ r, reply = some r ∧ (r.success = true ↔
      (Call.replenishPrekeys req).Genuine codec verifyDetached db (past t c.trace) ∧
      Healthy (past t c.trace)) := by
  have hspares := hc.sparesUsers hend.runs rfl
  obtain ⟨r, rfl, hdone⟩ := hend.replenishPrekeys_done hc
  obtain ⟨-, hwhy, hfail⟩ | ⟨user, n, e, hpast, hfail⟩ |
    ⟨user, n, total, hcomplete, hpast, rfl⟩ := hdone
  · refine ⟨_, rfl, iff_of_false (explained_fails hfail) ?_⟩
    rintro ⟨⟨hcomplete, hverifies⟩, hhealthy⟩
    rcases hwhy hhealthy with h | h
    · exact h hcomplete
    · exact h.not_verifies hc hkeyed hr hspares hverifies
  · refine ⟨_, rfl, iff_of_false (explained_fails hfail) ?_⟩
    rintro ⟨-, hhealthy⟩
    simp [hpast, databaseFails] at hhealthy
  · refine ⟨_, rfl, iff_of_true rfl ⟨⟨hcomplete, ?_⟩, ?_⟩⟩
    · refine verifies_of_did (x := user) hc hr hspares ?_ ?_
      · simp [hpast, Did, ReplenishPreKeysRequest.storedPast]
      · simp [hpast, Did, ReplenishPreKeysRequest.storedPast]
    · simp [hpast, ReplenishPreKeysRequest.storedPast, databaseFails]

theorem checkPrekeyCount_success {req : CheckPreKeyCountRequest}
    (hc : Reachable codec verifyDetached c) (hkeyed : db.Keyed)
    (hend : Ended c t (.checkPrekeyCount req) reply) (hr : Replays (past t c.trace) db db') :
    ∃ r, reply = some r ∧ (r.success = true ↔
      (Call.checkPrekeyCount req).Genuine codec verifyDetached db (past t c.trace) ∧
      Healthy (past t c.trace)) := by
  have hspares := hc.sparesUsers hend.runs rfl
  obtain ⟨r, rfl, ⟨-, hdone⟩⟩ := hend.checkPrekeyCount_done hc
  obtain ⟨hwhy, hfail⟩ | ⟨user, n, resp, hcomplete, hpast, rfl, hsuccess, -⟩ := hdone
  · refine ⟨_, rfl, iff_of_false (explained_fails hfail) ?_⟩
    rintro ⟨⟨hcomplete, hverifies⟩, hhealthy⟩
    rcases hwhy hhealthy with h | h
    · exact h hcomplete
    · exact h.not_verifies hc hkeyed hr hspares hverifies
  · refine ⟨_, rfl, iff_of_true hsuccess ⟨⟨hcomplete, ?_⟩, ?_⟩⟩
    · refine verifies_of_did (x := user) hc hr hspares ?_ ?_
      · simp [hpast, Did, CheckPreKeyCountRequest.countedPast]
      · simp [hpast, Did, CheckPreKeyCountRequest.countedPast]
    · simp [hpast, CheckPreKeyCountRequest.countedPast, databaseFails]

theorem fetchPrekeyBundle_success {req : FetchPreKeyBundleRequest}
    (hc : Reachable codec verifyDetached c) (hkeyed : db.Keyed)
    (hend : Ended c t (.fetchPrekeyBundle req) reply) (hr : Replays (past t c.trace) db db') :
    ∃ r, reply = some r ∧ (r.success = true ↔
      (Call.fetchPrekeyBundle req).Genuine codec verifyDetached db (past t c.trace) ∧
      Healthy (past t c.trace)) := by
  have hspares := hc.sparesUsers hend.runs rfl
  obtain ⟨r, rfl, hdone⟩ := hend.fetchPrekeyBundle_done hc
  -- both accounts have been found, and the requester has signed
  have hgenuine {requester target : User} {base : PreKeyBundle} {rest : Past}
      (hcomplete : req.Complete)
      (hpast : past t c.trace = req.foundPast requester target ++ rest)
      (hbase : codec.decodePreKeyBundle target.preKeyBundle = some base) :
      (Call.fetchPrekeyBundle req).Genuine codec verifyDetached db (past t c.trace) := by
    refine ⟨hcomplete, ?_, ?_⟩
    · refine verifies_of_did (x := requester) hc hr hspares ?_ ?_
      · simp [hpast, Did, FetchPreKeyBundleRequest.foundPast]
      · simp [hpast, Did, FetchPreKeyBundleRequest.foundPast]
    · obtain ⟨hmem, hu⟩ := hr.found (u := req.targetHash) (x := target) hspares
        (by simp [hpast, Did, FetchPreKeyBundleRequest.foundPast])
      exact ⟨target, hmem, hu, Option.isSome_of_eq_some hbase⟩
  obtain ⟨-, hwhy, hfail⟩ | ⟨requester, target, base, hcomplete, hpast, hbase, rfl⟩ |
    ⟨requester, target, base, id, prekeyId, publicKey, n, hcomplete, hpast, hbase, rfl⟩ := hdone
  · refine ⟨_, rfl, iff_of_false (explained_fails hfail) ?_⟩
    rintro ⟨⟨hcomplete, hverifies, y, hy, hyu, hdecodes⟩, hhealthy⟩
    rcases hwhy hhealthy with h | h | h | ⟨target, htarget, hnone⟩
    · exact h hcomplete
    · exact h.not_verifies hc hkeyed hr hspares hverifies
    · exact hr.notFound hspares h y hy hyu
    · obtain ⟨hmem, hu⟩ := hr.found hspares htarget
      obtain rfl := hkeyed.user_unique hmem hy (hu.trans hyu.symm)
      rw [hnone] at hdecodes
      cases hdecodes
  · refine ⟨_, rfl, iff_of_true rfl ⟨hgenuine hcomplete hpast hbase, ?_⟩⟩
    simp [hpast, FetchPreKeyBundleRequest.foundPast, databaseFails]
  · refine ⟨_, rfl, iff_of_true rfl ⟨hgenuine hcomplete hpast hbase, ?_⟩⟩
    simp [hpast, FetchPreKeyBundleRequest.foundPast, databaseFails]

/-- **The answer.**  A request on one-time pre-keys that runs alone is answered, and it succeeds
exactly if it is genuine and the database does not fail. -/
theorem Ended.success_iff {call : Call} (hc : Reachable codec verifyDetached c) (hkeyed : db.Keyed)
    (hend : Ended c t call reply) (hr : Replays (past t c.trace) db db')
    (hcall : call.onPrekeys = true) :
    ∃ r, reply = some r ∧ (r.success = true ↔
      call.Genuine codec verifyDetached db (past t c.trace) ∧ Healthy (past t c.trace)) := by
  cases call with
  | uploadPrekeys req => exact uploadPrekeys_success hc hkeyed hend hr
  | replenishPrekeys req => exact replenishPrekeys_success hc hkeyed hend hr
  | checkPrekeyCount req => exact checkPrekeyCount_success hc hkeyed hend hr
  | fetchPrekeyBundle req => exact fetchPrekeyBundle_success hc hkeyed hend hr
  | _ => exact nomatch hcall

end

end ZenthDht
