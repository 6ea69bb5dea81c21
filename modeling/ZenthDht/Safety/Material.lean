import ZenthDht.Safety.Friends

/-!
# Where the key material that is handed out comes from

Bundles and one-time pre-keys enter through six methods and leave through five.  Only a friend
request is signed together with its bundle.  For all other material the handler that stored it
verified a signature of the owner over bytes that name the owner (or, for a response, both
parties) but not the keys, and a REGISTER verifies nothing (`bundle_unsigned`).

`material_origin` follows everything that is handed out back to the statement that stored it.
-/

namespace ZenthDht

open Conc

variable {codec : Codec} {verifyDetached : Bytes → Bytes → Bytes → Bool}
variable {c d : State} {ms : Moves} {t : Nat}

/-! ## Statements that stored something -/

/-- Thread `t` runs `job` and has executed `s` with success; `before` is the history until
then. -/
def Wrote (c : State) (before : History) (t : Nat) (job : Job) (s : Stmt) : Prop :=
  Runs c t job ∧ ∃ a after, c.trace = before ++ (t, ⟨.sql s, .ok a⟩) :: after

/-- A base bundle of `u`: stored by a REGISTER of `u`, or by a RECOVERY_CLAIM of `u` that had
verified a signature under a recovery key of `u`. -/
def BaseStored (c : State) (u bundle : Bytes) : Prop :=
  (∃ before t req, Wrote c before t (.request (.register req)) (.insertUser req.newUser) ∧
    req.usernameHash = u ∧ req.preKeyBundle = bundle) ∨
  (∃ before t req, Wrote c before t (.request (.recoveryClaim req)) (.updateIdentity u
      req.newIdentityDilithiumPubkey req.newIdentitySignature req.newPreKeyBundle) ∧
    req.newPreKeyBundle = bundle ∧ SignedForRecovery before t u
      (u ++ req.newIdentityDilithiumPubkey ++ le64 req.timestamp))

/-- A one-time pre-key of `u`: stored by an UPLOAD_PREKEYS or REPLENISH_PREKEYS that had
verified a signature over `u || timestamp` under an identity key of `u`. -/
def PrekeyStored (c : State) (u : Bytes) (prekeyId : Int32) (publicKey : Bytes) : Prop :=
  ∃ before t job ps ts, Wrote c before t job (.insertPrekeys ps) ∧
    ⟨u, prekeyId, publicKey⟩ ∈ ps ∧ SignedByUser before t u (u ++ le64 ts) ∧
    ((∃ req, job = .request (.uploadPrekeys req) ∧ req.timestamp = ts) ∨
      ∃ req, job = .request (.replenishPrekeys req) ∧ req.timestamp = ts)

/-- The UPDATE of a repeated CONTACT. -/
def FriendRequest.update (req : FriendRequest) : Stmt :=
  .updateFriendRequest req.requesterHashId req.targetHashId req.preKeyBundle
    req.dilithiumSignature (nonEmpty req.encryptedMessage) req.timestamp.toInt64

/-- The step `e` stores the friend request `req`: it is the INSERT, or an UPDATE that has found a
row. -/
def FriendRequest.Stores (req : FriendRequest) (e : Event Res) : Prop :=
  (∃ n, e = ⟨.sql (.insertFriendRequest req.newRequest), .ok n⟩) ∨
    ∃ n : Nat, 0 < n ∧ e = ⟨.sql req.update, .ok n⟩

/-- A friend-request bundle of `u`: stored by a CONTACT of `u` that had verified a signature under
an identity key of `u` over a string that contains the bundle. -/
def RequestSigned (c : State) (u bundle : Bytes) : Prop :=
  ∃ before t req e after, Runs c t (.request (.contact req)) ∧
    c.trace = before ++ (t, e) :: after ∧ req.Stores e ∧ req.requesterHashId = u ∧
    req.preKeyBundle = bundle ∧
    SignedByUser before t u (req.targetHashId ++ bundle ++ le64 req.timestamp)

/-- A friend-response bundle of `u`: stored by a RESPOND_FRIEND_REQUEST of `u` that had verified
a signature under an identity key of `u` over the acceptance or rejection. -/
def ResponseStored (c : State) (u bundle : Bytes) : Prop :=
  ∃ before t req e after, Runs c t (.request (.respondFriendRequest req)) ∧
    c.trace = before ++ (t, e) :: after ∧ (responseWrite e).map ResponseWrite.preKeyBundle =
      some (some bundle) ∧ req.responderHashId = u ∧ nonEmpty req.preKeyBundle = some bundle ∧
    SignedSubmission before t req

/-- What is known about the material in an answer. -/
def Call.MaterialFrom (codec : Codec) (c : State) (reply : Reply) : Call → Prop
  | .lookupUser req => ∀ r bundle, reply.payload = .lookupUser r → r.preKeyBundle = some bundle →
      ∃ b, codec.decodePreKeyBundle b = some bundle ∧ BaseStored c req.targetHash b
  | .fetchPrekeyBundle req => ∀ r bundle, reply.payload = .fetchPrekeyBundle r →
      r.bundle = some bundle → ∃ b base, codec.decodePreKeyBundle b = some base ∧
        BaseStored c req.targetHash b ∧ (bundle = base ∨ ∃ prekeyId publicKey,
          PrekeyStored c req.targetHash prekeyId publicKey ∧
          bundle = { base with preKeyId := prekeyId.toUInt32, preKeyPublic := publicKey })
  | .fetchFriendRequests _ => ∀ r, reply.payload = .fetchFriendRequests r →
      ∀ x ∈ r.requests, RequestSigned c x.requesterHashId x.preKeyBundle
  | .fetchFriendResponses _ => ∀ r, reply.payload = .fetchFriendResponses r →
      ∀ x ∈ r.responses, x.preKeyBundle ≠ [] → ResponseStored c x.responderHashId x.preKeyBundle
  | .fetchMyAccepted _ => ∀ r, reply.payload = .fetchFriendResponses r →
      ∀ x ∈ r.responses, RequestSigned c x.requesterHashId x.preKeyBundle
  | _ => True

/-! ## Rows -/

/-- A property of the rows that the empty database does not have was established by a guarded
statement that succeeded, and that statement is in every later history. -/
theorem Reachable.wrote {P : Db → Prop} (hP : ∀ {db db'}, Db.Same db db' → P db' → P db)
    (hseq : ∀ db seq, P { db with seq } → P db) (h₀ : ¬ P .migrated)
    (h : Reachable codec verifyDetached d) (hd : P d.world.db)
    (hrun : (server codec verifyDetached).run d ms = some c) :
    ∃ c₁ t job s c₂, Reachable codec verifyDetached c₁ ∧ Executes c₁ t job s c₂ ∧
      ¬ P c₁.world.db ∧ P c₂.world.db ∧ Wrote c c₁.trace t job s ∧ ∃ post,
      c.trace = c₁.trace ++ (t, ⟨.sql s, (s.exec c₁.world.clock c₁.world.db).1⟩) :: post := by
  obtain ⟨c₁, m, t, job, s, c₂, ms₂, h₁, hs, he, hold, hnew, h₂⟩ := h.origin hP h₀ hd
  have h₂' := Machine.run_append.mpr ⟨d, h₂, hrun⟩
  obtain ⟨a, hok⟩ := he.succeeds hseq hold hnew
  obtain ⟨post, hpost⟩ := he.history h₂'
  refine ⟨c₁, t, job, s, c₂, h₁, he, hold, hnew, ⟨he.runs.run h₂', a, post, ?_⟩, post, hpost⟩
  rw [hpost, hok]

theorem base_stored (h : Reachable codec verifyDetached d) {x : User}
    (hx : x ∈ d.world.db.users) (hrun : (server codec verifyDetached).run d ms = some c) :
    BaseStored c x.userHashId x.preKeyBundle := by
  obtain ⟨c₁, t, job, s, c₂, h₁, he, hold, ⟨y, hy, hu, hb⟩, hw, -⟩ :=
    h.wrote (P := fun db ↦ ∃ y ∈ db.users, y.userHashId = x.userHashId ∧
        y.preKeyBundle = x.preKeyBundle)
      (fun hsame ⟨y, hy, hyx⟩ ↦ ⟨y, hsame.users.mem_iff.mpr hy, hyx⟩) (fun _ _ hP ↦ hP)
      (by simp [Db.migrated]) ⟨x, hx, rfl, rfl⟩ hrun
  have hguard := h₁.executes he
  rw [he.db] at hy
  rw [← hu, ← hb]
  rcases mem_users_exec hy with hy | ⟨n, rfl, -, rfl⟩ | ⟨z, hz, k, rfl, rfl⟩ |
    ⟨z, hz, k, g, b, rfl, rfl⟩
  · exact absurd ⟨y, hy, hu, hb⟩ hold
  · obtain ⟨-, req, rfl, rfl, -⟩ := hguard
    exact .inl ⟨c₁.trace, t, req, hw, rfl, rfl⟩
  · exact absurd ⟨z, hz, hu, hb⟩ hold
  · obtain ⟨req, rfl, hz, rfl, rfl, rfl, key, message, signature, ⟨-, -, -, hk, rfl, -⟩, hv⟩ := hguard
    refine .inr ⟨c₁.trace, t, req, hw, rfl, ?_⟩
    change SignedForRecovery c₁.trace t z.userHashId (z.userHashId ++ _ ++ _)
    rw [hz]
    exact h₁.signedForRecovery hk hv

theorem prekey_stored (h : Reachable codec verifyDetached d) {x : OneTimePrekey}
    (hx : x ∈ d.world.db.oneTimePrekeys)
    (hrun : (server codec verifyDetached).run d ms = some c) :
    PrekeyStored c x.userHashId x.prekeyId x.publicKey := by
  obtain ⟨c₁, t, job, s, c₂, h₁, he, hold, ⟨y, hy, hu, hi, hk⟩, hw, -⟩ :=
    h.wrote (P := fun db ↦ ∃ y ∈ db.oneTimePrekeys, y.userHashId = x.userHashId ∧
        y.prekeyId = x.prekeyId ∧ y.publicKey = x.publicKey)
      (fun hsame ⟨y, hy, hyx⟩ ↦ ⟨y, hsame.oneTimePrekeys.mem_iff.mpr hy, hyx⟩)
      (fun _ _ hP ↦ hP) (by simp [Db.migrated]) ⟨x, hx, rfl, rfl, rfl⟩ hrun
  have hguard := h₁.executes he
  rw [he.db] at hy
  rw [← hu, ← hi, ← hk]
  rcases mem_oneTimePrekeys_exec hy with ⟨hy, -⟩ | ⟨z, hz, -, rfl⟩ | ⟨ps, rfl, p, hp, id, -, rfl⟩
  · exact absurd ⟨y, hy, hu, hi, hk⟩ hold
  · exact absurd ⟨z, hz, hu, hi, hk⟩ hold
  · have howner {u : Bytes} {pks : List OneTimePreKey} (hps : ps = newPrekeys u pks) :
        p.userHashId = u := by
      subst hps
      obtain ⟨pk, -, rfl⟩ := List.mem_map.mp hp
      rfl
    rcases hguard with ⟨req, rfl, hps, key, message, signature, ⟨-, -, hk, rfl, rfl⟩, hv⟩ |
      ⟨req, rfl, hps, key, message, signature, ⟨-, hk, rfl, rfl⟩, hv⟩
    · refine ⟨c₁.trace, t, _, ps, req.timestamp, hw, hp, ?_, .inl ⟨req, rfl, rfl⟩⟩
      have hsigned := h₁.signedByUser hk hv
      rwa [← howner hps] at hsigned
    · refine ⟨c₁.trace, t, _, ps, req.timestamp, hw, hp, ?_, .inr ⟨req, rfl, rfl⟩⟩
      have hsigned := h₁.signedByUser hk hv
      rwa [← howner hps] at hsigned

theorem request_signed (h : Reachable codec verifyDetached d) {x : FriendRequestModel}
    (hx : x ∈ d.world.db.friendRequests)
    (hrun : (server codec verifyDetached).run d ms = some c) :
    RequestSigned c x.requesterHashId x.preKeyBundle := by
  obtain ⟨c₁, t, job, s, c₂, h₁, he, hold, ⟨y, hy, hu, hb⟩, ⟨hruns, -⟩, post, hpost⟩ :=
    h.wrote (P := fun db ↦ ∃ y ∈ db.friendRequests, y.requesterHashId = x.requesterHashId ∧
        y.preKeyBundle = x.preKeyBundle)
      (fun hsame ⟨y, hy, hyx⟩ ↦ ⟨y, hsame.friendRequests.mem_iff.mpr hy, hyx⟩)
      (fun _ _ hP ↦ hP) (by simp [Db.migrated]) ⟨x, hx, rfl, rfl⟩ hrun
  have hguard := h₁.executes he
  rw [he.db] at hy
  rw [← hu, ← hb]
  obtain ⟨a, hok⟩ := he.succeeds (P := fun db ↦ ∃ y ∈ db.friendRequests,
    y.requesterHashId = x.requesterHashId ∧ y.preKeyBundle = x.preKeyBundle)
    (fun _ _ hP ↦ hP) hold ⟨y, he.db ▸ hy, hu, hb⟩
  rcases mem_friendRequests_exec hy with hy | ⟨n, rfl, rfl⟩ | ⟨z, hz, b, g, m, ts, rfl, rfl⟩
  · exact absurd ⟨y, hy, hu, hb⟩ hold
  · obtain ⟨req, rfl, rfl, key, message, signature, ⟨-, -, -, hk, rfl, -⟩, hv⟩ := hguard
    rw [hok] at hpost
    exact ⟨c₁.trace, t, req, _, post, hruns, hpost, .inl ⟨a, rfl⟩, rfl, rfl,
      h₁.signedByUser hk hv⟩
  · obtain ⟨req, rfl, hr, ht, rfl, rfl, rfl, rfl, key, message, signature,
      ⟨-, -, -, hk, rfl, -⟩, hv⟩ := hguard
    -- the row that the UPDATE has changed is one that it counts
    have hcount : 0 < c₁.world.db.friendRequests.countP fun x ↦
        x.requesterHashId = req.requesterHashId && x.targetHashId = req.targetHashId :=
      List.countP_pos_iff.mpr ⟨z, hz, by simp [hr, ht]⟩
    rw [hr, ht] at hpost
    refine ⟨c₁.trace, t, req, _, post, hruns, hpost, .inr ⟨_, hcount, rfl⟩, hr.symm, rfl, ?_⟩
    have hsigned := h₁.signedByUser hk hv
    rwa [← hr] at hsigned

theorem response_stored (h : Reachable codec verifyDetached d) {x : FriendResponseModel}
    (hx : x ∈ d.world.db.friendResponses)
    (hrun : (server codec verifyDetached).run d ms = some c) {bundle : Bytes}
    (hb : x.preKeyBundle = some bundle) : ResponseStored c x.responderHashId bundle := by
  obtain ⟨p, t, req, hsub⟩ := h.submitted x hx
  obtain ⟨e, he, hw⟩ := hsub.wrote.write
  obtain ⟨ext, hext⟩ := Machine.trace_of_run hrun
  obtain ⟨hlt, hp⟩ := List.getElem?_eq_some_iff.mp he
  have hsplit : d.trace = d.trace.take p ++ (t, e) :: d.trace.drop (p + 1) := by
    rw [← hp, ← List.drop_eq_getElem_cons hlt, List.take_append_drop]
  refine ⟨d.trace.take p, t, req, e, d.trace.drop (p + 1) ++ ext, hsub.runs.run hrun, ?_, ?_,
    hsub.responder, ?_, hsub.signed⟩
  · rw [hext, ← List.cons_append, ← List.append_assoc, ← hsplit]
  · rw [hw]
    exact congrArg some hb
  · rw [← hb]
    exact congrArg ResponseWrite.preKeyBundle hsub.content

/-! ## Answers -/

/-- **Origins of key material.**  In every run, everything a request has handed out was stored
by the handlers and after the verifications that `Call.MaterialFrom` names. -/
theorem material_origin {clock instant : Nat}
    (h : (server codec verifyDetached).run (.start (.initial clock instant)) ms = some c)
    {call : Call} {reply : Reply} (hans : c.answered t = some (.request call, reply)) :
    call.MaterialFrom codec c reply := by
  have hc : Reachable codec verifyDetached c := ⟨clock, instant, ms, h⟩
  have hanswer := hc.answer (answered_iff.mp hans) reply rfl
  have hbase {u : Bytes} {row : User} (hrow : Did (past t c.trace) (.sql (.selectUser u)) (.ok row)) :
      BaseStored c u row.preKeyBundle := by
    obtain ⟨d, ms, hd, hr, hrun⟩ := hc.read (did_past.mp hrow)
    obtain ⟨hx, rfl⟩ := selectUser_sound hr
    exact base_stored hd hx hrun
  cases call with
  | lookupUser req =>
      intro r bundle hpay hbundle
      obtain ⟨row, hrow, hdec⟩ := hanswer r bundle hpay hbundle
      exact ⟨row.preKeyBundle, hdec, hbase hrow⟩
  | fetchPrekeyBundle req =>
      intro r bundle hpay hbundle
      obtain ⟨row, base, hrow, hdec, ⟨rfl, -⟩ | ⟨id, prekeyId, publicKey, n, hsel, -, rfl⟩⟩ :=
        hanswer r bundle hpay hbundle
      · exact ⟨row.preKeyBundle, bundle, hdec, hbase hrow, .inl rfl⟩
      · obtain ⟨d, ms, hd, hr, hrun⟩ := hc.read (did_past.mp hsel)
        obtain ⟨x, hx, -, hu, rfl, rfl, -⟩ := selectUnusedPrekey_sound hr
        have hstored := prekey_stored hd hx hrun
        rw [hu] at hstored
        exact ⟨row.preKeyBundle, base, hdec, hbase hrow, .inr ⟨_, _, hstored, rfl⟩⟩
  | fetchFriendRequests req =>
      intro r hpay x hx
      obtain ⟨since, rows, hload, hrows⟩ := hanswer r hpay
      obtain ⟨d, ms, hd, hr, hrun⟩ := hc.read (did_past.mp hload)
      rw [hrows] at hx
      obtain ⟨fr, hfr, rfl⟩ := List.mem_map.mp hx
      exact request_signed hd (loadFriendRequests_sound hr hfr) hrun
  | fetchFriendResponses req =>
      intro r hpay x hx hne
      obtain ⟨since, rows, hload, hrows⟩ := hanswer r hpay
      obtain ⟨d, ms, hd, hr, hrun⟩ := hc.read (did_past.mp hload)
      rw [hrows] at hx
      obtain ⟨fr, hfr, rfl⟩ := List.mem_map.mp hx
      refine response_stored hd (loadFriendResponses_sound hr hfr) hrun ?_
      cases hb : fr.preKeyBundle with
      | none => exact absurd (by simp [FriendResponseModel.dto, hb]) hne
      | some bundle => simp [FriendResponseModel.dto, hb]
  | fetchMyAccepted req =>
      intro r hpay x hx
      obtain ⟨since, rows, hload, hrows⟩ := hanswer r hpay
      obtain ⟨d, ms, hd, hr, hrun⟩ := hc.read (did_past.mp hload)
      rw [hrows] at hx
      obtain ⟨row, hrow, rfl⟩ := List.mem_map.mp hx
      obtain ⟨y, hy, hreq, hbundle⟩ := loadAccepted_sound hr hrow
      have hsigned := request_signed hd hy hrun
      rw [hreq, hbundle] at hsigned
      exact hsigned
  | _ => trivial

namespace Sample

/-- User 1 looks up user 2. -/
def lookupSigned : List (Bytes × Bytes) := [(key 1, lookupMessage (word 1) (word 2) 5)]

def lookup : LookupUserRequest := ⟨word 1, word 2, signature, 5⟩

def lookupRun : Moves :=
  registers 0 1 ++ registers 1 2 ++ .spawn (.request (.lookupUser lookup)) :: steps 2 3

/-- User 1 asks for the friendship of user 2, who fetches the request. -/
def requestSigned : List (Bytes × Bytes) :=
  [(key 1, word 2 ++ [3] ++ le64 1), (key 2, word 2 ++ le64 0 ++ le64 6)]

def requestFetch : FetchFriendsRequest := ⟨word 2, 0, signature, 6⟩

def requestRun : Moves :=
  registers 0 1 ++ registers 1 2 ++
  .spawn (.request (.contact ⟨word 1, word 2, [3], signature, [], 1⟩)) :: steps 2 6 ++
  .spawn (.request (.fetchFriendRequests requestFetch)) :: steps 3 4

end Sample

open Sample in
/-- A LOOKUP_USER returns the bundle of user 2, which thread 1 stored.  The only signature
verified in the whole run is the one of the lookup itself, thread 2. -/
theorem bundle_unsigned : ∃ c, final lookupSigned lookupRun = some c ∧
    c.answered 2 = some (.request (.lookupUser lookup), ⟨true, .lookupUser
      { found := true, userHash := word 2, preKeyBundle := some ⟨0, [], [2], none, []⟩ }, ""⟩) ∧
    (c.trace.filterMap fun e ↦ (verifiedBytes e.2).map fun v ↦ (e.1, v)) =
      [(2, key 1, lookupMessage (word 1) (word 2) 5)] := by
  have hrun : ((final lookupSigned lookupRun).map fun c ↦ (c.answered 2,
      c.trace.filterMap fun e ↦ (verifiedBytes e.2).map fun v ↦ (e.1, v))) = some
      (some (.request (.lookupUser lookup), ⟨true, .lookupUser
        { found := true, userHash := word 2, preKeyBundle := some ⟨0, [], [2], none, []⟩ }, ""⟩),
       [(2, key 1, lookupMessage (word 1) (word 2) 5)]) := by decide +kernel
  obtain ⟨c, hc, hview⟩ := Option.map_eq_some_iff.mp hrun
  exact ⟨c, hc, Prod.mk.inj hview⟩

open Sample in
theorem material_origin_requestRun : ∃ c reply, final requestSigned requestRun = some c ∧
    c.answered 3 = some (.request (.fetchFriendRequests requestFetch), reply) ∧
    reply.payload = .fetchFriendRequests ⟨[⟨word 1, word 2, [3], signature, [], 1⟩], 0⟩ ∧
    RequestSigned c (word 1) [3] := by
  have hrun : ((final requestSigned requestRun).map fun c ↦ c.answered 3) = some
      (some (.request (.fetchFriendRequests requestFetch), ⟨true, .fetchFriendRequests
        ⟨[⟨word 1, word 2, [3], signature, [], 1⟩], 0⟩, ""⟩)) := by decide +kernel
  obtain ⟨c, hc, hans⟩ := Option.map_eq_some_iff.mp hrun
  exact ⟨c, _, hc, hans, rfl, material_origin hc hans _ rfl _ (List.mem_singleton.mpr rfl)⟩

end ZenthDht
