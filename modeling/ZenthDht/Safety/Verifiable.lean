import ZenthDht.Safety.FriendPolls
import ZenthDht.Safety.Friendships

/-!
# Verifying what is fetched

Of what CONTACT and RESPOND_FRIEND_REQUEST verify, the tables keep everything but the timestamp of
a response: the fetches put the time of creation in its place, so what a rejection signs cannot be
rebuilt from them (`rejection_unverifiable`).  And the key a signature was verified under may have
been replaced before the row is written.  Apart from these two the entries verify under the current
key of the signer, as long as it has not been replaced since the write (`entries_verify`).
-/

namespace ZenthDht

open Conc Stmt

variable {codec : Codec} {verifyDetached : Bytes → Bytes → Bytes → Bool}
variable {c c' : State} {ms : Moves} {t p : Nat} {now : NaiveDateTime} {db : Db} {s : Stmt}

/-! ## Since a place of the history -/

/-- The event at the place `p` is the last one with `P`. -/
structure LastAt (P : Event Res → Prop) (tr : History) (p : Nat) : Prop where
  here : ∃ t e, tr[p]? = some (t, e) ∧ P e
  last : ∀ q t e, p < q → tr[q]? = some (t, e) → ¬ P e

theorem LastAt.lt {P : Event Res → Prop} {tr : History} (h : LastAt P tr p) : p < tr.length := by
  obtain ⟨t, e, he, -⟩ := h.here
  exact (List.getElem?_eq_some_iff.mp he).1

theorem LastAt.append {P : Event Res → Prop} {tr ext : History} (h : LastAt P tr p)
    (hext : ∀ t e, (t, e) ∈ ext → ¬ P e) : LastAt P (tr ++ ext) p := by
  obtain ⟨t, e, he, hP⟩ := h.here
  refine ⟨⟨t, e, by rw [List.getElem?_append_left h.lt, he], hP⟩, fun q t' e' hq hq' ↦ ?_⟩
  rw [List.getElem?_append] at hq'
  split at hq'
  · exact h.last q t' e' hq hq'
  · exact hext t' e' (List.mem_of_getElem? hq')

theorem LastAt.snoc {P : Event Res → Prop} {tr : History} {e : Event Res} (hP : P e) :
    LastAt P (tr ++ [(t, e)]) tr.length := by
  refine ⟨⟨t, e, by simp, hP⟩, fun q t' e' hq hq' ↦ ?_⟩
  obtain ⟨hlt, -⟩ := List.getElem?_eq_some_iff.mp hq'
  simp only [List.length_append, List.length_singleton] at hlt
  omega

/-- The identity key of `u` has not been replaced since the place `p`. -/
def KeyKept (tr : History) (p : Nat) (u : Bytes) : Prop :=
  ∀ q t k g b n, p < q → tr[q]? ≠ some (t, ⟨.sql (.updateIdentity u k g b), .ok n⟩)

theorem KeyKept.left {tr ext : History} {u : Bytes} (h : KeyKept (tr ++ ext) p u) :
    KeyKept tr p u := by
  intro q t k g b n hq heq
  obtain ⟨hlt, -⟩ := List.getElem?_eq_some_iff.mp heq
  exact h q t k g b n hq (by rw [List.getElem?_append_left hlt, heq])

/-! ## Keys -/

/-- There is an account `u`, and the signature verifies under its identity key. -/
def Db.Verifies (verifyDetached : Bytes → Bytes → Bytes → Bool) (db : Db)
    (u message signature : Bytes) : Prop :=
  ∃ y ∈ db.users, y.userHashId = u ∧
    verifyDilithiumSignature verifyDetached y.identityKeyDilithium message signature = true

theorem Db.Verifies.same {db' : Db} {u m g : Bytes} (h : db.Verifies verifyDetached u m g)
    (hs : db.Same db') : db'.Verifies verifyDetached u m g := by
  obtain ⟨y, hy, hyu⟩ := h
  exact ⟨y, hs.users.mem_iff.mp hy, hyu⟩

/-- A signature verifies as long as the account is there and its key is not replaced. -/
theorem Db.Verifies.exec {u m g : Bytes} (h : db.Verifies verifyDetached u m g)
    (hkey : ∀ k g b, s ≠ .updateIdentity u k g b)
    (huser : (s.exec now db).2.hasUser u = true) :
    (s.exec now db).2.Verifies verifyDetached u m g := by
  obtain ⟨y, hy, rfl, hv⟩ := h
  rcases users_exec now s hy with hy | ⟨k, -, hy⟩ | ⟨k, g, b, rfl, -⟩ | ⟨-, hgone⟩
  · exact ⟨y, hy, rfl, hv⟩
  · exact ⟨_, hy, rfl, hv⟩
  · exact absurd rfl (hkey k g b)
  · obtain ⟨z, hz, hzu⟩ := hasUser_iff.mp huser
    exact absurd hzu (hgone z hz)

/-- The key that thread `t` has read for `u` is the identity key of `u`. -/
def keyInForce (c : State) (t : Nat) (u : Bytes) : Bool :=
  c.trace.all fun
    | (v, ⟨.sql (.selectUser w), .ok row⟩) => !(v = t && w = u) ||
        c.world.db.users.all fun y ↦
          !decide (y.userHashId = u) || y.identityKeyDilithium = row.identityKeyDilithium
    | _ => true

theorem keyInForce_iff {u : Bytes} : keyInForce c t u = true ↔
    ∀ row, (t, ⟨.sql (.selectUser u), .ok row⟩) ∈ c.trace → ∀ y ∈ c.world.db.users,
      y.userHashId = u → y.identityKeyDilithium = row.identityKeyDilithium := by
  simp only [keyInForce, List.all_eq_true]
  constructor
  · intro h row hmem y hy hyu
    have := h _ hmem
    simp only [decide_true, Bool.and_self, Bool.not_true, Bool.false_or, List.all_eq_true] at this
    simpa [hyu] using this y hy
  · rintro h ⟨v, e⟩ hmem
    split
    next w row heq =>
      obtain ⟨rfl, rfl⟩ := Prod.mk.inj heq
      simp only [Bool.or_eq_true, Bool.not_eq_true', Bool.and_eq_false_iff, decide_eq_false_iff_not,
        List.all_eq_true, decide_eq_true_eq]
      by_cases hvw : v = t ∧ w = u
      · obtain ⟨rfl, rfl⟩ := hvw
        refine .inr fun y hy ↦ ?_
        exact or_iff_not_imp_left.mpr fun hyu ↦ h row hmem y hy (not_not.mp hyu)
      · exact .inl (not_and_or.mp hvw)
    · rfl

/-- What a thread has verified under the key it has read verifies under the key in force. -/
theorem Reachable.verifies (hc : Reachable codec verifyDetached c) {u key m g : Bytes}
    (hkey : keyInForce c t u = true) (hk : IdentityKey (past t c.trace) u key)
    (hv : Did (past t c.trace) (.verify key m g) true) (huser : c.world.db.hasUser u = true) :
    c.world.db.Verifies verifyDetached u m g := by
  obtain ⟨row, hrow, rfl⟩ := hk
  obtain ⟨y, hy, hyu⟩ := hasUser_iff.mp huser
  refine ⟨y, hy, hyu, ?_⟩
  rw [keyInForce_iff.mp hkey row (did_past.mp hrow) y hy hyu]
  exact hc.verified (did_past.mp hv)

/-- The history at a statement: what it adds and what it keeps. -/
theorem Executes.keyKept {job : Job} {u : Bytes} (he : Executes c t job s c')
    (hp : p < c.trace.length) (h : KeyKept c'.trace p u) :
    KeyKept c.trace p u ∧ ∀ k g b, s ≠ .updateIdentity u k g b := by
  rw [he.trace] at h
  refine ⟨h.left, ?_⟩
  rintro k g b rfl
  exact h _ t k g b _ hp (by rw [List.getElem?_concat_length]; rfl)

/-! ## Writes -/

/-- A step that writes a friend request or a response: the key that the signature was verified
under is still in force, and a rejection is of the second in which its row is created. -/
def writesVerifiable (c : State) : Move Job Oracle Act → Bool
  | .step t ω => ω.fails ||
    match c.performs t with
    | some (.request (.contact req), .sql (.insertFriendRequest _))
    | some (.request (.contact req), .sql (.updateFriendRequest _ _ _ _ _ _)) =>
      keyInForce c t req.requesterHashId
    | some (.request (.respondFriendRequest req), .sql (.insertFriendResponse _)) =>
      keyInForce c t req.responderHashId &&
        (req.accepted || createdAtSecs c.world.clock = req.timestamp)
    | some (.request (.respondFriendRequest req), .sql (.updateFriendResponses i _ _ _)) =>
      keyInForce c t req.responderHashId &&
        (req.accepted || c.world.db.friendResponses.all fun x ↦
          x.requestId ≠ i || createdAtSecs x.createdAt = req.timestamp)
    | _ => true
  | _ => true

/-- The condition at a statement that succeeds. -/
theorem Executes.condition {job : Job} {m : Move Job Oracle Act} {a : s.Out}
    (he : Executes c t job s c') (hs : (server codec verifyDetached).Step c m c')
    (hok : (s.exec c.world.clock c.world.db).1 = .ok a) (hm : writesVerifiable c m = true) :
    ∃ ω, writesVerifiable c (.step t ω) = true ∧ ω.fails = false ∧
      c.performs t = some (job, .sql s) := by
  obtain ⟨ω, rfl, hω⟩ := he.move hs hok
  obtain ⟨k, ht, -⟩ := he.pool
  exact ⟨ω, hm, hω, performs_iff.mpr ⟨k, ht⟩⟩

/-! ## Requests -/

/-- Every stored request verifies under the key of its requester, unless that has been replaced
since the request was stored last. -/
def RequestsVerify (verifyDetached : Bytes → Bytes → Bytes → Bool) (c : State) : Prop :=
  ∀ x ∈ c.world.db.friendRequests, ∃ p,
    LastAt (StoresRequest x.requesterHashId x.targetHashId) c.trace p ∧
    (KeyKept c.trace p x.requesterHashId → c.world.db.Verifies verifyDetached x.requesterHashId
      x.dto.messageToVerify x.dto.dilithiumSignature)

theorem Executes.requestsVerify (hc : Reachable codec verifyDetached c) {job : Job}
    {m : Move Job Oracle Act} (hs : (server codec verifyDetached).Step c m c')
    (he : Executes c t job s c') (hm : writesVerifiable c m = true)
    (hold : RequestsVerify verifyDetached c) : RequestsVerify verifyDetached c' := by
  have hc' : Reachable codec verifyDetached c' := hc.run (hs.run_cons Machine.run_nil)
  intro x hx
  by_cases hst : StoresRequest x.requesterHashId x.targetHashId
      ⟨.sql s, (s.exec c.world.clock c.world.db).1⟩
  · -- the statement stores the request, so it is as the thread has it
    refine ⟨c.trace.length, he.trace ▸ .snoc hst, fun _ ↦ ?_⟩
    obtain ⟨s', a, hevent⟩ := hst.sql
    obtain ⟨hop, hr⟩ := Sigma.mk.inj hevent
    obtain rfl := Op.sql.inj hop
    have hok := eq_of_heq hr
    rw [hok] at hst
    obtain ⟨ω, hm, hω, hperf⟩ := he.condition hs hok hm
    obtain ⟨req, rfl, hpair, hkey, hv, husers⟩ : ∃ req, job = .request (.contact req) ∧
        (req.requesterHashId = x.requesterHashId ∧ req.targetHashId = x.targetHashId) ∧
        keyInForce c t req.requesterHashId = true ∧
        (Call.contact req).Vouched codec (past t c.trace) ∧
        (s.exec c.world.clock c.world.db).2.users = c.world.db.users := by
      have hguard := hc.executes he
      cases s with
      | insertFriendRequest n =>
          obtain ⟨req, rfl, rfl, hv⟩ := hguard
          simp only [writesVerifiable, hω, hperf, Bool.false_or] at hm
          refine ⟨req, rfl, hst, hm, hv, ?_⟩
          simp only [Stmt.exec]
          repeat' split
          all_goals rfl
      | updateFriendRequest r u b g m ts =>
          obtain ⟨req, rfl, rfl, rfl, rfl, rfl, rfl, rfl, hv⟩ := hguard
          simp only [writesVerifiable, hω, hperf, Bool.false_or] at hm
          exact ⟨req, rfl, ⟨hst.1, hst.2.1⟩, hm, hv, rfl⟩
      | _ => exact hst.elim
    obtain ⟨y, hy, hdto⟩ := he.holds hc hok hst
    have hyp : y.pair = x.pair := by
      rw [← hdto] at hpair
      exact Prod.ext hpair.1 hpair.2
    obtain rfl : y = x := List.inj_on_of_nodup_map hc'.friendGraph.pairs hy hx hyp
    obtain ⟨key, message, signature, ⟨-, -, -, hk, rfl, rfl⟩, hver⟩ := hv
    have huser := (hc'.friendGraph.befriended y hx).1
    rw [hdto, ← hpair.1]
    rw [← hpair.1, he.db, Db.hasUser, husers] at huser
    obtain ⟨z, hz, hzv⟩ := hc.verifies hkey hk hver huser
    exact ⟨z, by rwa [he.db, husers], hzv⟩
  · -- otherwise the row was there before
    have hmem : x ∈ c.world.db.friendRequests := by
      rw [he.db] at hx
      rcases exec_ok_or_unchanged c.world.clock c.world.db s with ⟨a, hok⟩ | ⟨seq, hdb⟩
      · rcases mem_friendRequests_exec hx with hmem | ⟨n, rfl, rfl⟩ |
          ⟨y, hy, b, g, m, ts, rfl, rfl⟩
        · exact hmem
        · rw [hok] at hst
          exact absurd ⟨rfl, rfl⟩ hst
        · refine absurd ⟨rfl, rfl, Nat.pos_iff_ne_zero.mp ?_⟩ hst
          exact List.countP_pos_iff.mpr ⟨y, hy, by simp⟩
      · rwa [hdb] at hx
    obtain ⟨p, hlast, hverify⟩ := hold x hmem
    refine ⟨p, ?_, fun hkept ↦ ?_⟩
    · rw [he.trace]
      refine hlast.append fun t' e hin ↦ ?_
      obtain ⟨-, rfl⟩ := Prod.mk.inj (List.mem_singleton.mp hin)
      exact hst
    · obtain ⟨hkept, hkey⟩ := he.keyKept hlast.lt hkept
      have huser := (hc'.friendGraph.befriended x hx).1
      rw [he.db] at huser ⊢
      exact (hverify hkept).exec hkey huser

/-! ## Responses -/

/-- Every stored response verifies under the key of its responder, unless that has been replaced
since the response was written last. -/
def ResponsesVerify (verifyDetached : Bytes → Bytes → Bytes → Bool) (c : State) : Prop :=
  ∀ x ∈ c.world.db.friendResponses, ∃ p t, WroteLast c.trace p t x ∧
    (KeyKept c.trace p x.responderHashId → c.world.db.Verifies verifyDetached x.responderHashId
      x.dto.messageToVerify x.dto.dilithiumSignature)

/-- What a response signs can be rebuilt from its row, if for a rejection the creation of the row
is in the second that was signed. -/
theorem FriendResponseModel.dto_messageToVerify {x : FriendResponseModel} {req : FriendResponse}
    (hresp : req.responderHashId = x.responderHashId)
    (hreq : req.requesterHashId = x.requesterHashId) (hacc : req.accepted = x.accepted)
    (hts : req.accepted = true ∨ createdAtSecs x.createdAt = req.timestamp) :
    x.dto.messageToVerify = req.messageToVerify := by
  simp only [FriendResponse.messageToVerify, FriendResponseModel.dto, ← hresp, ← hreq, ← hacc]
  rcases hts with h | h
  · rw [if_pos h, if_pos h]
  · rw [h]

/-- The responder of a stored response has an account. -/
theorem Db.FriendGraph.hasResponder (hg : db.FriendGraph) {x : FriendResponseModel}
    (hx : x ∈ db.friendResponses) : db.hasUser x.responderHashId = true := by
  obtain ⟨y, hy, -, -, hu⟩ := hg.linked x hx
  exact hu ▸ (hg.befriended y hy).2

theorem Executes.responsesVerify (hc : Reachable codec verifyDetached c) {job : Job}
    {m : Move Job Oracle Act} (hs : (server codec verifyDetached).Step c m c')
    (he : Executes c t job s c') (hm : writesVerifiable c m = true)
    (hold : ResponsesVerify verifyDetached c) : ResponsesVerify verifyDetached c' := by
  have hc' : Reachable codec verifyDetached c' := hc.run (hs.run_cons Machine.run_nil)
  have hguard := hc.executes he
  intro x hx
  have huser := hc'.friendGraph.hasResponder hx
  rw [he.db] at hx
  -- a response that the thread has just written
  have hnow {req : FriendResponse} {a : s.Out}
      (hok : (s.exec c.world.clock c.world.db).1 = .ok a)
      (husers : (s.exec c.world.clock c.world.db).2.users = c.world.db.users)
      (hw : responseWrite ⟨.sql s, .ok a⟩ = some x.write)
      (hresp : req.responderHashId = x.responderHashId)
      (hreq : req.requesterHashId = x.requesterHashId) (hcontent : req.write x.requestId = x.write)
      (hkey : keyInForce c t req.responderHashId = true)
      (hts : req.accepted = true ∨ createdAtSecs x.createdAt = req.timestamp)
      (hv : (Call.respondFriendRequest req).Vouched codec (past t c.trace)) :
      ∃ p t, WroteLast c'.trace p t x ∧ (KeyKept c'.trace p x.responderHashId →
        c'.world.db.Verifies verifyDetached x.responderHashId x.dto.messageToVerify
          x.dto.dilithiumSignature) := by
    have htr := he.trace
    rw [hok] at htr
    refine ⟨c.trace.length, t, htr ▸ .snoc hw, fun _ ↦ ?_⟩
    obtain ⟨key, message, signature, ⟨-, -, -, hk, rfl, rfl⟩, hver⟩ := hv
    rw [he.db, Db.hasUser, husers, ← hresp] at huser
    obtain ⟨z, hz, hzv⟩ := hc.verifies hkey hk hver huser
    have hacc : req.accepted = x.accepted := congrArg ResponseWrite.accepted hcontent
    have hsig : req.dilithiumSignature = x.dilithiumSignature :=
      congrArg ResponseWrite.dilithiumSignature hcontent
    rw [FriendResponseModel.dto_messageToVerify hresp hreq hacc hts, ← hresp]
    refine ⟨z, by rwa [he.db, husers], ?_⟩
    rw [FriendResponseModel.dto, ← hsig]
    exact hzv
  rcases mem_friendResponses_exec hx with ⟨hmem, hne⟩ | ⟨n, id, rfl, rfl, -, hok⟩ |
    ⟨z, hz, a, b, g, rfl, rfl⟩
  · obtain ⟨p, t', hwrote, hverify⟩ := hold x hmem
    refine ⟨p, t', ?_, fun hkept ↦ ?_⟩
    · rw [he.trace]
      refine hwrote.append ?_
      rintro t'' e hin ⟨a, b, g, r, rfl⟩
      cases List.mem_singleton.mp hin
      exact hne a b g rfl
    · obtain ⟨hkept, hkey⟩ := he.keyKept hwrote.lt hkept
      rw [he.db] at huser ⊢
      exact (hverify hkept).exec hkey huser
  · obtain ⟨req, fr, rfl, -, rfl, hv⟩ := hguard
    obtain ⟨ω, hm, hω, hperf⟩ := he.condition hs hok hm
    simp only [writesVerifiable, hω, hperf, Bool.false_or, Bool.and_eq_true, Bool.or_eq_true,
      decide_eq_true_eq] at hm
    refine hnow hok ?_ rfl rfl rfl rfl hm.1 hm.2 hv
    simp only [Stmt.exec]
    split <;> rfl
  · obtain ⟨req, fr, rfl, hread, hid, rfl, rfl, rfl, hv⟩ := hguard
    obtain ⟨ω, hm, hω, hperf⟩ := he.condition hs rfl hm
    simp only [writesVerifiable, hω, hperf, Bool.false_or, Bool.and_eq_true, Bool.or_eq_true,
      List.all_eq_true, decide_eq_true_eq] at hm
    -- the row belongs to the request that was read, so it has the parties of the submission
    obtain ⟨y, hy, hyid, hr, ht⟩ := hc.linked z hz
    obtain ⟨hr', ht'⟩ := hc.parties_of_read (did_past.mp hread) hy (hyid.trans hid)
    refine hnow rfl rfl rfl (ht'.symm.trans ht) (hr'.symm.trans hr) rfl hm.1 ?_ hv
    exact hm.2.imp_right fun h ↦ (h z hz).resolve_left (not_not.mpr rfl)

/-! ## Entries -/

theorem fetchFriendRequests_wp {w : World} (req : FetchFriendsRequest) (hw : w.db.Same db) :
    (server codec verifyDetached).Wp (fun r _ ↦ ∀ resp, r = .ok resp →
      ∀ e ∈ resp.requests, ∃ x ∈ db.friendRequests, x.dto = e)
      (fetchFriendRequests req) w := by
  unfold fetchFriendRequests
  iterate 3
    split
    · exact nofun
  refine wp_sql (fun _ _ _ ↦ nofun) (fun w₁ w hw₁ hw ↦ ?_) hw
  cases ((selectUser req.userHash).exec w₁.clock w₁.db).1 with
  | error e => cases e <;> exact nofun
  | ok user =>
  refine wp_call (by nofun) (fun w r hw ↦ ?_) hw
  split
  · exact nofun
  refine wp_sql (fun _ _ _ ↦ nofun) (fun w₂ w hw₂ hw ↦ ?_) hw
  refine (Machine.wp_bind _ _).mpr (wp_call (by nofun) (fun w r hw ↦ ?_) hw)
  rintro resp ⟨⟩ e he
  obtain ⟨x, hx, rfl⟩ := List.mem_map.mp he
  have hmem : x ∈ w₂.db.friendRequests :=
    List.mem_of_mem_filter ((List.perm_insertionSort _ _).mem_iff.mp hx)
  exact ⟨x, hw₂.friendRequests.mem_iff.mp hmem, rfl⟩

theorem Answers.requests {c₁ : State} {req : FetchFriendsRequest}
    {resp : FetchFriendRequestsResponse} {m : String}
    (h : Answers codec verifyDetached c (.fetchFriendRequests req)
      ⟨true, .fetchFriendRequests resp, m⟩ c₁) :
    ∀ e ∈ resp.requests, ∃ x ∈ c.world.db.friendRequests, x.dto = e := by
  have hwp : (server codec verifyDetached).Wp (fun r _ ↦ ∀ resp,
      r.payload = .fetchFriendRequests resp →
      ∀ e ∈ resp.requests, ∃ x ∈ c.world.db.friendRequests, x.dto = e)
      (processCall codec (.fetchFriendRequests req)) c.world := by
    refine (Machine.wp_bind _ _).mpr ((fetchFriendRequests_wp req .rfl).mono fun r w hpost ↦ ?_)
    cases r with
    | error e => exact nofun
    | ok resp =>
        rintro _ ⟨⟩
        exact hpost _ rfl
  obtain ⟨w, hpost, -⟩ := h.wp hwp
  exact hpost resp rfl

/-- The stored response that an entry is made of: the entry has its parties, its decision and its
signature, and what is signed is rebuilt from the entry as from the row. -/
structure FriendResponseModel.Entry (x : FriendResponseModel) (e : FriendResponse) : Prop where
  responder : x.responderHashId = e.responderHashId
  requester : x.requesterHashId = e.requesterHashId
  accepted : x.accepted = e.accepted
  message : x.dto.messageToVerify = e.messageToVerify
  signature : x.dilithiumSignature = e.dilithiumSignature

theorem FriendResponseModel.entry_dto (x : FriendResponseModel) : x.Entry x.dto :=
  ⟨rfl, rfl, rfl, rfl, rfl⟩

theorem FriendResponseModel.entry_acceptance (x : FriendResponseModel) (h : x.accepted = true) :
    x.Entry (db.acceptance x) := by
  refine ⟨rfl, rfl, h, ?_, rfl⟩
  simp only [FriendResponse.messageToVerify, FriendResponseModel.dto, Db.acceptance, h, if_true]

/-- The two fetches of responses. -/
def FetchesResponses (req : FetchFriendsRequest) (call : Call) : Prop :=
  call = .fetchFriendResponses req ∨ call = .fetchMyAccepted req

theorem Answers.responses {c₁ : State} {call : Call} {req : FetchFriendsRequest}
    {resp : FetchFriendResponsesResponse} {m : String} (hc : Reachable codec verifyDetached c)
    (hcall : FetchesResponses req call)
    (h : Answers codec verifyDetached c call ⟨true, .fetchFriendResponses resp, m⟩ c₁) :
    ∀ e ∈ resp.responses, ∃ x ∈ c.world.db.friendResponses, x.Entry e := by
  intro e he
  rcases hcall with rfl | rfl
  · have hmem := h.responsesTo.mem_iff.mp he
    obtain ⟨x, hx, rfl⟩ := List.mem_map.mp hmem
    exact ⟨x, List.mem_of_mem_filter hx, x.entry_dto⟩
  · have hmem := h.acceptancesBy.mem_iff.mp he
    rw [acceptancesBy_eq hc.keyed hc.friendGraph] at hmem
    obtain ⟨x, hx, rfl⟩ := List.mem_map.mp hmem
    obtain ⟨hx, hfilter⟩ := List.mem_filter.mp hx
    simp only [Bool.and_eq_true] at hfilter
    exact ⟨x, hx, x.entry_acceptance hfilter.1.2⟩

/-- **Entries verify.**  In every run whose writes are verifiable, every entry of
FETCH_FRIEND_REQUESTS verifies under the current identity key of its requester, and every entry of
FETCH_FRIEND_RESPONSES and FETCH_MY_ACCEPTED under that of its responder, unless that key has been
replaced since the entry was written. -/
theorem entries_verify {clock instant : Nat}
    (h : (server codec verifyDetached).run (.start (.initial clock instant)) ms = some c)
    (hms : (server codec verifyDetached).Along (fun c m ↦ writesVerifiable c m = true)
      (.start (.initial clock instant)) ms) :
    (∀ req resp m c₁, Answers codec verifyDetached c (.fetchFriendRequests req)
        ⟨true, .fetchFriendRequests resp, m⟩ c₁ → ∀ e ∈ resp.requests, ∃ p,
      LastAt (StoresRequest e.requesterHashId e.targetHashId) c.trace p ∧
      (KeyKept c.trace p e.requesterHashId → c.world.db.Verifies verifyDetached
        e.requesterHashId e.messageToVerify e.dilithiumSignature)) ∧
    ∀ call req resp m c₁, FetchesResponses req call → Answers codec verifyDetached c call
        ⟨true, .fetchFriendResponses resp, m⟩ c₁ → ∀ e ∈ resp.responses,
      ∃ x ∈ c.world.db.friendResponses, x.Entry e ∧ ∃ p t, WroteLast c.trace p t x ∧
      (KeyKept c.trace p e.responderHashId → c.world.db.Verifies verifyDetached
        e.responderHashId e.messageToVerify e.dilithiumSignature) := by
  have hc : Reachable codec verifyDetached c := ⟨clock, instant, ms, h⟩
  have hinv : Reachable codec verifyDetached c ∧ RequestsVerify verifyDetached c ∧
      ResponsesVerify verifyDetached c := by
    refine Machine.Along.invariant (I := fun d ↦ Reachable codec verifyDetached d ∧
      RequestsVerify verifyDetached d ∧ ResponsesVerify verifyDetached d) ?_ hms h
      ⟨⟨clock, instant, [], rfl⟩, fun _ ↦ nofun, fun _ ↦ nofun⟩
    rintro d m d' ⟨hd, hreq, hresp⟩ hm hs
    refine ⟨hd.run (hs.run_cons Machine.run_nil), ?_⟩
    rcases Step.quiet_or_executes hs with hq | ⟨t, job, s, he⟩
    · obtain ⟨ext, htr, hno⟩ := hq.trace
      constructor
      · intro x hx
        obtain ⟨p, hlast, hverify⟩ := hreq x (hq.db.friendRequests.mem_iff.mpr hx)
        rw [htr]
        refine ⟨p, hlast.append fun t e he hst ↦ ?_, fun hkept ↦ (hverify hkept.left).same hq.db⟩
        obtain ⟨s, a, rfl⟩ := hst.sql
        exact hno t s a he
      · intro x hx
        obtain ⟨p, t, hwrote, hverify⟩ := hresp x (hq.db.friendResponses.mem_iff.mpr hx)
        rw [htr]
        refine ⟨p, t, hwrote.append ?_, fun hkept ↦ (hverify hkept.left).same hq.db⟩
        rintro t' e he ⟨a, b, g, r, rfl⟩
        exact hno _ _ _ he
    · exact ⟨he.requestsVerify hd hs hm hreq, he.responsesVerify hd hs hm hresp⟩
  constructor
  · intro req resp m c₁ hans e he
    obtain ⟨x, hx, rfl⟩ := hans.requests e he
    exact hinv.2.1 x hx
  · intro call req resp m c₁ hcall hans e he
    obtain ⟨x, hx, hentry⟩ := hans.responses hc hcall e he
    obtain ⟨p, t, hwrote, hverify⟩ := hinv.2.2 x hx
    refine ⟨x, hx, hentry, p, t, hwrote, ?_⟩
    rw [← hentry.responder, ← hentry.message, ← hentry.signature]
    exact hverify

namespace Sample

/-- The event replaces an identity key. -/
def replacesKey (e : Event Res) : Bool :=
  match okStmt e with
  | some (.updateIdentity _ _ _ _) => true
  | _ => false

theorem keyKept_of_none {tr : History} (h : (tr.any fun e ↦ replacesKey e.2) = false) (p : Nat)
    (u : Bytes) : KeyKept tr p u := by
  intro q t k g b n _ hq
  have hmem := List.mem_of_getElem? hq
  rw [List.any_eq_false] at h
  exact h _ hmem rfl

/-- User 1 asks for the friendship of user 2, who rejects at 2 s by its own clock. -/
def rejectRun : Moves :=
  registers 0 1 ++ registers 1 2 ++
  .spawn (.request (.contact ⟨word 1, word 2, [3], signature, [], 1⟩)) :: steps 2 6 ++
  .spawn (.request (.respondFriendRequest rejection)) :: steps 3 6

/-- What user 1 is told of the rejection. -/
def toldRejection : FriendResponse := ⟨word 2, word 1, false, [], signature, 0⟩

end Sample

open Sample in
/-- No key has been replaced, and what user 1 fetches of the rejection that user 2 has signed does
not verify: the timestamp is that of the row. -/
theorem rejection_unverifiable : ∃ c c₁ : State, final listingSigned rejectRun = some c ∧
    c.answered 3 = some (.request (.respondFriendRequest rejection), ⟨true, .empty, ""⟩) ∧
    Answers Sample.codec (Sample.verify listingSigned) c (.fetchFriendResponses (listing 1))
      ⟨true, .fetchFriendResponses ⟨[toldRejection], 0⟩, ""⟩ c₁ ∧
    (∀ p u, KeyKept c.trace p u) ∧
    ¬ c.world.db.Verifies (Sample.verify listingSigned) (word 2) toldRejection.messageToVerify
      toldRejection.dilithiumSignature := by
  have hpool : ((final listingSigned rejectRun).map fun c ↦ c.pool.length) = some 4 := by
    decide +kernel
  have hans : ((final listingSigned rejectRun).bind fun c ↦ c.answered 3) =
      some (.request (.respondFriendRequest rejection), ⟨true, .empty, ""⟩) := by decide +kernel
  have hview : ((final listingSigned rejectRun).map fun c ↦
      (c.trace.any fun e ↦ replacesKey e.2, c.world.db.users.any fun y ↦
        y.userHashId = word 2 && verifyDilithiumSignature (Sample.verify listingSigned)
          y.identityKeyDilithium toldRejection.messageToVerify
          toldRejection.dilithiumSignature)) = some (false, false) := by decide +kernel
  obtain ⟨c, hc, hview⟩ := Option.map_eq_some_iff.mp hview
  obtain ⟨hkeys, hverify⟩ := Prod.mk.inj hview
  obtain ⟨c₁, hfetch⟩ := answers_of_final (.fetchFriendResponses (listing 1))
    ⟨true, .fetchFriendResponses ⟨[toldRejection], 0⟩, ""⟩ 4 hc hpool (by decide +kernel)
  rw [hc] at hans
  refine ⟨c, c₁, hc, hans, hfetch, keyKept_of_none hkeys, ?_⟩
  rintro ⟨y, hy, hyu, hv⟩
  rw [List.any_eq_false] at hverify
  exact hverify y hy (by rw [decide_eq_true hyu, hv]; rfl)

open Sample in
/-- The acceptance verifies. -/
theorem entries_verify_acceptRun : ∃ c c₁ : State, final listingSigned acceptRun = some c ∧
    Answers Sample.codec (Sample.verify listingSigned) c (.fetchFriendResponses (listing 1))
      ⟨true, .fetchFriendResponses ⟨[toldRequester], 0⟩, ""⟩ c₁ ∧
    c.world.db.Verifies (Sample.verify listingSigned) (word 2) toldRequester.messageToVerify
      toldRequester.dilithiumSignature := by
  have hpool : ((final listingSigned acceptRun).map fun c ↦ c.pool.length) = some 4 := by
    decide +kernel
  have hview : ((final listingSigned acceptRun).map fun c ↦
      c.trace.any fun e ↦ replacesKey e.2) = some false := by decide +kernel
  obtain ⟨c, hc, hkeys⟩ := Option.map_eq_some_iff.mp hview
  obtain ⟨c₁, hfetch⟩ := answers_of_final (.fetchFriendResponses (listing 1))
    ⟨true, .fetchFriendResponses ⟨[toldRequester], 0⟩, ""⟩ 4 hc hpool (by decide +kernel)
  obtain ⟨-, hresponses⟩ :=
    entries_verify hc (Machine.along_of_check (by decide +kernel))
  obtain ⟨x, -, -, p, t, -, hverify⟩ := hresponses _ (listing 1) _ _ _ (.inl rfl) hfetch
    toldRequester List.mem_cons_self
  exact ⟨c, c₁, hc, hfetch, hverify (keyKept_of_none hkeys p _)⟩

end ZenthDht
