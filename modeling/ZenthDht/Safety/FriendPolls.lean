import ZenthDht.Safety.FriendGraph
import ZenthDht.Spec.Contact

/-!
# Polling for friend requests

FETCH_FRIEND_REQUESTS filters by the timestamp in the request, which the requester chooses, with
the time of the previous poll, which is the server's.  So a poll returns a request that CONTACT
has accepted since the previous one if and only if its timestamp is later (`request_polled_iff`):
one that is claimed to be older than the previous poll is never returned.
-/

namespace ZenthDht

open Conc Stmt

variable {codec : Codec} {verifyDetached : Bytes → Bytes → Bytes → Bool}
variable {c c' : State} {ms : Moves} {t : Nat} {now : NaiveDateTime} {db : Db} {s : Stmt}

/-! ## Events -/

/-- The event stores a friend request of `r` to `u`. -/
def StoresRequest (r u : Bytes) : Event Res → Prop
  | ⟨.sql (.insertFriendRequest n), .ok _⟩ => n.requesterHashId = r ∧ n.targetHashId = u
  | ⟨.sql (.updateFriendRequest r' u' _ _ _ _), .ok k⟩ => r' = r ∧ u' = u ∧ k ≠ (0 : Nat)
  | _ => False

/-- The event deletes the friend requests by and to `u`. -/
def DeletesRequests (u : Bytes) : Event Res → Prop
  | ⟨.sql (.deleteFriendRequestsOf u'), .ok _⟩ | ⟨.sql (.deleteUser u'), .ok _⟩ => u' = u
  | _ => False

theorem StoresRequest.sql {r u : Bytes} {e : Event Res} (h : StoresRequest r u e) :
    ∃ s a, e = ⟨.sql s, .ok a⟩ := by
  unfold StoresRequest at h
  split at h
  · exact ⟨_, _, rfl⟩
  · exact ⟨_, _, rfl⟩
  · exact h.elim

theorem DeletesRequests.sql {u : Bytes} {e : Event Res} (h : DeletesRequests u e) :
    ∃ s a, e = ⟨.sql s, .ok a⟩ := by
  unfold DeletesRequests at h
  split at h
  · exact ⟨_, _, rfl⟩
  · exact ⟨_, _, rfl⟩
  · exact h.elim

/-- What neither stores nor deletes requests: no statement, or one that reads a user. -/
theorem not_stores_of_okStmt {e : Event Res} (h : okStmt e = none ∨ ∃ v, okStmt e = some (.selectUser v))
    (r u v : Bytes) : ¬ StoresRequest r u e ∧ ¬ DeletesRequests v e := by
  constructor
  · intro hs
    obtain ⟨s, a, rfl⟩ := hs.sql
    rcases h with h | ⟨w, h⟩
    · exact nomatch h
    · obtain rfl := Option.some.inj h
      exact hs.elim
  · intro hd
    obtain ⟨s, a, rfl⟩ := hd.sql
    rcases h with h | ⟨w, h⟩
    · exact nomatch h
    · obtain rfl := Option.some.inj h
      exact hd.elim

/-! ## The row of a request -/

/-- The request is stored as `req` has it. -/
def Db.Holds (db : Db) (req : FriendRequest) : Prop := ∃ x ∈ db.friendRequests, x.dto = req

/-- No friend request of `r` to `u` is stored. -/
def Db.Unrequested (db : Db) (r u : Bytes) : Prop := ∀ x ∈ db.friendRequests, x.pair ≠ (r, u)

theorem FriendRequest.dto_newRequest (req : FriendRequest) (id : Nat) (now : NaiveDateTime) :
    (req.newRequest.row id now).dto = req := by
  have hm : (nonEmpty req.encryptedMessage).getD [] = req.encryptedMessage := by
    unfold nonEmpty
    split
    next h => exact h.symm
    · rfl
  simp only [FriendRequestModel.dto, FriendRequest.newRequest, NewFriendRequest.row, hm,
    UInt64.toUInt64_toInt64]

theorem timestamp_of_dto {x : FriendRequestModel} {req : FriendRequest} (h : x.dto = req) :
    x.timestamp = req.timestamp.toInt64 := by
  rw [← h]
  exact (Int64.toInt64_toUInt64 _).symm

/-- What CONTACT stores is the request it was given. -/
theorem Executes.holds (h : Reachable codec verifyDetached c) {req : FriendRequest}
    (he : Executes c t (.request (.contact req)) s c') {a : s.Out}
    (hok : (s.exec c.world.clock c.world.db).1 = .ok a) {r u : Bytes}
    (hs : StoresRequest r u ⟨.sql s, .ok a⟩) : c'.world.db.Holds req := by
  have hguard := h.executes he
  rw [he.db]
  cases s with
  | insertFriendRequest n =>
      obtain ⟨req', hjob, rfl, -⟩ := hguard
      obtain rfl : req = req' := by injection hjob with hcall; injection hcall
      simp only [Stmt.exec] at hok ⊢
      split at hok
      · exact nomatch hok
      next h₁ =>
      split at hok
      · exact nomatch hok
      next h₂ =>
      split at hok
      · exact nomatch hok
      next h₃ =>
      rw [if_neg h₁, if_neg h₂, if_neg h₃]
      exact ⟨_, List.mem_append_right _ (List.mem_singleton.mpr rfl), req.dto_newRequest _ _⟩
  | updateFriendRequest r' u' b g m ts =>
      obtain ⟨req', hjob, rfl, rfl, rfl, rfl, rfl, rfl, -⟩ := hguard
      obtain rfl : req = req' := by injection hjob with hcall; injection hcall
      obtain rfl := Except.ok.inj hok
      obtain ⟨-, -, hk⟩ := hs
      obtain ⟨x, hx, hxp⟩ := List.countP_pos_iff.mp (Nat.pos_of_ne_zero hk)
      refine ⟨_, List.mem_map_of_mem hx, ?_⟩
      rw [if_pos hxp]
      simp only [Bool.and_eq_true, decide_eq_true_eq] at hxp
      refine Eq.trans ?_ (req.dto_newRequest 0 0)
      simp only [FriendRequestModel.dto, NewFriendRequest.row, FriendRequest.newRequest, hxp.1,
        hxp.2]
  | _ => exact hs.elim

/-- A request stays as it is until it is stored again or deleted. -/
theorem holds_exec {req : FriendRequest} (hh : db.Holds req)
    (hs : ∀ a, (s.exec now db).1 = .ok a →
      ¬ StoresRequest req.requesterHashId req.targetHashId ⟨.sql s, .ok a⟩ ∧
      ¬ DeletesRequests req.requesterHashId ⟨.sql s, .ok a⟩ ∧
      ¬ DeletesRequests req.targetHashId ⟨.sql s, .ok a⟩) : (s.exec now db).2.Holds req := by
  obtain ⟨x, hx, rfl⟩ := hh
  rcases friendRequests_stay now s hx with hx' | ⟨b, g, m, ts, rfl⟩ | ⟨u, hu, rfl | rfl⟩
  · exact ⟨x, hx', rfl⟩
  · refine absurd ⟨rfl, rfl, ?_⟩ (hs _ rfl).1
    exact Nat.pos_iff_ne_zero.mp (List.countP_pos_iff.mpr ⟨x, hx, by simp⟩)
  · obtain ⟨-, hr, ht⟩ := hs _ rfl
    rcases hu with rfl | rfl
    · exact absurd rfl hr
    · exact absurd rfl ht
  · obtain ⟨k, hk⟩ : ∃ k, ((deleteUser u).exec now db).1 = .ok k := by
      simp only [Stmt.exec]
      split
      · exact ⟨_, rfl⟩
      · exact ⟨_, rfl⟩
    obtain ⟨-, hr, ht⟩ := hs k hk
    rcases hu with rfl | rfl
    · exact absurd rfl hr
    · exact absurd rfl ht

/-- A pair has no request until one is stored. -/
theorem unrequested_exec {r u : Bytes} (hu : db.Unrequested r u)
    (hs : ∀ a, (s.exec now db).1 = .ok a → ¬ StoresRequest r u ⟨.sql s, .ok a⟩) :
    (s.exec now db).2.Unrequested r u := by
  rcases exec_ok_or_unchanged now db s with ⟨a, hok⟩ | ⟨seq, hdb⟩
  · intro x hx hpair
    rcases mem_friendRequests_exec hx with hold | ⟨n, rfl, rfl⟩ | ⟨y, hy, b, g, m, ts, rfl, rfl⟩
    · exact hu x hold hpair
    · exact hs a hok (Prod.mk.inj hpair)
    · exact hu y hy hpair
  · rw [hdb]
    exact hu

/-- After the deletion of an account none of its requests is stored. -/
theorem unrequested_of_delete (hg : db.FriendGraph) {r u v : Bytes} {a : s.Out}
    (hd : DeletesRequests v ⟨.sql s, .ok a⟩) (hv : r = v ∨ u = v) :
    (s.exec now db).2.Unrequested r u := by
  have hremove {v : Bytes} (hv : r = v ∨ u = v) : (removeFriendRequests db fun y ↦
      y.requesterHashId = v || y.targetHashId = v).Unrequested r u := by
    intro x hx hpair
    obtain ⟨rfl, rfl⟩ := Prod.mk.inj hpair
    have hnot := (List.mem_filter.mp hx).2
    simp only [Bool.not_eq_true', Bool.or_eq_false_iff, decide_eq_false_iff_not] at hnot
    exact hv.elim hnot.1 hnot.2
  cases s with
  | deleteFriendRequestsOf v' =>
      obtain rfl : v' = v := hd
      exact hremove hv
  | deleteUser v' =>
      obtain rfl : v' = v := hd
      simp only [Stmt.exec]
      split
      · exact hremove hv
      next hno =>
        -- without the account there was no request of it before
        intro x hx hpair
        obtain ⟨rfl, rfl⟩ := Prod.mk.inj hpair
        obtain ⟨hr, hu⟩ := hg.befriended x hx
        rcases hv with rfl | rfl
        · exact hno hr
        · exact hno hu
  | _ => exact hd.elim

theorem Db.Holds.same {db' : Db} {req : FriendRequest} (h : db.Holds req) (hs : db.Same db') :
    db'.Holds req := by
  obtain ⟨x, hx, hdto⟩ := h
  exact ⟨x, hs.friendRequests.mem_iff.mp hx, hdto⟩

theorem Db.Unrequested.same {db' : Db} {r u : Bytes} (h : db.Unrequested r u) (hs : db.Same db') :
    db'.Unrequested r u := fun x hx ↦ h x (hs.friendRequests.mem_iff.mpr hx)

theorem Db.Unrequested.not_holds {req : FriendRequest}
    (h : db.Unrequested req.requesterHashId req.targetHashId) : ¬ db.Holds req := by
  rintro ⟨x, hx, rfl⟩
  exact h x hx rfl

theorem holds_since {req : FriendRequest} {ext : History}
    (h : (server codec verifyDetached).run c ms = some c') (hext : c'.trace = c.trace ++ ext)
    (hkept : ∀ t e, (t, e) ∈ ext → ¬ StoresRequest req.requesterHashId req.targetHashId e ∧
      ¬ DeletesRequests req.requesterHashId e ∧ ¬ DeletesRequests req.targetHashId e)
    (hc : c.world.db.Holds req) : c'.world.db.Holds req := by
  refine run_since (I := fun ext db ↦ (∀ t e, (t, e) ∈ ext →
      ¬ StoresRequest req.requesterHashId req.targetHashId e ∧
      ¬ DeletesRequests req.requesterHashId e ∧ ¬ DeletesRequests req.targetHashId e) →
        db.Holds req)
    (fun hs hI hext ↦ (hI hext).same hs)
    (fun hI hext ↦ hI fun t e he ↦ hext t e (List.mem_append_left _ he)) ?_ h hext (fun _ ↦ hc)
    hkept
  intro ext db now t s hI hext
  refine holds_exec (hI fun t e he ↦ hext t e (List.mem_append_left _ he)) fun a ha ↦ ?_
  refine hext t _ (List.mem_append_right _ ?_)
  rw [ha]
  exact List.mem_singleton.mpr rfl

theorem unrequested_since {r u : Bytes} {ext : History}
    (h : (server codec verifyDetached).run c ms = some c') (hext : c'.trace = c.trace ++ ext)
    (hnew : ∀ t e, (t, e) ∈ ext → ¬ StoresRequest r u e)
    (hc : c.world.db.Unrequested r u) : c'.world.db.Unrequested r u := by
  refine run_since (I := fun ext db ↦ (∀ t e, (t, e) ∈ ext → ¬ StoresRequest r u e) →
      db.Unrequested r u)
    (fun hs hI hext ↦ (hI hext).same hs)
    (fun hI hext ↦ hI fun t e he ↦ hext t e (List.mem_append_left _ he)) ?_ h hext (fun _ ↦ hc)
    hnew
  intro ext db now t s hI hext
  refine unrequested_exec (hI fun t e he ↦ hext t e (List.mem_append_left _ he)) fun a ha ↦ ?_
  refine hext t _ (List.mem_append_right _ ?_)
  rw [ha]
  exact List.mem_singleton.mpr rfl

/-! ## Polling -/

/-- A load finds a request if it is stored and its timestamp passes the filter. -/
theorem mem_loadFriendRequests {req : FriendRequest} {since : Option Int64}
    {rows : List FriendRequestModel}
    (hload : ((loadFriendRequests req.targetHashId since).exec now db).1 = .ok rows) :
    req ∈ rows.map FriendRequestModel.dto ↔
      db.Holds req ∧ after since req.timestamp.toInt64 = true := by
  obtain rfl := Except.ok.inj hload
  simp only [List.mem_map, List.mem_insertionSort, List.mem_filter, Bool.and_eq_true,
    decide_eq_true_eq]
  constructor
  · rintro ⟨x, ⟨hx, -, hafter⟩, hdto⟩
    exact ⟨⟨x, hx, hdto⟩, timestamp_of_dto hdto ▸ hafter⟩
  · rintro ⟨⟨x, hx, hdto⟩, hafter⟩
    refine ⟨x, ⟨hx, ?_, ?_⟩, hdto⟩
    · rw [← hdto]
      rfl
    · rwa [timestamp_of_dto hdto]

/-- The filter of FETCH_FRIEND_REQUESTS. -/
theorem after_sinceClaimed {req : FetchFriendsRequest} {ts : Int64} :
    after req.sinceClaimed ts = true ↔
      req.sinceTimestamp = 0 ∨ req.sinceTimestamp.toInt64 < ts := by
  unfold FetchFriendsRequest.sinceClaimed
  split
  next h =>
    have hne : req.sinceTimestamp ≠ 0 := fun h0 ↦ by simp [h0] at h
    simp [after, hne]
  next h =>
    have h0 : req.sinceTimestamp = 0 := by
      rw [UInt64.lt_iff_toNat_lt] at h
      exact UInt64.toNat_inj.mp (Nat.eq_zero_of_not_pos h)
    simp [after, h0]

/-- In the history of `c`, CONTACT stores `req` at the place `p`, the poll `poll` of its target
reads at the place `q` and is answered with `resp`, and nothing else is stored for the pair in
between. -/
structure PolledAfter (c : State) (req : FriendRequest) (p : Nat) (poll : FetchFriendsRequest)
    (q : Nat) (resp : FetchFriendRequestsResponse) : Prop where
  contact : ∃ t e, Runs c t (.request (.contact req)) ∧ c.trace[p]? = some (t, e) ∧
    StoresRequest req.requesterHashId req.targetHashId e
  target : poll.userHash = req.targetHashId
  answer : ∃ t r reply, c.answered t = some (.request (.fetchFriendRequests poll), reply) ∧
    reply.payload = .fetchFriendRequests resp ∧
    c.trace[q]? = some (t, ⟨.sql (.loadFriendRequests poll.userHash poll.sinceClaimed), r⟩)
  lt : p < q
  latest : ∀ i t e, p < i → i < q → c.trace[i]? = some (t, e) →
    ¬ StoresRequest req.requesterHashId req.targetHashId e

/-- **Polling for friend requests.**  A poll whose cursor is `poll.sinceTimestamp` returns a
request that CONTACT has stored before, with its latest content, if and only if neither account
has been deleted in between and the timestamp in the request is later than the cursor, as signed
numbers, or there is no cursor. -/
theorem request_polled_iff {clock instant : Nat} {req : FriendRequest} {poll : FetchFriendsRequest}
    {resp : FetchFriendRequestsResponse} {p q : Nat}
    (h : (server codec verifyDetached).run (.start (.initial clock instant)) ms = some c)
    (hp : PolledAfter c req p poll q resp) :
    req ∈ resp.requests ↔
      (∀ i t e, p < i → i < q → c.trace[i]? = some (t, e) →
        ¬ DeletesRequests req.requesterHashId e ∧ ¬ DeletesRequests req.targetHashId e) ∧
      (poll.sinceTimestamp = 0 ∨ poll.sinceTimestamp.toInt64 < req.timestamp.toInt64) := by
  have hc : Reachable codec verifyDetached c := ⟨clock, instant, ms, h⟩
  obtain ⟨⟨t, e, hjob, hwrite, hstores⟩, htarget, ⟨u, r, reply, hans, hresp, hload⟩, hpq,
    hlatest⟩ := hp
  -- the load gave the rows of the answer
  obtain ⟨user, ts, rows, hpast, rfl⟩ := hc.requests_loaded hans hresp
  obtain rfl : r = .ok rows := by
    have hmem := mem_past.mpr (List.mem_of_getElem? hload)
    simp only [hpast, FetchFriendsRequest.loadedPast, FetchFriendsRequest.signedPast] at hmem
    simpa using hmem
  obtain ⟨s, a, rfl⟩ := hstores.sql
  obtain ⟨c₁, job, c₂, ms₁, d, ext, h₁, he, -, hok, h₂, hrun, hread, -, ⟨ms', hrun'⟩, hext,
    hbetween⟩ := hc.between hpq hwrite hload
  obtain rfl : job = .request (.contact req) := ((he.runs.run hrun).run hrun').unique hjob
  rw [htarget] at hread
  constructor
  · intro hmem
    refine ⟨fun i v e hpi hiq hi ↦ ?_, after_sinceClaimed.mp ((mem_loadFriendRequests hread).mp hmem).2⟩
    have hkept (w : Bytes) (hw : req.requesterHashId = w ∨ req.targetHashId = w) :
        ¬ DeletesRequests w e := by
      intro hdel
      obtain ⟨s', a', rfl⟩ := hdel.sql
      obtain ⟨c₃, job', c₄, ms₂, d', ext', h₃, he', -, -, -, hrun₂, hread', -, -, hext',
        hbetween'⟩ := hc.between hiq hi hload
      have hgone : c₄.world.db.Unrequested req.requesterHashId req.targetHashId := by
        rw [he'.db]
        exact unrequested_of_delete h₃.friendGraph hdel hw
      have hunreq : d'.world.db.Unrequested req.requesterHashId req.targetHashId := by
        refine unrequested_since hrun₂ hext' (fun v e he ↦ ?_) hgone
        obtain ⟨j, hij, hjq, hj⟩ := hbetween' v e he
        exact hlatest j v e (hpi.trans hij) hjq hj
      rw [htarget] at hread'
      exact hunreq.not_holds ((mem_loadFriendRequests hread').mp hmem).1
    exact ⟨hkept _ (.inl rfl), hkept _ (.inr rfl)⟩
  · rintro ⟨hkept, hcursor⟩
    refine (mem_loadFriendRequests hread).mpr ⟨?_, after_sinceClaimed.mpr hcursor⟩
    refine holds_since hrun hext (fun v e he ↦ ?_) (he.holds h₁ hok hstores)
    obtain ⟨i, hpi, hiq, hi⟩ := hbetween v e he
    exact ⟨hlatest i v e hpi hiq hi, hkept i v e hpi hiq hi⟩

namespace Sample

/-- User 2 polls for friend requests. -/
def pollRequests (since timestamp : UInt64) : FetchFriendsRequest :=
  ⟨word 2, since, signature, timestamp⟩

/-- User 1 asks for the friendship of user 2, with a timestamp of its choice. -/
def contactAt (timestamp : UInt64) : FriendRequest :=
  ⟨word 1, word 2, [3], signature, [], timestamp⟩

def pollSigned : List (Bytes × Bytes) :=
  [(key 2, (pollRequests 0 5).signedData), (key 2, (pollRequests 5 6).signedData),
   (key 1, (contactAt 1).messageToVerify), (key 1, (contactAt 6).messageToVerify)]

/-- At 5 s user 2 polls, then user 1 sends the request, and at 6 s user 2 polls from there. -/
def askPollRun (timestamp : UInt64) : Moves :=
  registers 0 1 ++ registers 1 2 ++ .act (.tick 5000000 0) ::
  .spawn (.request (.fetchFriendRequests (pollRequests 0 5))) :: steps 2 4 ++
  .spawn (.request (.contact (contactAt timestamp))) :: steps 3 6 ++ .act (.tick 6000000 0) ::
  .spawn (.request (.fetchFriendRequests (pollRequests 5 6))) :: steps 4 4

end Sample

open Sample in
/-- The second poll does not return the request that was accepted after the first one. -/
theorem request_never_polled : ∃ c, final pollSigned (askPollRun 1) = some c ∧
    c.answered 2 = some (.request (.fetchFriendRequests (pollRequests 0 5)),
      ⟨true, .fetchFriendRequests ⟨[], 5⟩, ""⟩) ∧
    c.answered 3 = some (.request (.contact (contactAt 1)), ⟨true, .empty, ""⟩) ∧
    c.answered 4 = some (.request (.fetchFriendRequests (pollRequests 5 6)),
      ⟨true, .fetchFriendRequests ⟨[], 6⟩, ""⟩) := by
  have hrun : ((final pollSigned (askPollRun 1)).map fun c ↦
      (c.answered 2, c.answered 3, c.answered 4)) =
      some (some (.request (.fetchFriendRequests (pollRequests 0 5)),
          ⟨true, .fetchFriendRequests ⟨[], 5⟩, ""⟩),
        some (.request (.contact (contactAt 1)), ⟨true, .empty, ""⟩),
        some (.request (.fetchFriendRequests (pollRequests 5 6)),
          ⟨true, .fetchFriendRequests ⟨[], 6⟩, ""⟩)) := by decide +kernel
  obtain ⟨c, hc, hview⟩ := Option.map_eq_some_iff.mp hrun
  obtain ⟨h₂, h₃, h₄⟩ : _ ∧ _ ∧ _ := by simpa only [Prod.mk.injEq] using hview
  exact ⟨c, hc, h₂, h₃, h₄⟩

open Sample in
/-- The second poll returns a request with a later timestamp. -/
theorem request_polled_iff_askPollRun : ∃ c resp, final pollSigned (askPollRun 6) = some c ∧
    PolledAfter c (contactAt 6) 10 (pollRequests 5 6) 14 resp ∧ contactAt 6 ∈ resp.requests := by
  have hrun : ((final pollSigned (askPollRun 6)).map fun c ↦
      ((c.trace.drop 10).take 5).map fun e ↦ (e.1, okStmt e.2)) =
      some [(3, some (.insertFriendRequest (contactAt 6).newRequest)), (3, none),
        (4, some (.selectUser (word 2))), (4, none),
        (4, some (.loadFriendRequests (word 2) (some 5)))] := by decide +kernel
  have hans : ((final pollSigned (askPollRun 6)).bind fun c ↦ c.answered 4) =
      some (.request (.fetchFriendRequests (pollRequests 5 6)),
        ⟨true, .fetchFriendRequests ⟨[contactAt 6], 6⟩, ""⟩) := by decide +kernel
  have hjob : ((final pollSigned (askPollRun 6)).bind fun c ↦ c.answered 3) =
      some (.request (.contact (contactAt 6)), ⟨true, .empty, ""⟩) := by decide +kernel
  obtain ⟨c, hc, hview⟩ := Option.map_eq_some_iff.mp hrun
  rw [hc, Option.bind_some] at hans hjob
  -- the event at each of the five places
  have hat (i : Nat) (hi : i < 5) {v : Nat × Option Stmt}
      (hv : ([(3, some (.insertFriendRequest (contactAt 6).newRequest)), (3, none),
        (4, some (.selectUser (word 2))), (4, none),
        (4, some (.loadFriendRequests (word 2) (some 5)))] : List (Nat × Option Stmt))[i]? = some v) :
      ∃ e, c.trace[10 + i]? = some (v.1, e) ∧ okStmt e = v.2 := by
    rw [← hview, List.getElem?_map, List.getElem?_take, if_pos hi, List.getElem?_drop] at hv
    obtain ⟨⟨t, e⟩, he, rfl⟩ := Option.map_eq_some_iff.mp hv
    exact ⟨e, he, rfl⟩
  obtain ⟨e, he, hinsert⟩ := hat 0 (by decide) rfl
  obtain ⟨a, rfl⟩ := ok_of_okStmt hinsert
  obtain ⟨e', he', hload⟩ := hat 4 (by decide) rfl
  obtain ⟨rows, rfl⟩ := ok_of_okStmt hload
  have hquiet (i t : Nat) (e : Event Res) (hpi : 10 < i) (hiq : i < 14)
      (hi : c.trace[i]? = some (t, e)) :
      okStmt e = none ∨ ∃ v, okStmt e = some (.selectUser v) := by
    obtain rfl | rfl | rfl : i = 11 ∨ i = 12 ∨ i = 13 := by omega
    · obtain ⟨e', he', hok⟩ := hat 1 (by decide) rfl
      obtain ⟨-, rfl⟩ := Prod.mk.inj (Option.some.inj (hi.symm.trans he'))
      exact .inl hok
    · obtain ⟨e', he', hok⟩ := hat 2 (by decide) rfl
      obtain ⟨-, rfl⟩ := Prod.mk.inj (Option.some.inj (hi.symm.trans he'))
      exact .inr ⟨_, hok⟩
    · obtain ⟨e', he', hok⟩ := hat 3 (by decide) rfl
      obtain ⟨-, rfl⟩ := Prod.mk.inj (Option.some.inj (hi.symm.trans he'))
      exact .inl hok
  have hpolled : PolledAfter c (contactAt 6) 10 (pollRequests 5 6) 14 ⟨[contactAt 6], 6⟩ :=
    ⟨⟨3, _, ⟨_, answered_iff.mp hjob⟩, he, rfl, rfl⟩, rfl, ⟨4, .ok rows, _, hans, rfl, he'⟩,
      by decide, fun i t e hpi hiq hi ↦ (not_stores_of_okStmt (hquiet i t e hpi hiq hi) _ _ []).1⟩
  refine ⟨c, _, hc, hpolled, (request_polled_iff hc hpolled).mpr ⟨?_, .inr (by decide)⟩⟩
  intro i t e hpi hiq hi
  have hnot := not_stores_of_okStmt (hquiet i t e hpi hiq hi) [] []
  exact ⟨(hnot _).2, (hnot _).2⟩

end ZenthDht
