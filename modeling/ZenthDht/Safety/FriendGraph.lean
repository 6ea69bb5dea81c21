import ZenthDht.Safety.Friends

/-!
# The friend graph

The tables `friend_requests` and `friend_responses` are a graph on the accounts.  The schema keeps
part of it: one request for a pair, requests between accounts that exist, responses to requests
that exist.  That the two hash columns of a response are the parties of its request is kept by the
handler only, which reads the request in one statement and writes the response in another; it
survives every interleaving because an id never names another request (`Reachable.linked`).
-/

namespace ZenthDht

open Conc Stmt

variable {codec : Codec} {verifyDetached : Bytes → Bytes → Bytes → Bool}
variable {c c' : State} {t : Nat} {now : NaiveDateTime} {db : Db} {s : Stmt}

/-! ## What the schema keeps -/

/-- The pair of accounts a friend request is between. -/
def FriendRequestModel.pair (x : FriendRequestModel) : Bytes × Bytes :=
  (x.requesterHashId, x.targetHashId)

theorem nodup_pair_exec (h : (db.friendRequests.map FriendRequestModel.pair).Nodup) :
    ((s.exec now db).2.friendRequests.map FriendRequestModel.pair).Nodup := by
  cases s with
  | insertFriendRequest n =>
      simp only [exec]
      split
      · exact h
      next hnew =>
      repeat' split
      · exact h
      · exact h
      · rw [List.map_append, List.nodup_append]
        refine ⟨h, by simp, fun a ha b hb hab ↦ hnew ?_⟩
        obtain ⟨x, hx, rfl⟩ := List.mem_map.mp ha
        obtain rfl := List.mem_singleton.mp hb
        simp only [FriendRequestModel.pair, Prod.mk.injEq] at hab
        simp only [List.any_eq_true, Bool.and_eq_true, decide_eq_true_eq]
        exact ⟨x, hx, hab⟩
  | updateFriendRequest r t b g m ts =>
      have hmap : ((updateFriendRequest r t b g m ts).exec now db).2.friendRequests.map
          FriendRequestModel.pair = db.friendRequests.map FriendRequestModel.pair := by
        simp only [exec, List.map_map]
        refine List.map_congr_left fun x _ ↦ ?_
        simp only [Function.comp_apply]
        split <;> rfl
      exact hmap ▸ h
  | deleteFriendRequestsOf u => exact h.sublist (List.filter_sublist.map _)
  | deleteUser u =>
      simp only [exec]
      split
      · exact h.sublist (List.filter_sublist.map _)
      · exact h
  | _ =>
      simp only [exec]
      repeat' split
      all_goals exact h

/-- Both parties of every friend request have an account. -/
def Db.Befriended (db : Db) : Prop :=
  ∀ x ∈ db.friendRequests, db.hasUser x.requesterHashId = true ∧ db.hasUser x.targetHashId = true

/-- A request that is in the table after the statement was between two accounts before it. -/
theorem Db.Befriended.before (h : db.Befriended) {x : FriendRequestModel}
    (hx : x ∈ (s.exec now db).2.friendRequests) :
    db.hasUser x.requesterHashId = true ∧ db.hasUser x.targetHashId = true := by
  rcases mem_friendRequests_exec hx with hold | ⟨n, rfl, rfl⟩ | ⟨y, hy, b, g, m, ts, -, rfl⟩
  · exact h x hold
  · -- the insert succeeds only for two accounts that exist
    simp only [Stmt.exec] at hx
    split at hx
    · exact h _ hx
    split at hx
    · exact h _ hx
    next hr =>
    split at hx
    · exact h _ hx
    next ht =>
    simp only [Db.hasUser, Bool.not_eq_true', Bool.not_eq_false] at hr ht
    exact ⟨hr, ht⟩
  · exact h y hy

/-- Deleting an account takes its friend requests with it. -/
theorem not_party_of_deleteUser {u : Bytes} (hu : db.hasUser u = true) {x : FriendRequestModel}
    (hx : x ∈ ((deleteUser u).exec now db).2.friendRequests) :
    x.requesterHashId ≠ u ∧ x.targetHashId ≠ u := by
  simp only [Stmt.exec, if_pos hu] at hx
  simpa using (List.mem_filter.mp hx).2

theorem Db.Befriended.exec (h : db.Befriended) : (s.exec now db).2.Befriended := by
  intro x hx
  obtain ⟨hr, ht⟩ := h.before hx
  refine ⟨hasUser_exec hr ?_, hasUser_exec ht ?_⟩
  · rintro rfl
    exact (not_party_of_deleteUser hr hx).1 rfl
  · rintro rfl
    exact (not_party_of_deleteUser ht hx).2 rfl

/-! ## What the handlers keep -/

/-- CONTACT does nothing for a request to oneself. -/
theorem contact_self_obeys {guard : Past → Op → Prop} {req : FriendRequest}
    (h : req.requesterHashId = req.targetHashId) :
    (contact req).Obeys guard (fun _ _ ↦ True) [] := by
  unfold contact
  repeat' split
  all_goals exact trivial

/-- Jobs that do something are no friend request to oneself. -/
def NotSelf (job : Job) (_ : Past) (_ : Op) : Prop :=
  ∀ req, job = .request (.contact req) → req.requesterHashId ≠ req.targetHashId

theorem code_notSelf (codec : Codec) (job : Job) :
    (code codec job).Obeys (NotSelf job) (fun _ _ ↦ True) [] := by
  by_cases hself : ∃ req, job = .request (.contact req) ∧ req.requesterHashId = req.targetHashId
  · obtain ⟨req, rfl, hself⟩ := hself
    have hcall : (processCall codec (.contact req)).Obeys (NotSelf (.request (.contact req)))
        (fun _ _ ↦ True) [] := (contact_self_obeys hself).bind fun _ _ _ ↦ trivial
    exact hcall.bind fun _ _ _ ↦ trivial
  · refine Program.obeys_of_forall _ (fun _ _ req hjob heq ↦ ?_) fun _ _ ↦ trivial
    exact hself ⟨req, hjob, heq⟩

/-- The parties of a friend request are two and have hashes of 32 bytes. -/
def FriendRequestModel.Proper (x : FriendRequestModel) : Prop :=
  x.requesterHashId ≠ x.targetHashId ∧ x.requesterHashId.length = 32 ∧ x.targetHashId.length = 32

/-- An acceptance comes with a bundle. -/
def FriendResponseModel.Complete (x : FriendResponseModel) : Prop :=
  x.accepted = true → ∃ b, x.preKeyBundle = some b ∧ b ≠ []

theorem Executes.proper (h : Reachable codec verifyDetached c) {job : Job}
    (he : Executes c t job s c') (hp : ∀ x ∈ c.world.db.friendRequests, x.Proper) :
    ∀ x ∈ c'.world.db.friendRequests, x.Proper := by
  intro x hx
  rw [he.db] at hx
  rcases mem_friendRequests_exec hx with hx | ⟨n, rfl, rfl⟩ | ⟨y, hy, b, g, m, ts, -, rfl⟩
  · exact hp x hx
  · obtain ⟨req, rfl, rfl, key, message, signature, ⟨hr, ht, -⟩, -⟩ := h.executes he
    obtain ⟨k, hpool, -⟩ := he.pool
    obtain ⟨clock, instant, ms, hms⟩ := h
    have hself : NotSelf _ _ _ := Machine.guard_of_run (code_notSelf codec) hms hpool
    exact ⟨hself req rfl, hr, ht⟩
  · exact hp y hy

theorem Executes.complete (h : Reachable codec verifyDetached c) {job : Job}
    (he : Executes c t job s c') (hp : ∀ x ∈ c.world.db.friendResponses, x.Complete) :
    ∀ x ∈ c'.world.db.friendResponses, x.Complete := by
  have hguard := h.executes he
  -- what a submission that passed its field checks writes
  have hwrite {req : FriendResponse} (hv : (Call.respondFriendRequest req).Vouched codec
      (past t c.trace)) (hacc : req.accepted = true) :
      ∃ b, nonEmpty req.preKeyBundle = some b ∧ b ≠ [] := by
    obtain ⟨key, message, signature, ⟨-, -, hne, -⟩, -⟩ := hv
    exact ⟨req.preKeyBundle, by simp [nonEmpty, hne hacc], hne hacc⟩
  intro x hx
  rw [he.db] at hx
  rcases mem_friendResponses_exec hx with ⟨hx, -⟩ | ⟨n, id, rfl, rfl, -⟩ |
    ⟨y, hy, a, b, g, rfl, rfl⟩
  · exact hp x hx
  · obtain ⟨req, fr, -, -, rfl, hv⟩ := hguard
    exact hwrite hv
  · obtain ⟨req, fr, -, -, -, rfl, rfl, rfl, hv⟩ := hguard
    exact hwrite hv

/-! ## The invariant -/

/-- The friend graph: at most one request for a pair, between two accounts that exist; responses
to requests that exist and by their parties; no acceptance without a bundle. -/
structure Db.FriendGraph (db : Db) : Prop where
  pairs : (db.friendRequests.map FriendRequestModel.pair).Nodup
  proper : ∀ x ∈ db.friendRequests, x.Proper
  befriended : db.Befriended
  linked : db.Linked
  complete : ∀ x ∈ db.friendResponses, x.Complete

theorem Db.FriendGraph.same {db' : Db} (h : db.FriendGraph) (hs : db.Same db') :
    db'.FriendGraph where
  pairs := (hs.friendRequests.map _).nodup_iff.mp h.pairs
  proper x hx := h.proper x (hs.friendRequests.mem_iff.mpr hx)
  befriended x hx := by
    obtain ⟨hr, ht⟩ := h.befriended x (hs.friendRequests.mem_iff.mpr hx)
    simp only [hasUser_iff, hs.users.mem_iff] at hr ht ⊢
    exact ⟨hr, ht⟩
  linked := h.linked.same hs
  complete x hx := h.complete x (hs.friendResponses.mem_iff.mpr hx)

theorem Reachable.friendGraph (h : Reachable codec verifyDetached c) :
    c.world.db.FriendGraph := by
  refine h.induction (I := fun d ↦ d.world.db.FriendGraph) ?_ ?_
  · intro clock instant
    exact ⟨List.nodup_nil, fun _ ↦ nofun, fun _ ↦ nofun, fun _ ↦ nofun, fun _ ↦ nofun⟩
  · intro d m d' hd hg hs
    rcases Step.db hs with hsame | ⟨t, job, s, he⟩
    · exact hg.same hsame
    · have hp := he.proper hd hg.proper
      have hl := he.linked hd hg.linked
      have hcomplete := he.complete hd hg.complete
      rw [he.db] at *
      exact ⟨nodup_pair_exec hg.pairs, hp, hg.befriended.exec, hl, hcomplete⟩

/-- **The friend graph.**  Whatever requests, connections and cleanups are interleaved statement
by statement, the tables of friend requests and responses are a friend graph. -/
theorem friend_graph {clock instant : Nat} {ms : Moves}
    (h : (server codec verifyDetached).run (.start (.initial clock instant)) ms = some c) :
    c.world.db.FriendGraph := by
  have hc : Reachable codec verifyDetached c := ⟨clock, instant, ms, h⟩
  exact hc.friendGraph

open Sample in
/-- The graph of user 1, user 2 and an acceptance that was submitted twice. -/
theorem friend_graph_replayRun : ∃ c, final friendSigned replayRun = some c ∧
    c.world.db.friendRequests.map FriendRequestModel.pair = [(word 1, word 2)] ∧
    c.world.db.friendResponses.map FriendResponseModel.accepted = [true] ∧
    c.world.db.FriendGraph := by
  have hrun : ((final friendSigned replayRun).map fun c ↦
      (c.world.db.friendRequests.map FriendRequestModel.pair,
        c.world.db.friendResponses.map FriendResponseModel.accepted)) =
      some ([(word 1, word 2)], [true]) := by decide +kernel
  obtain ⟨c, hc, hview⟩ := Option.map_eq_some_iff.mp hrun
  obtain ⟨hrequests, hresponses⟩ := Prod.mk.inj hview
  exact ⟨c, hc, hrequests, hresponses, friend_graph hc⟩

end ZenthDht
