import ZenthDht.Safety.FriendGraph
import ZenthDht.Spec.Alone

/-!
# Deleting an account

DELETE is six or seven statements.  Run alone, with success, they leave the database without the
rows that name the account, and change nothing else (`deletion_exact`).  The responses of and to
the account go through the ids of its friend requests, which finds all of them because responses
name the parties of their request (`Db.Linked`); its one-time pre-keys go through the cascade of
the schema.
-/

namespace ZenthDht

open Conc Stmt

variable {codec : Codec} {verifyDetached : Bytes → Bytes → Bytes → Bool}
variable {c c' : State} {db : Db} {u : Bytes}

/-! ## The rows of an account -/

/-- The friend request is by or to `u`. -/
def FriendRequestModel.Involves (u : Bytes) (x : FriendRequestModel) : Bool :=
  x.requesterHashId = u || x.targetHashId = u

/-- The response is by or to `u`. -/
def FriendResponseModel.Involves (u : Bytes) (x : FriendResponseModel) : Bool :=
  x.responderHashId = u || x.requesterHashId = u

/-- The message is from or to `u`. -/
def MessageModel.Involves (u : Bytes) (x : MessageModel) : Bool :=
  x.senderHashId = u || x.recipientHashId = u

/-- The database without the rows that name `u`. -/
def Db.without (db : Db) (u : Bytes) : Db :=
  { db with
    users := db.users.filter fun x ↦ x.userHashId ≠ u
    authChallenges := db.authChallenges.filter fun x ↦ x.userHashId ≠ u
    sessions := db.sessions.filter fun x ↦ x.userHashId ≠ u
    friendRequests := db.friendRequests.filter fun x ↦ !x.Involves u
    friendResponses := db.friendResponses.filter fun x ↦ !x.Involves u
    oneTimePrekeys := db.oneTimePrekeys.filter fun x ↦ x.userHashId ≠ u
    messages := db.messages.filter fun x ↦ !x.Involves u }

/-- Some user column of some table has the hash `u`. -/
def Db.Names (db : Db) (u : Bytes) : Prop :=
  (∃ x ∈ db.users, x.userHashId = u) ∨ (∃ x ∈ db.authChallenges, x.userHashId = u) ∨
  (∃ x ∈ db.sessions, x.userHashId = u) ∨ (∃ x ∈ db.friendRequests, x.Involves u = true) ∨
  (∃ x ∈ db.friendResponses, x.Involves u = true) ∨ (∃ x ∈ db.oneTimePrekeys, x.userHashId = u) ∨
  (∃ x ∈ db.messages, x.Involves u = true)

theorem Db.not_names_without (db : Db) (u : Bytes) : ¬ (db.without u).Names u := by
  simp [Db.Names, Db.without]

theorem Db.Same.names {db' : Db} (h : db.Same db') : db.Names u ↔ db'.Names u := by
  simp only [Db.Names, h.users.mem_iff, h.authChallenges.mem_iff, h.sessions.mem_iff,
    h.friendRequests.mem_iff, h.friendResponses.mem_iff, h.oneTimePrekeys.mem_iff,
    h.messages.mem_iff]

/-! ## Responses and the ids of their requests -/

/-- The ids `delete_user_data` loads first. -/
def Db.requestIds (db : Db) (u : Bytes) : List Nat :=
  (db.friendRequests.filter (FriendRequestModel.Involves u)).map FriendRequestModel.id

/-- The responses by or to `u` are those to the requests by or to `u`. -/
theorem involves_iff (hk : db.Keyed) (hl : db.Linked) {x : FriendResponseModel}
    (hx : x ∈ db.friendResponses) : x.Involves u = (db.requestIds u).contains x.requestId := by
  obtain ⟨y, hy, hid, hr, ht⟩ := hl x hx
  rw [Bool.eq_iff_iff, List.contains_iff_mem, Db.requestIds, List.mem_map]
  have hinv : x.Involves u = true ↔ y.Involves u = true := by
    simp [FriendResponseModel.Involves, FriendRequestModel.Involves, hr, ht, or_comm]
  rw [hinv]
  constructor
  · intro h
    exact ⟨y, List.mem_filter.mpr ⟨hy, h⟩, hid⟩
  · rintro ⟨z, hz, hzid⟩
    obtain ⟨hz, h⟩ := List.mem_filter.mp hz
    obtain rfl := hk.friendRequests.eq_of_key hz hy (hzid.trans hid.symm)
    exact h

/-! ## The statements of DELETE -/

/-- The rows after the first part of DELETE: no responses to requests of `u`. -/
def Db.withoutResponses (db : Db) (u : Bytes) : Db :=
  { db with friendResponses := db.friendResponses.filter fun x ↦
      !(db.requestIds u).contains x.requestId }

theorem withoutResponses_of_nil (h : db.requestIds u = []) : db.withoutResponses u = db := by
  simp [Db.withoutResponses, h]

/-- Removing requests of which there are none does nothing. -/
theorem removeFriendRequests_of_none {p : FriendRequestModel → Bool}
    (h : ∀ x ∈ db.friendRequests, p x = false) : removeFriendRequests db p = db := by
  have hgone : db.friendRequests.filter p = [] := by
    rw [List.filter_eq_nil_iff]
    intro x hx
    simp [h x hx]
  have hkept : db.friendRequests.filter (fun x ↦ !p x) = db.friendRequests := by
    rw [List.filter_eq_self]
    intro x hx
    simp [h x hx]
  have hresponses : db.friendResponses.filter (fun x ↦ !([] : List Nat).contains x.requestId) =
      db.friendResponses := by simp
  simp only [removeFriendRequests, hgone, List.map_nil, hkept, hresponses]

theorem deleteUser_eq (now : NaiveDateTime) (hu : db.hasUser u = true)
    (h : ∀ x ∈ db.friendRequests, x.Involves u = false) :
    ((deleteUser u).exec now db).2 = { db with
      users := db.users.filter fun x ↦ x.userHashId ≠ u
      authChallenges := db.authChallenges.filter fun x ↦ x.userHashId ≠ u
      sessions := db.sessions.filter fun x ↦ x.userHashId ≠ u
      oneTimePrekeys := db.oneTimePrekeys.filter fun x ↦ x.userHashId ≠ u } := by
  have hnone : removeFriendRequests db (fun x ↦ x.requesterHashId = u || x.targetHashId = u) = db :=
    removeFriendRequests_of_none h
  simp only [Stmt.exec, if_pos hu, removeUser, hnone]

/-- The five deletes after that, one after the other. -/
theorem deletes_eq (hk : db.Keyed) (hl : db.Linked) (hu : db.hasUser u = true)
    (n₁ n₂ n₃ n₄ n₅ : NaiveDateTime) :
    ((deleteUser u).exec n₅ ((deleteChallengesOf u).exec n₄ ((deleteSessionsOf u).exec n₃
      ((deleteMessagesOf u).exec n₂ ((deleteFriendRequestsOf u).exec n₁
        (db.withoutResponses u)).2).2).2).2).2 = db.without u := by
  have hresponses : db.friendResponses.filter (fun x ↦
      !(db.requestIds u).contains x.requestId) = db.friendResponses.filter fun x ↦
        !x.Involves u := by
    refine List.filter_congr fun x hx ↦ ?_
    rw [involves_iff hk hl hx]
  -- the cascade finds no response that is still there
  have hrequests : removeFriendRequests (db.withoutResponses u) (FriendRequestModel.Involves u) =
      { db with
        friendRequests := db.friendRequests.filter fun x ↦ !x.Involves u
        friendResponses := db.friendResponses.filter fun x ↦ !x.Involves u } := by
    simp only [removeFriendRequests, Db.withoutResponses, ← hresponses, Db.requestIds,
      List.filter_filter, Bool.and_self]
  have h₁ : ((deleteFriendRequestsOf u).exec n₁ (db.withoutResponses u)).2 = _ := hrequests
  rw [h₁]
  refine (deleteUser_eq n₅ ?_ fun x hx ↦ ?_).trans ?_
  · exact hu
  · simpa using (List.mem_filter.mp hx).2
  · simp only [Stmt.exec, List.filter_filter, Bool.and_self]
    rfl

/-! ## The effect of DELETE -/

variable {w : World}

theorem deleteUserRows_wp (hk : db.Keyed) (hl : db.Linked) (hu : db.hasUser u = true)
    (hw : w.db.Same (db.withoutResponses u)) :
    (server codec verifyDetached).Wp (fun r w ↦ r = .ok () → w.db.Same (db.without u))
      (deleteUserRows u) w := by
  refine wp_sql (fun _ _ _ ↦ nofun) (fun w₁ w hw₁ hw ↦ ?_) hw
  refine wp_sql (fun _ _ _ ↦ nofun) (fun w₂ w hw₂ hw ↦ ?_) hw
  refine wp_sql (fun _ _ _ ↦ nofun) (fun w₃ w hw₃ hw ↦ ?_) hw
  refine wp_sql (fun _ _ _ ↦ nofun) (fun w₄ w hw₄ hw ↦ ?_) hw
  refine wp_sql (fun _ _ _ ↦ nofun) (fun w₅ w hw₅ hw ↦ ?_) hw
  rw [deletes_eq hk hl hu] at hw
  split
  · exact nofun
  · exact fun _ ↦ hw

theorem deleteUserData_wp (hk : db.Keyed) (hl : db.Linked) (hu : db.hasUser u = true)
    (hw : w.db.Same db) :
    (server codec verifyDetached).Wp (fun r w ↦ r = .ok () → w.db.Same (db.without u))
      (deleteUserData u) w := by
  refine wp_sql (fun _ _ _ ↦ nofun) (fun w₁ w hw₁ hw ↦ ?_) hw
  have hids : (w₁.db.requestIds u).Perm (db.requestIds u) :=
    (hw₁.friendRequests.filter _).map _
  change (server codec verifyDetached).Wp _ (if w₁.db.requestIds u = [] then deleteUserRows u else
    sql (.deleteFriendResponses (w₁.db.requestIds u)) >>= _) w
  split
  next hnil =>
    rw [hnil] at hids
    refine deleteUserRows_wp hk hl hu ?_
    rw [withoutResponses_of_nil hids.symm.eq_nil]
    exact hw
  · refine wp_sql (fun _ _ _ ↦ nofun) (fun w₂ w hw₂ hw ↦ ?_) hw
    refine deleteUserRows_wp hk hl hu ?_
    simp only [Stmt.exec, hids.contains_eq] at hw
    exact hw

theorem deleteAccount_wp (req : DeleteRequest) (hk : db.Keyed) (hl : db.Linked)
    (hw : w.db.Same db) :
    (server codec verifyDetached).Wp (fun r w ↦ ∀ resp, r = .ok resp → resp.success = true →
      db.hasUser req.userHashId = true ∧ w.db.Same (db.without req.userHashId))
      (deleteAccount req) w := by
  unfold deleteAccount
  split
  · rintro _ ⟨⟩ ⟨⟩
  split
  · rintro _ ⟨⟩ ⟨⟩
  refine (Machine.wp_bind _ _).mpr (wp_call (by nofun) (fun w r hw ↦ ?_) hw)
  change (server codec verifyDetached).Wp _ (if _ then _ else _) w
  split
  · rintro _ ⟨⟩ ⟨⟩
  refine wp_sql ?_ (fun w₁ w hw₁ hw ↦ ?_) hw
  · rintro w e hw _ ⟨⟩ ⟨⟩
  cases hread : ((selectUser req.userHashId).exec w₁.clock w₁.db).1 with
  | error e => cases e <;> rintro _ ⟨⟩ ⟨⟩
  | ok user =>
  have hu : db.hasUser req.userHashId = true := by
    obtain ⟨huser, hid⟩ := selectUser_sound hread
    rw [← hw₁.hasUser, hasUser_iff]
    exact ⟨user, huser, hid⟩
  refine wp_call (by nofun) (fun w r hw ↦ ?_) hw
  split
  · rintro _ ⟨⟩ ⟨⟩
  refine (Machine.wp_bind _ _).mpr ((deleteUserData_wp hk hl hu hw).mono fun r w hdone ↦ ?_)
  cases r with
  | error e => rintro _ ⟨⟩ ⟨⟩
  | ok _ =>
      refine wp_call (by nofun) (fun w r hw ↦ ?_) (hdone rfl)
      exact fun _ _ _ ↦ ⟨hu, hw⟩

/-- **Deleting an account erases exactly the account.**  From any reachable state, a DELETE that
runs alone and reports success leaves every table as it was without the rows that name the user,
up to the order of rows.  The responses among them are those to the requests of the user, and no
user column of any table names the user afterwards. -/
theorem deletion_exact {clock instant : Nat} {ms ms' : Moves} {req : DeleteRequest} {reply : Reply}
    (h : (server codec verifyDetached).run (.start (.initial clock instant)) ms = some c)
    (hrun : (server codec verifyDetached).run c (.spawn (.request (.delete req)) :: ms') = some c')
    (halone : ∀ m ∈ ms', m.Alone c.pool.length)
    (hans : c'.answered c.pool.length = some (.request (.delete req), reply))
    (hsuccess : reply.success = true) :
    c'.world.db.Same (c.world.db.without req.userHashId) ∧
    ((∀ config, Move.act (.setConfig config) ∉ ms') →
      c'.world.db.appConfig = c.world.db.appConfig) ∧
    ¬ c'.world.db.Names req.userHashId ∧
    ∀ x ∈ c.world.db.friendResponses, x.Involves req.userHashId = true ↔
      ∃ y ∈ c.world.db.friendRequests, y.Involves req.userHashId = true ∧ y.id = x.requestId := by
  have hc : Reachable codec verifyDetached c := ⟨clock, instant, ms, h⟩
  have hwp : (server codec verifyDetached).Wp (fun r w ↦ ∀ reply, r = some reply →
      reply.success = true → w.db.Same (c.world.db.without req.userHashId))
      (code codec (.request (.delete req))) c.world := by
    refine (Machine.wp_bind _ _).mpr ((Machine.wp_bind _ _).mpr
      ((deleteAccount_wp req hc.keyed hc.linked .rfl).mono fun r w hpost ↦ ?_))
    cases r with
    | error e => rintro _ ⟨⟩ ⟨⟩
    | ok resp =>
        rintro _ ⟨⟩ hs
        exact (hpost resp rfl hs).2
  obtain ⟨w, hw, hdrift⟩ := Machine.wp_of_spawn hrun halone hwp (answered_iff.mp hans)
  have hsame := (drifts_same hdrift).trans (hw reply rfl hsuccess)
  refine ⟨hsame, fun hconfig ↦ ?_, ?_, fun x hx ↦ ?_⟩
  · refine appConfig_of_run hrun fun config hmem ↦ hconfig config ?_
    exact (List.mem_cons.mp hmem).resolve_left nofun
  · rw [hsame.names]
    exact Db.not_names_without _ _
  · rw [involves_iff hc.keyed hc.linked hx, List.contains_iff_mem, Db.requestIds, List.mem_map]
    simp only [List.mem_filter, and_assoc]

namespace Sample

/-- User 1 signs the deletion of its account. -/
def eraseRequest : DeleteRequest := ⟨word 1, signature, 5⟩

def eraseSigned : List (Bytes × Bytes) := (key 1, eraseRequest.signedData) :: friendSigned

/-- User 1 deletes its account. -/
def eraseRun : Moves := .spawn (.request (.delete eraseRequest)) :: steps 5 11

end Sample

open Sample in
/-- User 1, whose request user 2 has answered, deletes its account: user 2 remains. -/
theorem deletion_exact_eraseRun : ∃ c c', final eraseSigned friendRun = some c ∧
    (system eraseSigned).run c eraseRun = some c' ∧ c.world.db.Names (word 1) ∧
    ¬ c'.world.db.Names (word 1) ∧ c'.world.db.hasUser (word 2) = true := by
  have hbefore : ((final eraseSigned friendRun).map fun c ↦
      (c.pool.length, c.world.db.hasUser (word 1))) = some (5, true) := by decide +kernel
  have hafter : ((final eraseSigned (friendRun ++ eraseRun)).map fun c ↦
      (c.answered 5, c.world.db.hasUser (word 2))) = some
      (some (.request (.delete eraseRequest), ⟨true, .delete ⟨true, ""⟩, ""⟩), true) := by
    decide +kernel
  obtain ⟨c', hrun, hview⟩ := Option.map_eq_some_iff.mp hafter
  obtain ⟨hans, huser'⟩ := Prod.mk.inj hview
  obtain ⟨c, hc, hc'⟩ := Machine.run_append.mp hrun
  obtain ⟨d, hd, hview⟩ := Option.map_eq_some_iff.mp hbefore
  obtain rfl : d = c := Option.some.inj (hd.symm.trans hc)
  obtain ⟨hpool, huser⟩ := Prod.mk.inj hview
  have halone : ∀ m ∈ steps 5 11, m.Alone d.pool.length := by
    intro m hm
    obtain rfl := List.eq_of_mem_replicate hm
    exact hpool.symm
  rw [← hpool] at hans
  obtain ⟨-, -, hnames, -⟩ := deletion_exact hc hc' halone hans rfl
  exact ⟨d, c', hc, hc', .inl (hasUser_iff.mp huser), hnames, huser'⟩

end ZenthDht
