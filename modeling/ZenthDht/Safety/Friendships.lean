import ZenthDht.Safety.FriendGraph
import ZenthDht.Spec.Alone
import ZenthDht.Spec.Contact
import Mathlib.Data.List.Perm.Basic

/-!
# Both sides of a friendship

FETCH_FRIEND_RESPONSES takes the requester from the response, FETCH_MY_ACCEPTED from the request
that the response refers to.  In a friend graph the two agree, because a response names the
parties of its request (`Db.Linked`) and an id names one request (`Db.Keyed`): the join of the
second fetch adds nothing to a response but the bundle of its request (`acceptancesBy_eq`).
-/

namespace ZenthDht

open Conc Stmt

variable {codec : Codec} {verifyDetached : Bytes → Bytes → Bytes → Bool}
variable {c c₁ c₂ : State} {db : Db} {w : World}

/-! ## The entries -/

/-- The entries of FETCH_FRIEND_RESPONSES for the requester `u`. -/
def Db.responsesTo (db : Db) (u : Bytes) (since : Option NaiveDateTime) : List FriendResponse :=
  (db.friendResponses.filter fun x ↦ x.requesterHashId = u && after since x.createdAt).map
    FriendResponseModel.dto

/-- The entries of FETCH_MY_ACCEPTED for the responder `u`. -/
def Db.acceptancesBy (db : Db) (u : Bytes) (since : Option NaiveDateTime) : List FriendResponse :=
  ((db.friendResponses.filter fun x ↦
      x.responderHashId = u && x.accepted && after since x.createdAt).flatMap fun x ↦
    (db.friendRequests.filter fun y ↦ y.id = x.requestId).map fun y ↦
      (y.requesterHashId, y.preKeyBundle, x.dilithiumSignature, x.createdAt)).map (acceptedDto u)

theorem Db.Same.responsesTo {db' : Db} (h : db.Same db') (u : Bytes)
    (since : Option NaiveDateTime) : (db.responsesTo u since).Perm (db'.responsesTo u since) :=
  (h.friendResponses.filter _).map _

theorem Db.Same.acceptancesBy {db' : Db} (h : db.Same db') (u : Bytes)
    (since : Option NaiveDateTime) : (db.acceptancesBy u since).Perm (db'.acceptancesBy u since) :=
  ((h.friendResponses.filter _).flatMap fun _ _ ↦ (h.friendRequests.filter _).map _).map _

/-! ## The join -/

/-- The bundle in the friend request of `r` to `u`. -/
def Db.requestBundle (db : Db) (r u : Bytes) : Option Bytes :=
  (db.friendRequests.find? fun y ↦ y.pair = (r, u)).map FriendRequestModel.preKeyBundle

/-- A response refers to the one request between the two accounts that it names. -/
theorem join_eq (hk : db.Keyed) (hg : db.FriendGraph) {x : FriendResponseModel}
    (hx : x ∈ db.friendResponses) :
    ∃ y, db.friendRequests.filter (fun y ↦ y.id = x.requestId) = [y] ∧
      y.requesterHashId = x.requesterHashId ∧
      db.requestBundle x.requesterHashId x.responderHashId = some y.preKeyBundle := by
  obtain ⟨y, hy, hid, hr, ht⟩ := hg.linked x hx
  have hpair : y.pair = (x.requesterHashId, x.responderHashId) := Prod.ext hr ht
  refine ⟨y, ?_, hr, ?_⟩
  · rw [← hid]
    exact filter_key_eq hk.friendRequests.nodup hy
  · rw [Db.requestBundle, ← hpair, ← List.head?_filter, filter_key_eq hg.pairs hy]
    rfl

/-- The entry of FETCH_MY_ACCEPTED for a response. -/
def Db.acceptance (db : Db) (x : FriendResponseModel) : FriendResponse where
  responderHashId := x.responderHashId
  requesterHashId := x.requesterHashId
  accepted := true
  preKeyBundle := (db.requestBundle x.requesterHashId x.responderHashId).getD []
  dilithiumSignature := x.dilithiumSignature
  timestamp := createdAtSecs x.createdAt

/-- FETCH_MY_ACCEPTED lists the acceptances, each with the bundle of the request. -/
theorem acceptancesBy_eq (hk : db.Keyed) (hg : db.FriendGraph) (u : Bytes)
    (since : Option NaiveDateTime) :
    db.acceptancesBy u since = (db.friendResponses.filter fun x ↦
      x.responderHashId = u && x.accepted && after since x.createdAt).map db.acceptance := by
  rw [Db.acceptancesBy, List.map_flatMap, List.map_eq_flatMap]
  refine List.flatMap_congr fun x hx ↦ ?_
  obtain ⟨hx, hfilter⟩ := List.mem_filter.mp hx
  simp only [Bool.and_eq_true, decide_eq_true_eq] at hfilter
  obtain ⟨y, hjoin, hr, hbundle⟩ := join_eq hk hg hx
  rw [← hfilter.1.1]
  simp only [hjoin, List.map_cons, List.map_nil, acceptedDto, Db.acceptance, hr, hbundle,
    Option.getD_some]

/-! ## The listing -/

theorem fetchFriendResponses_wp (req : FetchFriendsRequest) (hw : w.db.Same db) :
    (server codec verifyDetached).Wp (fun r _ ↦ ∀ resp, r = .ok resp →
      resp.responses.Perm (db.responsesTo req.userHash req.since))
      (fetchFriendResponses req) w := by
  unfold fetchFriendResponses
  split
  · exact nofun
  split
  · exact nofun
  refine wp_sql (fun _ _ _ ↦ nofun) (fun w₁ w hw₁ hw ↦ ?_) hw
  cases ((selectUser req.userHash).exec w₁.clock w₁.db).1 with
  | error e => cases e <;> exact nofun
  | ok user =>
  refine wp_call (by nofun) (fun w r hw ↦ ?_) hw
  split
  · exact nofun
  refine wp_sql (fun _ _ _ ↦ nofun) (fun w₂ w hw₂ hw ↦ ?_) hw
  split
  · exact nofun
  next rows hload =>
  obtain ⟨-, rfl⟩ := loadFriendResponses_ok hload
  refine (Machine.wp_bind _ _).mpr (wp_call (by nofun) (fun w r hw ↦ ?_) hw)
  rintro resp ⟨⟩
  exact hw₂.responsesTo _ _

theorem fetchMyAccepted_wp (req : FetchFriendsRequest) (hw : w.db.Same db) :
    (server codec verifyDetached).Wp (fun r _ ↦ ∀ resp, r = .ok resp →
      resp.responses.Perm (db.acceptancesBy req.userHash req.since))
      (fetchMyAccepted req) w := by
  unfold fetchMyAccepted
  split
  · exact nofun
  split
  · exact nofun
  refine wp_sql (fun _ _ _ ↦ nofun) (fun w₁ w hw₁ hw ↦ ?_) hw
  cases ((selectUser req.userHash).exec w₁.clock w₁.db).1 with
  | error e => cases e <;> exact nofun
  | ok user =>
  refine wp_call (by nofun) (fun w r hw ↦ ?_) hw
  split
  · exact nofun
  refine wp_sql (fun _ _ _ ↦ nofun) (fun w₂ w hw₂ hw ↦ ?_) hw
  split
  · exact nofun
  next rows hload =>
  obtain rfl := loadAccepted_ok hload
  refine (Machine.wp_bind _ _).mpr (wp_call (by nofun) (fun w r hw ↦ ?_) hw)
  rintro resp ⟨⟩
  exact hw₂.acceptancesBy _ _

/-! ## Agreement -/

/-- What both sides are told of an acceptance. -/
def FriendResponse.signed (e : FriendResponse) : Bytes × UInt64 :=
  (e.dilithiumSignature, e.timestamp)

/-- The acceptances of the requests of `r` by `u`. -/
def Db.acceptances (db : Db) (r u : Bytes) (since : Option NaiveDateTime) :
    List FriendResponseModel :=
  db.friendResponses.filter fun x ↦
    x.requesterHashId = r && x.responderHashId = u && x.accepted && after since x.createdAt

/-- The entries by `u` that the requester `r` is given as accepted. -/
theorem responsesTo_filter (r u : Bytes) (since : Option NaiveDateTime) :
    (db.responsesTo r since).filter (fun e ↦ e.responderHashId = u && e.accepted) =
      (db.acceptances r u since).map FriendResponseModel.dto := by
  rw [Db.responsesTo, List.filter_map, List.filter_filter, Db.acceptances]
  congr 1
  refine List.filter_congr fun x _ ↦ ?_
  simp only [Function.comp_apply, FriendResponseModel.dto]
  grind

/-- The entries for `r` that the responder `u` is given. -/
theorem acceptancesBy_filter (hk : db.Keyed) (hg : db.FriendGraph) (r u : Bytes)
    (since : Option NaiveDateTime) :
    (db.acceptancesBy u since).filter (fun e ↦ e.requesterHashId = r) =
      (db.acceptances r u since).map db.acceptance := by
  rw [acceptancesBy_eq hk hg, List.filter_map, List.filter_filter, Db.acceptances]
  congr 1
  refine List.filter_congr fun x _ ↦ ?_
  simp only [Function.comp_apply, Db.acceptance]
  grind

theorem Answers.responsesTo {req : FetchFriendsRequest} {resp : FetchFriendResponsesResponse}
    {m : String} (h : Answers codec verifyDetached c (.fetchFriendResponses req)
      ⟨true, .fetchFriendResponses resp, m⟩ c₁) :
    resp.responses.Perm (c.world.db.responsesTo req.userHash req.since) := by
  have hwp : (server codec verifyDetached).Wp (fun r _ ↦ ∀ resp,
      r.payload = .fetchFriendResponses resp →
      resp.responses.Perm (c.world.db.responsesTo req.userHash req.since))
      (processCall codec (.fetchFriendResponses req)) c.world := by
    refine (Machine.wp_bind _ _).mpr ((fetchFriendResponses_wp req .rfl).mono fun r w hpost ↦ ?_)
    cases r with
    | error e => exact nofun
    | ok resp =>
        rintro _ ⟨⟩
        exact hpost _ rfl
  obtain ⟨w, hpost, -⟩ := h.wp hwp
  exact hpost resp rfl

theorem Answers.acceptancesBy {req : FetchFriendsRequest} {resp : FetchFriendResponsesResponse}
    {m : String} (h : Answers codec verifyDetached c (.fetchMyAccepted req)
      ⟨true, .fetchFriendResponses resp, m⟩ c₁) :
    resp.responses.Perm (c.world.db.acceptancesBy req.userHash req.since) := by
  have hwp : (server codec verifyDetached).Wp (fun r _ ↦ ∀ resp,
      r.payload = .fetchFriendResponses resp →
      resp.responses.Perm (c.world.db.acceptancesBy req.userHash req.since))
      (processCall codec (.fetchMyAccepted req)) c.world := by
    refine (Machine.wp_bind _ _).mpr ((fetchMyAccepted_wp req .rfl).mono fun r w hpost ↦ ?_)
    cases r with
    | error e => exact nofun
    | ok resp =>
        rintro _ ⟨⟩
        exact hpost _ rfl
  obtain ⟨w, hpost, -⟩ := h.wp hwp
  exact hpost resp rfl

/-- **Both sides see the same friendships.**  In every reachable state, let `a` be answered to
FETCH_FRIEND_RESPONSES and `b` to FETCH_MY_ACCEPTED with the same `since_timestamp`.  The second
lists the user of the first as a requester if and only if the first lists the user of the second
as having accepted, with as many entries, the same signatures and the same timestamps.  The bundle
the responder is given is that of the friend request as it is stored, the bundle the requester is
given that of a stored response. -/
theorem friendships_agree {clock instant : Nat} {ms : Moves} {reqA reqB : FetchFriendsRequest}
    {a b : FetchFriendResponsesResponse} {ea eb : String}
    (h : (server codec verifyDetached).run (.start (.initial clock instant)) ms = some c)
    (hA : Answers codec verifyDetached c (.fetchFriendResponses reqA)
      ⟨true, .fetchFriendResponses a, ea⟩ c₁)
    (hB : Answers codec verifyDetached c (.fetchMyAccepted reqB)
      ⟨true, .fetchFriendResponses b, eb⟩ c₂)
    (hsince : reqA.sinceTimestamp = reqB.sinceTimestamp) :
    ((∃ e ∈ b.responses, e.requesterHashId = reqA.userHash) ↔
      ∃ e ∈ a.responses, e.responderHashId = reqB.userHash ∧ e.accepted = true) ∧
    ((b.responses.filter fun e ↦ e.requesterHashId = reqA.userHash).map FriendResponse.signed).Perm
      ((a.responses.filter fun e ↦ e.responderHashId = reqB.userHash && e.accepted).map
        FriendResponse.signed) ∧
    (∀ e ∈ b.responses, e.requesterHashId = reqA.userHash →
      c.world.db.requestBundle reqA.userHash reqB.userHash = some e.preKeyBundle) ∧
    ∀ e ∈ a.responses, e.responderHashId = reqB.userHash → e.accepted = true →
      ∃ x ∈ c.world.db.friendResponses, x.responderHashId = reqB.userHash ∧
        x.requesterHashId = reqA.userHash ∧ x.accepted = true ∧
        x.preKeyBundle = some e.preKeyBundle ∧ x.dto = e := by
  have hc : Reachable codec verifyDetached c := ⟨clock, instant, ms, h⟩
  have hk := hc.keyed
  have hg := hc.friendGraph
  have ha := hA.responsesTo
  have hb := hB.acceptancesBy
  have hsame : reqA.since = reqB.since := by
    rw [FetchFriendsRequest.since, hsince]
    rfl
  rw [hsame] at ha
  -- the entries about these two users, on both sides
  have ha' := ha.filter fun e ↦ e.responderHashId = reqB.userHash && e.accepted
  have hb' := hb.filter fun e ↦ e.requesterHashId = reqA.userHash
  rw [responsesTo_filter] at ha'
  rw [acceptancesBy_filter hk hg] at hb'
  refine ⟨?_, ?_, fun e he hr ↦ ?_, fun e he hu hacc ↦ ?_⟩
  · have hlen : (b.responses.filter fun e ↦ e.requesterHashId = reqA.userHash).length =
        (a.responses.filter fun e ↦ e.responderHashId = reqB.userHash && e.accepted).length := by
      rw [hb'.length_eq, ha'.length_eq, List.length_map, List.length_map]
    rw [← List.countP_eq_length_filter, ← List.countP_eq_length_filter] at hlen
    have hpos := congrArg (0 < ·) hlen
    simpa only [List.countP_pos_iff, Bool.and_eq_true, decide_eq_true_eq, eq_iff_iff] using hpos
  · refine (hb'.map _).trans (.trans ?_ (ha'.map _).symm)
    rw [List.map_map, List.map_map]
    rfl
  · obtain ⟨x, hx, rfl⟩ := List.mem_map.mp (hb'.mem_iff.mp (List.mem_filter.mpr ⟨he, by simpa⟩))
    simp only [Db.acceptances, List.mem_filter, Bool.and_eq_true, decide_eq_true_eq] at hx
    obtain ⟨hx, ⟨⟨hr, hu⟩, -⟩, -⟩ := hx
    obtain ⟨y, -, -, hbundle⟩ := join_eq hk hg hx
    rw [hr, hu] at hbundle
    simp only [Db.acceptance, hr, hu, hbundle, Option.getD_some]
  · obtain ⟨x, hx, rfl⟩ := List.mem_map.mp
      (ha'.mem_iff.mp (List.mem_filter.mpr ⟨he, by simpa using ⟨hu, hacc⟩⟩))
    simp only [Db.acceptances, List.mem_filter, Bool.and_eq_true, decide_eq_true_eq] at hx
    obtain ⟨hx, ⟨⟨hr, hu⟩, hacc⟩, -⟩ := hx
    obtain ⟨bundle, hbundle, -⟩ := hg.complete x hx hacc
    refine ⟨x, hx, hu, hr, hacc, ?_, rfl⟩
    simp only [FriendResponseModel.dto, hbundle, Option.getD_some]

namespace Sample

/-- User `i` asks for the responses to its requests, or for its acceptances. -/
def listing (i : UInt8) : FetchFriendsRequest := ⟨word i, 0, signature, 3⟩

def listingSigned : List (Bytes × Bytes) :=
  (key 1, (listing 1).signedData) :: (key 2, (listing 2).signedData) :: friendSigned

/-- User 1 asks for the friendship of user 2, who accepts. -/
def acceptRun : Moves :=
  registers 0 1 ++ registers 1 2 ++
  .spawn (.request (.contact ⟨word 1, word 2, [3], signature, [], 1⟩)) :: steps 2 6 ++
  .spawn (.request (.respondFriendRequest acceptance)) :: steps 3 6

/-- What user 1 is told of the acceptance, and what user 2 is told. -/
def toldRequester : FriendResponse := ⟨word 2, word 1, true, [4], signature, 0⟩

def toldResponder : FriendResponse := ⟨word 2, word 1, true, [3], signature, 0⟩

end Sample

open Sample in
/-- User 2 has accepted the request of user 1: each is told, with the bundle of the other. -/
theorem friendships_agree_acceptRun : ∃ c c₁ c₂ : State, final listingSigned acceptRun = some c ∧
    Answers Sample.codec (Sample.verify listingSigned) c (.fetchFriendResponses (listing 1))
      ⟨true, .fetchFriendResponses ⟨[toldRequester], 0⟩, ""⟩ c₁ ∧
    Answers Sample.codec (Sample.verify listingSigned) c (.fetchMyAccepted (listing 2))
      ⟨true, .fetchFriendResponses ⟨[toldResponder], 0⟩, ""⟩ c₂ ∧
    c.world.db.requestBundle (word 1) (word 2) = some [3] := by
  have hpool : ((final listingSigned acceptRun).map fun c ↦ c.pool.length) = some 4 := by
    decide +kernel
  obtain ⟨c, hc, -⟩ := Option.map_eq_some_iff.mp hpool
  obtain ⟨c₁, hA⟩ := answers_of_final (.fetchFriendResponses (listing 1))
    ⟨true, .fetchFriendResponses ⟨[toldRequester], 0⟩, ""⟩ 4 hc hpool (by decide +kernel)
  obtain ⟨c₂, hB⟩ := answers_of_final (.fetchMyAccepted (listing 2))
    ⟨true, .fetchFriendResponses ⟨[toldResponder], 0⟩, ""⟩ 4 hc hpool (by decide +kernel)
  obtain ⟨-, -, hbundle, -⟩ := friendships_agree hc hA hB rfl
  exact ⟨c, c₁, c₂, hc, hA, hB, hbundle toldResponder List.mem_cons_self rfl⟩

end ZenthDht
