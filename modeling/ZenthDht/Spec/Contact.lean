import ZenthDht.Spec.Run

/-!
# The steps of the friend requests

What RESPOND_FRIEND_REQUEST has done when it writes, and what the three fetches have done when
they answer.  Each of them is a straight line of steps with early exits, so its past at
a point is one of the lists below.
-/

namespace ZenthDht

open Conc

variable {codec : Codec}

/-! ## RESPOND_FRIEND_REQUEST -/

namespace FriendResponse

variable (req : FriendResponse) (user : User) (fr : FriendRequestModel)
  (r : Except DieselError Nat) (n : Nat)

/-- The signature has been verified and the friend request has been found. -/
def foundPast : Past :=
  [⟨.sql (.selectUser req.responderHashId), .ok user⟩,
   ⟨.verify user.identityKeyDilithium req.messageToVerify req.dilithiumSignature, true⟩,
   ⟨.sql (.selectFriendRequest req.requesterHashId req.responderHashId), .ok fr⟩]

/-- The responses to the request have been counted, with the result `r`. -/
def countedPast : Past :=
  req.foundPast user fr ++ [⟨.sql (.countFriendResponses fr.id), r⟩]

/-- The UPDATE of the responses to the request `i`. -/
def update (i : Nat) : Stmt := .updateFriendResponses i req.accepted (nonEmpty req.preKeyBundle)
  req.dilithiumSignature

/-- What the requester is notified of. -/
def notification : WsNotification :=
  ⟨req.timestamp, if req.accepted then .friendRequestAccepted req else .friendRequestRejected req⟩

/-- The notification. -/
def notify : Op := .sendToUser req.requesterHashId req.notification

/-- The response has been updated. -/
def updatedPast : Past := req.countedPast user fr r ++ [⟨.sql (req.update fr.id), .ok n⟩]

/-- The response has been inserted. -/
def insertedPast : Past := req.countedPast user fr r ++
  [⟨.sql (.insertFriendResponse (req.newResponse fr.id)), .ok n⟩]

/-- What a RESPOND has done when it reports success. -/
def Stored (past : Past) : Prop :=
  ∃ user fr r, (0 < r.toOption.getD 0 ∧ ∃ n : Nat, past = req.updatedPast user fr r n) ∨
    (r.toOption.getD 0 = 0 ∧ ∃ (n : Nat) (sent : Bool),
      past = req.insertedPast user fr r n ++ [⟨req.notify, sent⟩])

end FriendResponse

/-- What a RESPOND has done before it counts, writes and notifies. -/
def FriendResponse.Order (req : FriendResponse) (past : Past) : Op → Prop
  | .sql (.countFriendResponses i) => ∃ user fr, past = req.foundPast user fr ∧ i = fr.id
  | .sql (.insertFriendResponse n) => ∃ user fr r, past = req.countedPast user fr r ∧
      r.toOption.getD 0 = 0 ∧ n = req.newResponse fr.id
  | .sql (.updateFriendResponses i a b g) => ∃ user fr r, past = req.countedPast user fr r ∧
      0 < r.toOption.getD 0 ∧ .updateFriendResponses i a b g = req.update fr.id
  | .sendToUser u note => .sendToUser u note = req.notify ∧
      ∃ user fr r n, past = req.insertedPast user fr r n
  | _ => True

theorem respondFriendRequest_order (req : FriendResponse) :
    (respondFriendRequest req).Obeys req.Order (fun past r ↦ r.1 = true → req.Stored past) [] := by
  unfold respondFriendRequest
  iterate 6
    split
    · exact nofun
  refine obeys_sql trivial (fun e ↦ by cases e <;> exact nofun) fun user ↦ ?_
  refine obeys_call (o := .verify _ _ _) trivial fun valid ↦ ?_
  cases valid with
  | false => exact nofun
  | true =>
  refine obeys_sql trivial (fun e ↦ by cases e <;> exact nofun) fun fr ↦ ?_
  refine obeys_call (o := .sql _) ⟨user, fr, rfl, rfl⟩ fun r ↦ ?_
  change Program.Obeys _ _ (req.countedPast user fr r) _
  split
  next hr =>
    refine obeys_sql ⟨user, fr, r, rfl, hr, rfl⟩ (fun e ↦ nofun) fun n _ ↦ ?_
    exact ⟨user, fr, r, .inl ⟨hr, n, rfl⟩⟩
  next hr =>
    have hr : r.toOption.getD 0 = 0 := Nat.eq_zero_of_not_pos hr
    refine obeys_sql ⟨user, fr, r, rfl, hr, rfl⟩ (fun e ↦ nofun) fun n ↦ ?_
    refine ⟨⟨rfl, user, fr, r, n, rfl⟩, fun sent _ ↦ ?_⟩
    exact ⟨user, fr, r, .inr ⟨hr, n, sent, rfl⟩⟩

/-! ## The fetches -/

namespace FetchFriendsRequest

variable (req : FetchFriendsRequest) (user : User) (ts : Nat)

/-- The filter of FETCH_FRIEND_REQUESTS on the timestamp in a request. -/
def sinceClaimed : Option Int64 :=
  if 0 < req.sinceTimestamp then some req.sinceTimestamp.toInt64 else none

/-- The filter of the other two fetches on the creation of a response. -/
def since : Option NaiveDateTime :=
  if 0 < req.sinceTimestamp then some (fromTimestamp req.sinceTimestamp) else none

/-- The signature has been verified. -/
def signedPast : Past :=
  [⟨.sql (.selectUser req.userHash), .ok user⟩,
   ⟨.verify user.identityKeyDilithium req.signedData req.dilithiumSignature, true⟩]

/-- The rows have been loaded and the clock has been read. -/
def loadedPast (s : Stmt) (rows : s.Out) : Past :=
  req.signedPast user ++ [⟨.sql s, .ok rows⟩, ⟨.clock, ts⟩]

end FetchFriendsRequest

theorem fetchFriendRequests_answer (req : FetchFriendsRequest) :
    (fetchFriendRequests req).Obeys (fun _ _ ↦ True) (fun past r ↦ ∀ resp, r = .ok resp →
      ∃ user ts rows, past = req.loadedPast user ts
          (.loadFriendRequests req.userHash req.sinceClaimed) rows ∧
        resp = ⟨rows.map FriendRequestModel.dto, toSecs ts⟩) [] := by
  unfold fetchFriendRequests
  iterate 3
    split
    · exact nofun
  refine obeys_sql trivial (fun e ↦ by cases e <;> exact nofun) fun user ↦ ?_
  refine obeys_call (o := .verify _ _ _) trivial fun valid ↦ ?_
  cases valid with
  | false => exact nofun
  | true =>
  refine obeys_sql trivial (fun e ↦ nofun) fun rows ↦ ?_
  refine obeys_currentTimestamp trivial fun ts ↦ ?_
  rintro _ ⟨⟩
  exact ⟨user, ts, rows, rfl, rfl⟩

theorem fetchFriendResponses_answer (req : FetchFriendsRequest) :
    (fetchFriendResponses req).Obeys (fun _ _ ↦ True) (fun past r ↦ ∀ resp, r = .ok resp →
      ∃ user ts rows, past = req.loadedPast user ts
          (.loadFriendResponses req.userHash req.since) rows ∧
        resp = ⟨rows.map FriendResponseModel.dto, toSecs ts⟩) [] := by
  unfold fetchFriendResponses
  iterate 2
    split
    · exact nofun
  refine obeys_sql trivial (fun e ↦ by cases e <;> exact nofun) fun user ↦ ?_
  refine obeys_call (o := .verify _ _ _) trivial fun valid ↦ ?_
  cases valid with
  | false => exact nofun
  | true =>
  refine obeys_sql trivial (fun e ↦ nofun) fun rows ↦ ?_
  refine obeys_currentTimestamp trivial fun ts ↦ ?_
  rintro _ ⟨⟩
  exact ⟨user, ts, rows, rfl, rfl⟩

/-! ## Runs -/

section

variable {verifyDetached : Bytes → Bytes → Bytes → Bool} {c : State} {t : Nat} {reply : Reply}

theorem Reachable.respond_stored {req : FriendResponse} (h : Reachable codec verifyDetached c)
    (hans : c.answered t = some (.request (.respondFriendRequest req), reply))
    (hs : reply.success = true) : req.Stored (past t c.trace) := by
  have hcall : (processCall codec (.respondFriendRequest req)).Obeys req.Order
      (fun past r ↦ r.success = true → req.Stored past) [] :=
    (respondFriendRequest_order req).bind fun past r hr ↦ hr
  exact h.request_answer hcall hans hs

theorem Reachable.respond_order {req : FriendResponse} (h : Reachable codec verifyDetached c)
    {o : Op} {k : Res o → Handler (Option Reply)}
    (ht : c.pool[t]? = some ⟨.request (.respondFriendRequest req), .perform o k⟩) :
    req.Order (past t c.trace) o := by
  have hcall : (processCall codec (.respondFriendRequest req)).Obeys req.Order
      (fun _ _ ↦ True) [] := (respondFriendRequest_order req).bind fun _ _ _ ↦ trivial
  exact h.request_guard hcall ht

theorem Reachable.requests_loaded {req : FetchFriendsRequest} {resp : FetchFriendRequestsResponse}
    (h : Reachable codec verifyDetached c)
    (hans : c.answered t = some (.request (.fetchFriendRequests req), reply))
    (hresp : reply.payload = .fetchFriendRequests resp) :
    ∃ user ts rows, past t c.trace = req.loadedPast user ts
        (.loadFriendRequests req.userHash req.sinceClaimed) rows ∧
      resp = ⟨rows.map FriendRequestModel.dto, toSecs ts⟩ := by
  have hcall : (processCall codec (.fetchFriendRequests req)).Obeys (fun _ _ ↦ True)
      (fun past r ↦ ∀ resp, r.payload = .fetchFriendRequests resp →
        ∃ user ts rows, past = req.loadedPast user ts
            (.loadFriendRequests req.userHash req.sinceClaimed) rows ∧
          resp = ⟨rows.map FriendRequestModel.dto, toSecs ts⟩) [] := by
    refine (fetchFriendRequests_answer req).bind fun past r hr ↦ ?_
    cases r with
    | error e => exact nofun
    | ok resp =>
        rintro _ ⟨⟩
        exact hr resp rfl
  exact h.request_answer hcall hans resp hresp

theorem Reachable.responses_loaded {req : FetchFriendsRequest}
    {resp : FetchFriendResponsesResponse} (h : Reachable codec verifyDetached c)
    (hans : c.answered t = some (.request (.fetchFriendResponses req), reply))
    (hresp : reply.payload = .fetchFriendResponses resp) :
    ∃ user ts rows, past t c.trace = req.loadedPast user ts
        (.loadFriendResponses req.userHash req.since) rows ∧
      resp = ⟨rows.map FriendResponseModel.dto, toSecs ts⟩ := by
  have hcall : (processCall codec (.fetchFriendResponses req)).Obeys (fun _ _ ↦ True)
      (fun past r ↦ ∀ resp, r.payload = .fetchFriendResponses resp →
        ∃ user ts rows, past = req.loadedPast user ts
            (.loadFriendResponses req.userHash req.since) rows ∧
          resp = ⟨rows.map FriendResponseModel.dto, toSecs ts⟩) [] := by
    refine (fetchFriendResponses_answer req).bind fun past r hr ↦ ?_
    cases r with
    | error e => exact nofun
    | ok resp =>
        rintro _ ⟨⟩
        exact hr resp rfl
  exact h.request_answer hcall hans resp hresp

end

end ZenthDht
