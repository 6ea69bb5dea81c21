import ZenthDht.Model.Server

/-!
# Friends: CONTACT, RESPOND_FRIEND_REQUEST and the three fetches

`contact.rs`, `respond_friend_request.rs`, `fetch_friend_requests.rs`,
`fetch_friend_response.rs` and `fetch_my_accepted.rs`.
-/

namespace ZenthDht

open Conc

/-- The columns that are `NULL` for an empty field. -/
def nonEmpty (b : Bytes) : Option Bytes := if b = [] then none else some b

/-- What CONTACT and RESPOND_FRIEND_REQUEST return: the success flag and the error message. -/
abbrev FriendReply : Type := Bool × String

/-! ## CONTACT -/

/-- The bytes signed: `target || pre_key_bundle || timestamp`. -/
def FriendRequest.messageToVerify (req : FriendRequest) : Bytes :=
  req.targetHashId ++ req.preKeyBundle ++ le64 req.timestamp

def FriendRequest.newRequest (req : FriendRequest) : NewFriendRequest where
  requesterHashId := req.requesterHashId
  targetHashId := req.targetHashId
  preKeyBundle := req.preKeyBundle
  dilithiumSignature := req.dilithiumSignature
  encryptedMessage := nonEmpty req.encryptedMessage
  timestamp := req.timestamp.toInt64

def notifyFriendRequest (req : FriendRequest) : Handler Unit := do
  let _ ← Program.call (Op.sendToUser req.targetHashId ⟨req.timestamp, .friendRequestReceived
    ⟨req.requesterHashId, req.preKeyBundle, req.encryptedMessage, req.timestamp⟩⟩)
  pure ()

/-- The upsert of CONTACT: an error of the count is treated as no request. -/
def storeFriendRequest (req : FriendRequest) : Handler FriendReply := do
  let existing ← sql (.countFriendRequests req.requesterHashId req.targetHashId)
  if 0 < existing.toOption.getD 0 then
    match ← sql (.updateFriendRequest req.requesterHashId req.targetHashId req.preKeyBundle
        req.dilithiumSignature (nonEmpty req.encryptedMessage) req.timestamp.toInt64) with
    | .ok _ => pure (true, "")
    | .error _ => pure (false, "Failed to update friend request")
  else
    match ← sql (.insertFriendRequest req.newRequest) with
    | .ok _ =>
      notifyFriendRequest req
      pure (true, "")
    | .error e => pure (false, s!"Failed to store friend request: {e.toString}")

def contact (req : FriendRequest) : Handler FriendReply :=
  if req.requesterHashId = [] then pure (false, "Requester hash ID is required") else
  if req.targetHashId = [] then pure (false, "Target hash ID is required") else
  if req.requesterHashId.length ≠ 32 then
    pure (false,
      s!"Invalid requester hash ID length: expected 32, got {req.requesterHashId.length}") else
  if req.targetHashId.length ≠ 32 then
    pure (false, s!"Invalid target hash ID length: expected 32, got {req.targetHashId.length}") else
  if req.requesterHashId = req.targetHashId then
    pure (false, "Cannot send friend request to yourself") else
  if req.dilithiumSignature = [] then pure (false, "Dilithium signature is required") else
  if req.preKeyBundle = [] then pure (false, "Pre-key bundle is required") else do
  match ← sql (.selectUser req.requesterHashId) with
  | .error .notFound => pure (false, "Requester user not found")
  | .error _ => pure (false, "Database error")
  | .ok requester =>
  match ← sql (.selectUser req.targetHashId) with
  | .error .notFound => pure (false, "Target user not found")
  | .error _ => pure (false, "Database error")
  | .ok _ =>
  if !(← verify requester.identityKeyDilithium req.messageToVerify req.dilithiumSignature) then
    pure (false, "Invalid signature")
  else storeFriendRequest req

/-! ## RESPOND_FRIEND_REQUEST -/

/-- The constant tag `b"FRIENDSHIP:"` of an acceptance. -/
def friendshipTag : Bytes := [70, 82, 73, 69, 78, 68, 83, 72, 73, 80, 58]

/-- The bytes an acceptance signs: `"FRIENDSHIP:" || responder || requester`. -/
def acceptMessage (responder requester : Bytes) : Bytes := friendshipTag ++ responder ++ requester

/-- The bytes a rejection signs: `requester || 0 || timestamp`. -/
def rejectMessage (requester : Bytes) (timestamp : UInt64) : Bytes :=
  requester ++ [0] ++ le64 timestamp

def FriendResponse.messageToVerify (req : FriendResponse) : Bytes :=
  if req.accepted then acceptMessage req.responderHashId req.requesterHashId
  else rejectMessage req.requesterHashId req.timestamp

def FriendResponse.newResponse (req : FriendResponse) (requestId : Nat) : NewFriendResponse where
  requestId := requestId
  responderHashId := req.responderHashId
  requesterHashId := req.requesterHashId
  accepted := req.accepted
  preKeyBundle := nonEmpty req.preKeyBundle
  dilithiumSignature := req.dilithiumSignature

def notifyFriendResponse (req : FriendResponse) : Handler Unit := do
  let _ ← Program.call (Op.sendToUser req.requesterHashId ⟨req.timestamp,
    if req.accepted then .friendRequestAccepted req else .friendRequestRejected req⟩)
  pure ()

/-- The upsert of RESPOND_FRIEND_REQUEST: an error of the count is treated as no response. -/
def storeFriendResponse (req : FriendResponse) (requestId : Nat) : Handler FriendReply := do
  let existing ← sql (.countFriendResponses requestId)
  if 0 < existing.toOption.getD 0 then
    match ← sql (.updateFriendResponses requestId req.accepted (nonEmpty req.preKeyBundle)
        req.dilithiumSignature) with
    | .ok _ => pure (true, "")
    | .error _ => pure (false, "Failed to update response")
  else
    match ← sql (.insertFriendResponse (req.newResponse requestId)) with
    | .ok _ =>
      notifyFriendResponse req
      pure (true, "")
    | .error e => pure (false, s!"Failed to store response: {e.toString}")

def respondFriendRequest (req : FriendResponse) : Handler FriendReply :=
  if req.responderHashId = [] then pure (false, "Responder hash ID is required") else
  if req.requesterHashId = [] then pure (false, "Requester hash ID is required") else
  if req.responderHashId.length ≠ 32 then
    pure (false,
      s!"Invalid responder hash ID length: expected 32, got {req.responderHashId.length}") else
  if req.requesterHashId.length ≠ 32 then
    pure (false,
      s!"Invalid requester hash ID length: expected 32, got {req.requesterHashId.length}") else
  if req.dilithiumSignature = [] then pure (false, "Dilithium signature is required") else
  if req.accepted && req.preKeyBundle = [] then
    pure (false, "Pre-key bundle is required when accepting") else do
  match ← sql (.selectUser req.responderHashId) with
  | .error .notFound => pure (false, "Responder user not found")
  | .error _ => pure (false, "Database error")
  | .ok responder =>
  if !(← verify responder.identityKeyDilithium req.messageToVerify req.dilithiumSignature) then
    pure (false, "Invalid signature")
  else
  match ← sql (.selectFriendRequest req.requesterHashId req.responderHashId) with
  | .error .notFound => pure (false, "Friend request not found")
  | .error _ => pure (false, "Database error")
  | .ok originalRequest => storeFriendResponse req originalRequest.id

/-! ## The fetches -/

/-- The bytes all three fetches sign: `user_hash || since_timestamp || timestamp`. -/
def FetchFriendsRequest.signedData (req : FetchFriendsRequest) : Bytes :=
  req.userHash ++ le64 req.sinceTimestamp ++ le64 req.timestamp

/-- `DateTime::from_timestamp(since as i64, 0)`, the epoch where `chrono` refuses it. -/
def fromTimestamp (since : UInt64) : NaiveDateTime :=
  let t := seconds since.toInt64.toInt
  if naiveDateTimeMin ≤ t ∧ t ≤ naiveDateTimeMax then t else 0

/-- `created_at.and_utc().timestamp() as u64`. -/
def createdAtSecs (t : NaiveDateTime) : UInt64 := (Int64.ofInt (t / 1000000)).toUInt64

def FriendRequestModel.dto (fr : FriendRequestModel) : FriendRequest where
  requesterHashId := fr.requesterHashId
  targetHashId := fr.targetHashId
  preKeyBundle := fr.preKeyBundle
  dilithiumSignature := fr.dilithiumSignature
  encryptedMessage := fr.encryptedMessage.getD []
  timestamp := fr.timestamp.toUInt64

def fetchFriendRequests (req : FetchFriendsRequest) :
    Handler (Except String FetchFriendRequestsResponse) :=
  if req.userHash = [] then pure (.error "User hash is required") else
  if req.userHash.length ≠ 32 then
    pure (.error s!"Invalid user hash length: expected 32, got {req.userHash.length}") else
  if req.dilithiumSignature = [] then pure (.error "Dilithium signature is required") else do
  match ← sql (.selectUser req.userHash) with
  | .error .notFound => pure (.error "User not found")
  | .error _ => pure (.error "Database error")
  | .ok user =>
  if !(← verify user.identityKeyDilithium req.signedData req.dilithiumSignature) then
    pure (.error "Invalid signature")
  else
  let since := if 0 < req.sinceTimestamp then some req.sinceTimestamp.toInt64 else none
  match ← sql (.loadFriendRequests req.userHash since) with
  | .error e => pure (.error s!"Failed to fetch friend requests: {e.toString}")
  | .ok models =>
    let timestamp ← currentTimestamp
    pure (.ok ⟨models.map FriendRequestModel.dto, timestamp⟩)

def FriendResponseModel.dto (r : FriendResponseModel) : FriendResponse where
  responderHashId := r.responderHashId
  requesterHashId := r.requesterHashId
  accepted := r.accepted
  preKeyBundle := r.preKeyBundle.getD []
  dilithiumSignature := r.dilithiumSignature
  timestamp := createdAtSecs r.createdAt

def fetchFriendResponses (req : FetchFriendsRequest) :
    Handler (Except String FetchFriendResponsesResponse) :=
  if req.userHash = [] || req.userHash.length ≠ 32 then pure (.error "Invalid user hash") else
  if req.dilithiumSignature = [] then pure (.error "Dilithium signature is required") else do
  match ← sql (.selectUser req.userHash) with
  | .error .notFound => pure (.error "User not found")
  | .error e => pure (.error s!"Database error: {e.toString}")
  | .ok user =>
  if !(← verify user.identityKeyDilithium req.signedData req.dilithiumSignature) then
    pure (.error "Invalid signature")
  else
  let since := if 0 < req.sinceTimestamp then some (fromTimestamp req.sinceTimestamp) else none
  match ← sql (.loadFriendResponses req.userHash since) with
  | .error e => pure (.error s!"Failed to fetch responses: {e.toString}")
  | .ok responses =>
    let timestamp ← currentTimestamp
    pure (.ok ⟨responses.map FriendResponseModel.dto, timestamp⟩)

/-- The entry of FETCH_MY_ACCEPTED for a row of its join. -/
def acceptedDto (responder : Bytes) (row : Bytes × Bytes × Bytes × NaiveDateTime) :
    FriendResponse where
  responderHashId := responder
  requesterHashId := row.1
  accepted := true
  preKeyBundle := row.2.1
  dilithiumSignature := row.2.2.1
  timestamp := createdAtSecs row.2.2.2

def fetchMyAccepted (req : FetchFriendsRequest) :
    Handler (Except String FetchFriendResponsesResponse) :=
  if req.userHash = [] || req.userHash.length ≠ 32 then pure (.error "Invalid user hash") else
  if req.dilithiumSignature = [] then pure (.error "Dilithium signature required") else do
  match ← sql (.selectUser req.userHash) with
  | .error .notFound => pure (.error "User not found")
  | .error e => pure (.error s!"Database error: {e.toString}")
  | .ok user =>
  if !(← verify user.identityKeyDilithium req.signedData req.dilithiumSignature) then
    pure (.error "Invalid signature")
  else
  let since := if 0 < req.sinceTimestamp then some (fromTimestamp req.sinceTimestamp) else none
  match ← sql (.loadAccepted req.userHash since) with
  | .error e => pure (.error s!"DB error: {e.toString}")
  | .ok rows =>
    let timestamp ← currentTimestamp
    pure (.ok ⟨rows.map (acceptedDto req.userHash), timestamp⟩)

end ZenthDht
