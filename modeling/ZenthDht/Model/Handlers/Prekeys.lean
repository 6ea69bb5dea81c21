import ZenthDht.Model.Server

/-!
# Pre-keys: UPLOAD, REPLENISH, CHECK_PREKEY_COUNT, FETCH_PREKEY_BUNDLE and LOOKUP_USER

`upload_prekeys.rs`, `replenish_prekeys.rs`, `check_prekey_count.rs`,
`fetch_prekey_bundle.rs` and `lookup_user.rs`.
-/

namespace ZenthDht

open Conc

/-- The bytes UPLOAD, REPLENISH and CHECK_PREKEY_COUNT sign: `username_hash || timestamp`. -/
def prekeyMessage (usernameHash : Bytes) (timestamp : UInt64) : Bytes :=
  usernameHash ++ le64 timestamp

/-- The rows inserted for a list of one-time pre-keys. -/
def newPrekeys (usernameHash : Bytes) (pks : List OneTimePreKey) : List NewOneTimePrekey :=
  pks.map fun pk ↦ ⟨usernameHash, pk.preKeyId.toInt32, pk.publicKey⟩

/-! ## UPLOAD_PREKEYS -/

def uploadError (message : String) : Except String UploadPreKeysResponse :=
  .ok { success := false, errorMessage := message }

def uploadPrekeys (req : UploadPreKeysRequest) : Handler (Except String UploadPreKeysResponse) :=
  if req.usernameHash = [] || req.usernameHash.length ≠ 32 then
    pure (uploadError "Invalid username hash") else
  if req.authSignature = [] then pure (uploadError "Auth signature required") else do
  if !(← isTimestampFresh req.timestamp) then pure (uploadError "Request timestamp expired") else
  if req.oneTimePrekeys = [] then pure (uploadError "No prekeys provided") else
  match ← sql (.selectUser req.usernameHash) with
  | .error .notFound => pure (uploadError "User not found")
  | .error e => pure (.error s!"Database error: {e.toString}")
  | .ok user =>
  if !(← verify user.identityKeyDilithium (prekeyMessage req.usernameHash req.timestamp)
      req.authSignature) then
    pure (uploadError "Invalid signature")
  else
  match ← sql (.insertPrekeys (newPrekeys req.usernameHash req.oneTimePrekeys)) with
  | .error e => pure (.error s!"Database error: {e.toString}")
  | .ok inserted => pure (.ok { success := true, prekeysStored := UInt32.ofNat inserted })

/-! ## REPLENISH_PREKEYS -/

def replenishError (message : String) : Except String ReplenishPreKeysResponse :=
  .ok { success := false, errorMessage := message }

/-- Unlike UPLOAD_PREKEYS, the timestamp is signed but not compared with the clock. -/
def replenishPrekeys (req : ReplenishPreKeysRequest) :
    Handler (Except String ReplenishPreKeysResponse) :=
  if req.usernameHash = [] || req.usernameHash.length ≠ 32 then
    pure (replenishError "Invalid username hash") else
  if req.authSignature = [] then pure (replenishError "Auth signature required") else
  if req.newPrekeys = [] then pure (replenishError "No prekeys provided") else do
  match ← sql (.selectUser req.usernameHash) with
  | .error .notFound => pure (replenishError "User not found")
  | .error e => pure (.error s!"Database error: {e.toString}")
  | .ok user =>
  if !(← verify user.identityKeyDilithium (prekeyMessage req.usernameHash req.timestamp)
      req.authSignature) then
    pure (replenishError "Invalid signature")
  else
  match ← sql (.insertPrekeys (newPrekeys req.usernameHash req.newPrekeys)) with
  | .error e => pure (.error s!"Database error: {e.toString}")
  | .ok _ =>
  match ← sql (.countUnusedPrekeys req.usernameHash) with
  | .error e => pure (.error s!"Database error: {e.toString}")
  | .ok total => pure (.ok { success := true, totalPrekeys := UInt32.ofNat total })

/-! ## CHECK_PREKEY_COUNT -/

def checkError (message : String) : Except String CheckPreKeyCountResponse :=
  .ok { success := false, errorMessage := message }

def checkPrekeyCount (codec : Codec) (req : CheckPreKeyCountRequest) :
    Handler (Except String CheckPreKeyCountResponse) :=
  if req.usernameHash = [] || req.usernameHash.length ≠ 32 then
    pure (checkError "Invalid username hash") else
  if req.authSignature = [] then pure (checkError "Auth signature required") else do
  match ← sql (.selectUser req.usernameHash) with
  | .error .notFound => pure (checkError "User not found")
  | .error e => pure (.error s!"Database error: {e.toString}")
  | .ok user =>
  if !(← verify user.identityKeyDilithium (prekeyMessage req.usernameHash req.timestamp)
      req.authSignature) then
    pure (checkError "Invalid signature")
  else
  match ← sql (.countUnusedPrekeys req.usernameHash) with
  | .error e => pure (.error s!"Database error: {e.toString}")
  | .ok count =>
    let bundle := codec.decodePreKeyBundle user.preKeyBundle
    pure (.ok {
      success := true
      oneTimePrekeyCount := UInt32.ofNat count
      hasSignedPrekey := bundle.any fun b ↦ b.signedPreKeyPublic ≠ []
      hasKyberPrekey := bundle.any fun b ↦ b.pqPreKeyPublic.isSome })

/-! ## LOOKUP_USER and FETCH_PREKEY_BUNDLE -/

/-- The bytes both sign: `requester_hash || target_hash || timestamp`. -/
def lookupMessage (requesterHash targetHash : Bytes) (timestamp : UInt64) : Bytes :=
  requesterHash ++ targetHash ++ le64 timestamp

def lookupUser (codec : Codec) (req : LookupUserRequest) :
    Handler (Except String LookupUserResponse) :=
  if req.requesterHash = [] || req.requesterHash.length ≠ 32 then
    pure (.error "Invalid requester hash") else
  if req.targetHash = [] || req.targetHash.length ≠ 32 then
    pure (.error "Invalid target hash") else
  if req.dilithiumSignature = [] then pure (.error "Dilithium signature is required") else do
  match ← sql (.selectUser req.requesterHash) with
  | .error .notFound => pure (.error "Requester not found")
  | .error e => pure (.error s!"Database error: {e.toString}")
  | .ok requester =>
  if !(← verify requester.identityKeyDilithium
      (lookupMessage req.requesterHash req.targetHash req.timestamp) req.dilithiumSignature) then
    pure (.error "Invalid signature")
  else
  match ← sql (.selectUser req.targetHash) with
  | .error .notFound => pure (.ok { found := false })
  | .error e => pure (.error s!"Database error: {e.toString}")
  | .ok target =>
  match codec.decodePreKeyBundle target.preKeyBundle with
  | none => pure (.error "Failed to decode user's PreKeyBundle")
  | some bundle => pure (.ok {
      found := true
      userHash := target.userHashId
      preKeyBundle := some bundle })

def fetchError (message : String) : Except String FetchPreKeyBundleResponse :=
  .ok { success := false, errorMessage := message }

/-- `optional`: a missing row is a value, any other error stays an error. -/
def optional {α : Type} : Except DieselError α → Except DieselError (Option α)
  | .ok a => .ok (some a)
  | .error .notFound => .ok none
  | .error e => .error e

def fetchPrekeyBundle (codec : Codec) (req : FetchPreKeyBundleRequest) :
    Handler (Except String FetchPreKeyBundleResponse) :=
  if req.requesterHash = [] || req.requesterHash.length ≠ 32 then
    pure (fetchError "Invalid requester hash") else
  if req.targetHash = [] || req.targetHash.length ≠ 32 then
    pure (fetchError "Invalid target hash") else
  if req.authSignature = [] then pure (fetchError "Auth signature is required") else do
  match ← sql (.selectUser req.requesterHash) with
  | .error .notFound => pure (fetchError "Requester not found")
  | .error e => pure (.error s!"Database error: {e.toString}")
  | .ok requester =>
  if !(← verify requester.identityKeyDilithium
      (lookupMessage req.requesterHash req.targetHash req.timestamp) req.authSignature) then
    pure (fetchError "Invalid signature")
  else
  match ← sql (.selectUser req.targetHash) with
  | .error .notFound => pure (fetchError "Target user not found")
  | .error e => pure (.error s!"Database error: {e.toString}")
  | .ok target =>
  match codec.decodePreKeyBundle target.preKeyBundle with
  | none => pure (fetchError "Failed to decode user's PreKeyBundle")
  | some bundle =>
  match optional (← sql (.selectUnusedPrekey req.targetHash)) with
  | .error e => pure (.error s!"Database error: {e.toString}")
  -- no one-time pre-key left: the bundle is returned as it is stored
  | .ok none => pure (.ok { success := true, bundle := some bundle })
  | .ok (some (rowId, prekeyId, publicKey)) =>
  match ← sql (.markPrekeyUsed rowId) with
  | .error e => pure (.error s!"Failed to mark OTPK as used: {e.toString}")
  | .ok _ => pure (.ok {
      success := true
      bundle := some { bundle with preKeyId := prekeyId.toUInt32, preKeyPublic := publicKey } })

end ZenthDht
