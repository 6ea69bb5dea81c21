import ZenthDht.Model.Server

/-!
# Accounts: REGISTER, LOGIN, DELETE and key recovery

`register.rs`, `login.rs`, `delete.rs` and `recovery.rs`.
-/

namespace ZenthDht

open Conc

/-! ## REGISTER -/

def RegistrationRequest.newUser (req : RegistrationRequest) : NewUser where
  userHashId := req.usernameHash
  passwordCommitment := req.passwordCommitment
  identityKeyDilithium := req.identityKeyDilithium
  identitySignature := req.identitySignature
  preKeyBundle := req.preKeyBundle
  proofType := req.proofType
  recoveryDilithiumPubkey := none

def register (req : RegistrationRequest) : Handler (Except String RegistrationResponse) :=
  if req.usernameHash = [] then pure (.error "Username hash vide") else
  if req.usernameHash.length ≠ 32 then
    pure (.error s!"Username hash invalide: attendu 32 bytes, reçu {req.usernameHash.length}") else
  if req.preKeyBundle = [] then pure (.error "Pre-key bundle vide") else
  if req.passwordCommitment = [] then pure (.error "Password commitment vide") else
  if req.identityKeyDilithium = [] then pure (.error "Identity key vide") else
  if req.identitySignature = [] then pure (.error "Identity signature vide") else do
  match ← sql (.insertUser req.newUser) with
  | .ok _ => pure (.ok ⟨true, req.usernameHash, [], ""⟩)
  | .error e =>
    if e.toString.contains "duplicate key" || e.toString.contains "unique constraint" then
      pure (.ok ⟨false, [], [], "User already exists"⟩)
    else
      pure (.ok ⟨false, [], [], s!"Database error: {e.toString}"⟩)

/-! ## LOGIN -/

/-- `CHALLENGE_EXPIRY_SECONDS`. -/
def challengeExpirySeconds : Int := 300

/-- `SESSION_EXPIRY_HOURS`. -/
def sessionExpiryHours : Int := 24

def getRequiredVersion : Handler (Option String) := do
  pure (← sql (.selectConfig "required_version")).toOption

/-- A failed login with its message. -/
def loginError (message : String) : Except String LoginResponse :=
  .ok { success := false, errorMessage := message }

/-- Generate and store an authentication challenge. -/
def handleChallengeRequest (userHashId : Bytes) (proofType : Int32) :
    Handler (Except String LoginResponse) := do
  let challengeId ← randomBytes
  let nonce ← randomBytes
  let now ← utcNow
  -- the result of the delete is dropped, errors included
  let _ ← sql (.deleteChallengesOf userHashId)
  match ← sql (.insertChallenge {
      challengeId := challengeId.1, userHashId, nonce := nonce.1, requiredProofType := proofType,
      publicParameters := [], difficulty := 0,
      expiresAt := now + seconds challengeExpirySeconds }) with
  | .ok _ =>
    let timestamp ← currentTimestamp
    pure (.ok {
      success := true
      challenge := some ⟨challengeId.1, nonce.1, proofType, [], timestamp, 0⟩ })
  | .error _ => pure (loginError "Failed to create challenge")

/-- The bytes a LOGIN proof signs: `nonce || user_hash_id || timestamp`. -/
def AuthProof.messageToVerify (proof : AuthProof) (nonce userHashId : Bytes) : Bytes :=
  nonce ++ userHashId ++ le64 proof.timestamp

/-- Verify the proof and create a session. -/
def handleProofVerification (user : User) (proof : AuthProof) :
    Handler (Except String LoginResponse) := do
  match ← sql (.selectChallenge proof.challengeId user.userHashId) with
  | .error .notFound => pure (loginError "Invalid or expired challenge")
  | .error _ => pure (loginError "Database error")
  | .ok challenge =>
  let now ← utcNow
  if challenge.expiresAt < now then
    let _ ← sql (.deleteChallenge proof.challengeId)
    pure (loginError "Challenge expired")
  else
  let verificationResult ← verify user.identityKeyDilithium
    (proof.messageToVerify challenge.nonce user.userHashId) proof.proof
  if !verificationResult then pure (loginError "Invalid proof signature") else
  -- neither the row count nor an error of the delete is looked at
  let _ ← sql (.deleteChallenge proof.challengeId)
  let sessionToken ← randomBytes
  let expiryNow ← utcNow
  match ← sql (.insertSession {
      sessionToken := sessionToken.1, userHashId := user.userHashId,
      sessionExpiry := now + hours sessionExpiryHours }) with
  | .ok _ => pure (.ok {
      success := true
      sessionToken := sessionToken.1
      sessionExpiry := toSecs (expiryNow + hours sessionExpiryHours).toNat })
  | .error _ => pure (loginError "Failed to create session")

def login (req : LoginRequest) : Handler (Except String LoginResponse) := do
  match (← getRequiredVersion).filter fun required ↦ req.appVersion ≠ required with
  | some required => pure (.ok {
      success := false
      versionOutdated := some ⟨required, required⟩ })
  | none =>
  if req.userHashId = [] then pure (loginError "User hash ID is required") else
  if req.userHashId.length ≠ 32 then
    pure (loginError s!"Invalid user hash ID length: expected 32, got {req.userHashId.length}") else
  match ← sql (.selectUser req.userHashId) with
  | .error .notFound => pure (loginError "User not found")
  | .error _ => pure (loginError "Database error")
  | .ok user =>
  if req.requestChallenge then handleChallengeRequest req.userHashId user.proofType else
  match req.proof with
  | some proof => handleProofVerification user proof
  | none => pure (loginError "Either request_challenge or proof must be provided")

/-! ## DELETE -/

/-- The bytes a DELETE signs: `user_hash_id || timestamp`. -/
def DeleteRequest.signedData (req : DeleteRequest) : Bytes := req.userHashId ++ le64 req.timestamp

/-- The deletes of `delete_user_data` that follow the friend responses. -/
def deleteUserRows (u : Bytes) : Handler (Except String Unit) := do
  match ← sql (.deleteFriendRequestsOf u) with
  | .error e => pure (.error s!"Failed to delete friend requests: {e.toString}")
  | .ok _ =>
  match ← sql (.deleteMessagesOf u) with
  | .error e => pure (.error s!"Failed to delete messages: {e.toString}")
  | .ok _ =>
  match ← sql (.deleteSessionsOf u) with
  | .error e => pure (.error s!"Failed to delete sessions: {e.toString}")
  | .ok _ =>
  match ← sql (.deleteChallengesOf u) with
  | .error e => pure (.error s!"Failed to delete auth challenges: {e.toString}")
  | .ok _ =>
  match ← sql (.deleteUser u) with
  | .error e => pure (.error s!"Failed to delete user: {e.toString}")
  | .ok _ => pure (.ok ())

def deleteUserData (u : Bytes) : Handler (Except String Unit) := do
  match ← sql (.selectFriendRequestIds u) with
  | .error e => pure (.error s!"Failed to load friend request ids: {e.toString}")
  | .ok requestIds =>
  if requestIds = [] then deleteUserRows u else
  match ← sql (.deleteFriendResponses requestIds) with
  | .error e => pure (.error s!"Failed to delete friend responses: {e.toString}")
  | .ok _ => deleteUserRows u

def deleteAccount (req : DeleteRequest) : Handler (Except String DeleteResponse) :=
  if req.userHashId = [] || req.userHashId.length ≠ 32 then
    pure (.ok { success := false, errorMessage := "Invalid user hash" }) else
  if req.dilithiumSignature = [] then
    pure (.ok { success := false, errorMessage := "Signature required" }) else do
  if !(← isTimestampFresh req.timestamp) then
    pure (.ok { success := false, errorMessage := "Request timestamp expired" })
  else
  match ← sql (.selectUser req.userHashId) with
  | .error .notFound => pure (.ok { success := false, errorMessage := "User not found" })
  | .error _ => pure (.ok { success := false, errorMessage := "Database error" })
  | .ok user =>
  if !(← verify user.identityKeyDilithium req.signedData req.dilithiumSignature) then
    pure (.ok { success := false, errorMessage := "Invalid signature" })
  else
  match ← deleteUserData req.userHashId with
  | .error e => pure (.ok { success := false, errorMessage := e })
  | .ok _ =>
    Program.call (Op.unregister req.userHashId)
    pure (.ok { success := true })

/-! ## Recovery -/

/-- The bytes signed: `username_hash || recovery_pubkey || timestamp`. -/
def PublishRecoveryKeyRequest.signedData (req : PublishRecoveryKeyRequest) : Bytes :=
  req.usernameHash ++ req.recoveryDilithiumPubkey ++ le64 req.timestamp

def publishRecoveryKey (req : PublishRecoveryKeyRequest) :
    Handler (Except String PublishRecoveryKeyResponse) :=
  if req.usernameHash.length ≠ 32 then pure (.error "username_hash invalide") else
  if req.recoveryDilithiumPubkey = [] then pure (.error "recovery_dilithium_pubkey vide") else
  if req.authSignature = [] then pure (.error "auth_signature vide") else do
  if !(← isTimestampFresh req.timestamp) then pure (.error "Request timestamp expired") else
  match ← sql (.selectUser req.usernameHash) with
  | .error _ => pure (.error "Utilisateur introuvable")
  | .ok user =>
  if !(← verify user.identityKeyDilithium req.signedData req.authSignature) then
    pure (.ok { success := false, errorMessage := "Signature invalide" })
  else
  match ← sql (.updateRecoveryKey req.usernameHash req.recoveryDilithiumPubkey) with
  | .error e => pure (.error s!"DB update: {e.toString}")
  | .ok _ => pure (.ok { success := true })

/-- The bytes signed: `username_hash || new_identity_pubkey || timestamp`. -/
def RecoveryClaimRequest.signedData (req : RecoveryClaimRequest) : Bytes :=
  req.usernameHash ++ req.newIdentityDilithiumPubkey ++ le64 req.timestamp

def recoveryClaim (req : RecoveryClaimRequest) : Handler (Except String RecoveryClaimResponse) :=
  if req.usernameHash.length ≠ 32 then pure (.error "username_hash invalide") else
  if req.newIdentityDilithiumPubkey = [] then
    pure (.error "new_identity_dilithium_pubkey vide") else
  if req.recoverySignature = [] then pure (.error "recovery_signature vide") else do
  if !(← isTimestampFresh req.timestamp) then pure (.error "Request timestamp expired") else
  match ← sql (.selectUser req.usernameHash) with
  | .error _ => pure (.error "Utilisateur introuvable")
  | .ok user =>
  match user.recoveryDilithiumPubkey.filter fun k ↦ k ≠ [] with
  | none => pure (.error "Aucune clé de récupération enregistrée pour ce compte")
  | some recoveryPubkey =>
  if !(← verify recoveryPubkey req.signedData req.recoverySignature) then
    pure (.ok { success := false, errorMessage := "Signature de récupération invalide" })
  else
  match ← sql (.updateIdentity req.usernameHash req.newIdentityDilithiumPubkey
      req.newIdentitySignature req.newPreKeyBundle) with
  | .error e => pure (.error s!"DB update identity: {e.toString}")
  | .ok _ =>
  let sessionToken ← randomBytes
  let now ← utcNow
  match ← sql (.insertSession {
      sessionToken := sessionToken.1, userHashId := req.usernameHash,
      sessionExpiry := now + days 30 }) with
  | .error e => pure (.error s!"DB insert session: {e.toString}")
  | .ok _ => pure (.ok { success := true, sessionToken := sessionToken.1 })

end ZenthDht
