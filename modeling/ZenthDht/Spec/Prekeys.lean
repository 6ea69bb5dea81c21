import ZenthDht.Spec.Run

/-!
# The steps of the pre-key requests

What the four requests that work on one-time pre-keys have done when they end.  Each of them is a
straight line of steps: either it has inserted and marked nothing and reports no success, and the
database has failed or the request is refused for one of few reasons, or its past is one of the
lists below.
-/

namespace ZenthDht

open Conc

variable {codec : Codec}

/-- The event has inserted or marked one-time pre-keys. -/
def storesPrekeys : Event Res → Bool
  | ⟨.sql (.insertPrekeys _), .ok _⟩ | ⟨.sql (.markPrekeyUsed _), .ok _⟩ => true
  | _ => false

/-- No one-time pre-key has been inserted or marked. -/
def Idle (past : Past) : Prop := ∀ e ∈ past, storesPrekeys e = false

@[simp] theorem idle_nil : Idle [] := fun _ he ↦ nomatch he

@[simp] theorem idle_append {past past' : Past} : Idle (past ++ past') ↔ Idle past ∧ Idle past' :=
  List.forall_mem_append

@[simp] theorem idle_cons {e : Event Res} {past : Past} :
    Idle (e :: past) ↔ storesPrekeys e = false ∧ Idle past := List.forall_mem_cons

/-! ## Pasts -/

section

variable (user : User) (ts n : Nat)

/-- The pre-keys have been inserted. -/
def UploadPreKeysRequest.storedPast (req : UploadPreKeysRequest) : Past :=
  [⟨.clock, ts⟩, ⟨.sql (.selectUser req.usernameHash), .ok user⟩,
   ⟨.verify user.identityKeyDilithium (prekeyMessage req.usernameHash req.timestamp)
     req.authSignature, true⟩,
   ⟨.sql (.insertPrekeys (newPrekeys req.usernameHash req.oneTimePrekeys)), .ok n⟩]

/-- The pre-keys have been inserted. -/
def ReplenishPreKeysRequest.storedPast (req : ReplenishPreKeysRequest) : Past :=
  [⟨.sql (.selectUser req.usernameHash), .ok user⟩,
   ⟨.verify user.identityKeyDilithium (prekeyMessage req.usernameHash req.timestamp)
     req.authSignature, true⟩,
   ⟨.sql (.insertPrekeys (ZenthDht.newPrekeys req.usernameHash req.newPrekeys)), .ok n⟩]

/-- The pre-keys have been counted. -/
def CheckPreKeyCountRequest.countedPast (req : CheckPreKeyCountRequest) : Past :=
  [⟨.sql (.selectUser req.usernameHash), .ok user⟩,
   ⟨.verify user.identityKeyDilithium (prekeyMessage req.usernameHash req.timestamp)
     req.authSignature, true⟩,
   ⟨.sql (.countUnusedPrekeys req.usernameHash), .ok n⟩]

/-- Both accounts have been found. -/
def FetchPreKeyBundleRequest.foundPast (req : FetchPreKeyBundleRequest) (requester target : User) :
    Past :=
  [⟨.sql (.selectUser req.requesterHash), .ok requester⟩,
   ⟨.verify requester.identityKeyDilithium
     (lookupMessage req.requesterHash req.targetHash req.timestamp) req.authSignature, true⟩,
   ⟨.sql (.selectUser req.targetHash), .ok target⟩]

end

/-! ## Refusals -/

/-- A statement has returned an error, and not because it has found no row where it looked for
one. -/
def databaseFails : Event Res → Bool
  | ⟨.sql (.selectUser _), .error .notFound⟩ | ⟨.sql (.selectUnusedPrekey _), .error .notFound⟩ =>
    false
  | ⟨.sql _, .error _⟩ => true
  | _ => false

/-- The database has not failed. -/
def Healthy (past : Past) : Prop := ∀ e ∈ past, databaseFails e = false

@[simp] theorem healthy_nil : Healthy [] := fun _ he ↦ nomatch he

@[simp] theorem healthy_append {past past' : Past} :
    Healthy (past ++ past') ↔ Healthy past ∧ Healthy past' := List.forall_mem_append

@[simp] theorem healthy_cons {e : Event Res} {past : Past} :
    Healthy (e :: past) ↔ databaseFails e = false ∧ Healthy past := List.forall_mem_cons

/-- The account has not been found, or the signature is not valid under its identity key. -/
def Unsigned (past : Past) (u message signature : Bytes) : Prop :=
  Did past (.sql (.selectUser u)) (.error .notFound) ∨
  ∃ user, Did past (.sql (.selectUser u)) (.ok user) ∧
    Did past (.verify user.identityKeyDilithium message signature) false

/-- The fields pass the checks of the handler. -/
def UploadPreKeysRequest.Complete (req : UploadPreKeysRequest) : Prop :=
  req.usernameHash.length = 32 ∧ req.authSignature ≠ [] ∧ req.oneTimePrekeys ≠ []

def ReplenishPreKeysRequest.Complete (req : ReplenishPreKeysRequest) : Prop :=
  req.usernameHash.length = 32 ∧ req.authSignature ≠ [] ∧ req.newPrekeys ≠ []

def CheckPreKeyCountRequest.Complete (req : CheckPreKeyCountRequest) : Prop :=
  req.usernameHash.length = 32 ∧ req.authSignature ≠ []

def FetchPreKeyBundleRequest.Complete (req : FetchPreKeyBundleRequest) : Prop :=
  req.requesterHash.length = 32 ∧ req.targetHash.length = 32 ∧ req.authSignature ≠ []

/-- Why a request is refused: only UPLOAD_PREKEYS looks at the timestamp. -/
def UploadPreKeysRequest.Refused (req : UploadPreKeysRequest) (past : Past) : Prop :=
  ¬ req.Complete ∨ (∃ t : Nat, Did past .clock t ∧ fresh t req.timestamp = false) ∨
  Unsigned past req.usernameHash (prekeyMessage req.usernameHash req.timestamp) req.authSignature

def ReplenishPreKeysRequest.Refused (req : ReplenishPreKeysRequest) (past : Past) : Prop :=
  ¬ req.Complete ∨
  Unsigned past req.usernameHash (prekeyMessage req.usernameHash req.timestamp) req.authSignature

def CheckPreKeyCountRequest.Refused (req : CheckPreKeyCountRequest) (past : Past) : Prop :=
  ¬ req.Complete ∨
  Unsigned past req.usernameHash (prekeyMessage req.usernameHash req.timestamp) req.authSignature

def FetchPreKeyBundleRequest.Refused (codec : Codec) (req : FetchPreKeyBundleRequest)
    (past : Past) : Prop :=
  ¬ req.Complete ∨
  Unsigned past req.requesterHash (lookupMessage req.requesterHash req.targetHash req.timestamp)
    req.authSignature ∨
  Did past (.sql (.selectUser req.targetHash)) (.error .notFound) ∨
  ∃ target, Did past (.sql (.selectUser req.targetHash)) (.ok target) ∧
    codec.decodePreKeyBundle target.preKeyBundle = none

/-- The rest of `length_of_check`. -/
theorem length_ne_of_check {b : Bytes} (h : (decide (b = []) || decide (b.length ≠ 32)) = true) :
    b.length ≠ 32 := by
  simp only [Bool.or_eq_true, decide_eq_true_eq] at h
  rcases h with rfl | h
  · decide
  · exact h

/-! ## Endings -/

/-- What an UPLOAD_PREKEYS has done when it ends, with its response. -/
def UploadPreKeysRequest.Done (req : UploadPreKeysRequest) (past : Past)
    (r : Except String UploadPreKeysResponse) : Prop :=
  (Idle past ∧ (Healthy past → req.Refused past) ∧ ∀ resp, r = .ok resp → resp.success = false) ∨
  ∃ user ts n, req.Complete ∧ fresh ts req.timestamp = true ∧ past = req.storedPast user ts n ∧
    r = .ok { success := true, prekeysStored := UInt32.ofNat n }

theorem uploadPrekeys_done (req : UploadPreKeysRequest) :
    (uploadPrekeys req).Obeys (fun _ o ↦ o ≠ .panic) req.Done [] := by
  have hrefused {past : Past} {e : String} (h : Idle past) (hr : req.Refused past) :
      req.Done past (uploadError e) := .inl ⟨h, fun _ ↦ hr, by rintro _ ⟨⟩; rfl⟩
  have hfailed {past : Past} {e : String} (h : Idle past) (hf : ¬ Healthy past) :
      req.Done past (.error e) := .inl ⟨h, fun hh ↦ absurd hh hf, by rintro _ ⟨⟩⟩
  unfold uploadPrekeys
  split
  next hlen => exact hrefused (by simp) (.inl fun h ↦ length_ne_of_check hlen h.1)
  next hlen =>
  split
  next hsig => exact hrefused (by simp) (.inl fun h ↦ h.2.1 hsig)
  next hsig =>
  refine obeys_fresh (by simp) (fun ts hstale ↦ ?_) fun ts hfresh ↦ ?_
  · exact hrefused (by simp [storesPrekeys]) (.inr (.inl ⟨ts, by simp [Did], hstale⟩))
  split
  next hlist => exact hrefused (by simp [storesPrekeys]) (.inl fun h ↦ h.2.2 hlist)
  next hlist =>
  refine obeys_sql (by simp) (fun e ↦ ?_) fun user ↦ ?_
  · cases e with
    | notFound => exact hrefused (by simp [storesPrekeys]) (.inr (.inr (.inl (by simp [Did]))))
    | _ => exact hfailed (by simp [storesPrekeys]) (by simp [databaseFails])
  refine obeys_call (o := .verify _ _ _) (by simp) fun valid ↦ ?_
  cases valid with
  | false => exact hrefused (by simp [storesPrekeys]) (.inr (.inr (.inr ⟨user, by simp [Did]⟩)))
  | true =>
  refine obeys_sql (by simp) (fun e ↦ ?_) fun n ↦ ?_
  · exact hfailed (by simp [storesPrekeys]) (by simp [databaseFails])
  exact .inr ⟨user, ts, n, ⟨length_of_check hlen, hsig, hlist⟩, hfresh, rfl, rfl⟩

/-- What a REPLENISH_PREKEYS has done when it ends, with its response. -/
def ReplenishPreKeysRequest.Done (req : ReplenishPreKeysRequest) (past : Past)
    (r : Except String ReplenishPreKeysResponse) : Prop :=
  (Idle past ∧ (Healthy past → req.Refused past) ∧ ∀ resp, r = .ok resp → resp.success = false) ∨
  (∃ user n e, past = req.storedPast user n ++
      [⟨.sql (.countUnusedPrekeys req.usernameHash), .error e⟩] ∧
    ∀ resp, r = .ok resp → resp.success = false) ∨
  ∃ user n total, req.Complete ∧ past = req.storedPast user n ++
      [⟨.sql (.countUnusedPrekeys req.usernameHash), .ok total⟩] ∧
    r = .ok { success := true, totalPrekeys := UInt32.ofNat total }

theorem replenishPrekeys_done (req : ReplenishPreKeysRequest) :
    (replenishPrekeys req).Obeys (fun _ o ↦ o ≠ .panic) req.Done [] := by
  have hrefused {past : Past} {e : String} (h : Idle past) (hr : req.Refused past) :
      req.Done past (replenishError e) := .inl ⟨h, fun _ ↦ hr, by rintro _ ⟨⟩; rfl⟩
  have hfailed {past : Past} {e : String} (h : Idle past) (hf : ¬ Healthy past) :
      req.Done past (.error e) := .inl ⟨h, fun hh ↦ absurd hh hf, by rintro _ ⟨⟩⟩
  unfold replenishPrekeys
  split
  next hlen => exact hrefused (by simp) (.inl fun h ↦ length_ne_of_check hlen h.1)
  next hlen =>
  split
  next hsig => exact hrefused (by simp) (.inl fun h ↦ h.2.1 hsig)
  next hsig =>
  split
  next hlist => exact hrefused (by simp) (.inl fun h ↦ h.2.2 hlist)
  next hlist =>
  refine obeys_sql (by simp) (fun e ↦ ?_) fun user ↦ ?_
  · cases e with
    | notFound => exact hrefused (by simp [storesPrekeys]) (.inr (.inl (by simp [Did])))
    | _ => exact hfailed (by simp [storesPrekeys]) (by simp [databaseFails])
  refine obeys_call (o := .verify _ _ _) (by simp) fun valid ↦ ?_
  cases valid with
  | false => exact hrefused (by simp [storesPrekeys]) (.inr (.inr ⟨user, by simp [Did]⟩))
  | true =>
  refine obeys_sql (by simp) (fun e ↦ ?_) fun n ↦ ?_
  · exact hfailed (by simp [storesPrekeys]) (by simp [databaseFails])
  refine obeys_sql (by simp) (fun e ↦ ?_) fun total ↦ ?_
  · exact .inr (.inl ⟨user, n, e, rfl, by rintro _ ⟨⟩⟩)
  · exact .inr (.inr ⟨user, n, total, ⟨length_of_check hlen, hsig, hlist⟩, rfl, rfl⟩)

/-- What a CHECK_PREKEY_COUNT has done when it ends, with its response. -/
def CheckPreKeyCountRequest.Done (req : CheckPreKeyCountRequest) (past : Past)
    (r : Except String CheckPreKeyCountResponse) : Prop :=
  Idle past ∧ (((Healthy past → req.Refused past) ∧ ∀ resp, r = .ok resp → resp.success = false) ∨
  ∃ user n resp, req.Complete ∧ past = req.countedPast user n ∧ r = .ok resp ∧
    resp.success = true ∧ resp.oneTimePrekeyCount = UInt32.ofNat n)

theorem checkPrekeyCount_done (req : CheckPreKeyCountRequest) :
    (checkPrekeyCount codec req).Obeys (fun _ o ↦ o ≠ .panic) req.Done [] := by
  have hrefused {past : Past} {e : String} (h : Idle past) (hr : req.Refused past) :
      req.Done past (checkError e) := ⟨h, .inl ⟨fun _ ↦ hr, by rintro _ ⟨⟩; rfl⟩⟩
  have hfailed {past : Past} {e : String} (h : Idle past) (hf : ¬ Healthy past) :
      req.Done past (.error e) := ⟨h, .inl ⟨fun hh ↦ absurd hh hf, by rintro _ ⟨⟩⟩⟩
  unfold checkPrekeyCount
  split
  next hlen => exact hrefused (by simp) (.inl fun h ↦ length_ne_of_check hlen h.1)
  next hlen =>
  split
  next hsig => exact hrefused (by simp) (.inl fun h ↦ h.2 hsig)
  next hsig =>
  refine obeys_sql (by simp) (fun e ↦ ?_) fun user ↦ ?_
  · cases e with
    | notFound => exact hrefused (by simp [storesPrekeys]) (.inr (.inl (by simp [Did])))
    | _ => exact hfailed (by simp [storesPrekeys]) (by simp [databaseFails])
  refine obeys_call (o := .verify _ _ _) (by simp) fun valid ↦ ?_
  cases valid with
  | false => exact hrefused (by simp [storesPrekeys]) (.inr (.inr ⟨user, by simp [Did]⟩))
  | true =>
  refine obeys_sql (by simp) (fun e ↦ ?_) fun n ↦ ?_
  · exact hfailed (by simp [storesPrekeys]) (by simp [databaseFails])
  exact ⟨by simp [storesPrekeys],
    .inr ⟨user, n, _, ⟨length_of_check hlen, hsig⟩, rfl, rfl, rfl, rfl⟩⟩

/-- What a FETCH_PREKEY_BUNDLE has done when it ends, with its response: without a one-time
pre-key the bundle is that of the account, otherwise it has the one that was selected. -/
def FetchPreKeyBundleRequest.Done (codec : Codec) (req : FetchPreKeyBundleRequest) (past : Past)
    (r : Except String FetchPreKeyBundleResponse) : Prop :=
  (Idle past ∧ (Healthy past → req.Refused codec past) ∧
    ∀ resp, r = .ok resp → resp.success = false) ∨
  (∃ requester target base, req.Complete ∧ past = req.foundPast requester target ++
      [⟨.sql (.selectUnusedPrekey req.targetHash), .error .notFound⟩] ∧
    codec.decodePreKeyBundle target.preKeyBundle = some base ∧
    r = .ok { success := true, bundle := some base }) ∨
  ∃ requester target base id prekeyId publicKey n, req.Complete ∧
    past = req.foundPast requester target ++
      [⟨.sql (.selectUnusedPrekey req.targetHash), .ok (id, prekeyId, publicKey)⟩,
       ⟨.sql (.markPrekeyUsed id), .ok n⟩] ∧
    codec.decodePreKeyBundle target.preKeyBundle = some base ∧
    r = .ok {
      success := true
      bundle := some { base with preKeyId := prekeyId.toUInt32, preKeyPublic := publicKey } }

theorem fetchPrekeyBundle_done (req : FetchPreKeyBundleRequest) :
    (fetchPrekeyBundle codec req).Obeys (fun _ o ↦ o ≠ .panic) (req.Done codec) [] := by
  have hrefused {past : Past} {e : String} (h : Idle past) (hr : req.Refused codec past) :
      req.Done codec past (fetchError e) := .inl ⟨h, fun _ ↦ hr, by rintro _ ⟨⟩; rfl⟩
  have hfailed {past : Past} {e : String} (h : Idle past) (hf : ¬ Healthy past) :
      req.Done codec past (.error e) := .inl ⟨h, fun hh ↦ absurd hh hf, by rintro _ ⟨⟩⟩
  unfold fetchPrekeyBundle
  split
  next hlen => exact hrefused (by simp) (.inl fun h ↦ length_ne_of_check hlen h.1)
  next hlen =>
  split
  next htarget => exact hrefused (by simp) (.inl fun h ↦ length_ne_of_check htarget h.2.1)
  next htarget =>
  split
  next hsig => exact hrefused (by simp) (.inl fun h ↦ h.2.2 hsig)
  next hsig =>
  have hcomplete : req.Complete := ⟨length_of_check hlen, length_of_check htarget, hsig⟩
  refine obeys_sql (by simp) (fun e ↦ ?_) fun requester ↦ ?_
  · cases e with
    | notFound => exact hrefused (by simp [storesPrekeys]) (.inr (.inl (.inl (by simp [Did]))))
    | _ => exact hfailed (by simp [storesPrekeys]) (by simp [databaseFails])
  refine obeys_call (o := .verify _ _ _) (by simp) fun valid ↦ ?_
  cases valid with
  | false =>
      exact hrefused (by simp [storesPrekeys]) (.inr (.inl (.inr ⟨requester, by simp [Did]⟩)))
  | true =>
  refine obeys_sql (by simp) (fun e ↦ ?_) fun target ↦ ?_
  · cases e with
    | notFound => exact hrefused (by simp [storesPrekeys]) (.inr (.inr (.inl (by simp [Did]))))
    | _ => exact hfailed (by simp [storesPrekeys]) (by simp [databaseFails])
  dsimp only
  split
  next hbase =>
    exact hrefused (by simp [storesPrekeys]) (.inr (.inr (.inr ⟨target, by simp [Did], hbase⟩)))
  next base hbase =>
  refine obeys_sql (by simp) (fun e ↦ ?_) fun row ↦ ?_
  · cases e with
    | notFound => exact .inr (.inl ⟨requester, target, base, hcomplete, rfl, hbase, rfl⟩)
    | _ => exact hfailed (by simp [storesPrekeys]) (by simp [databaseFails])
  obtain ⟨id, prekeyId, publicKey⟩ := row
  refine obeys_sql (by simp) (fun e ↦ ?_) fun n ↦ ?_
  · exact hfailed (by simp [storesPrekeys]) (by simp [databaseFails])
  exact .inr (.inr ⟨requester, target, base, id, prekeyId, publicKey, n, hcomplete, rfl, hbase, rfl⟩)

end ZenthDht
