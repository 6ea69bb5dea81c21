import ZenthDht.Safety.Refused

/-!
# What a success stands for

The reply to a request has two flags: the one the dispatcher sends, and the `success` field of the
response it carries, where the response type has one.  A request whose signature has not been
verified is refused by at least one of them (`processCall_refuses`), and the two agree, with two
exceptions: FETCH_MESSAGES answers an unknown user and an invalid signature with an empty page,
and the dispatcher calls every answer of RELAY_FETCH a success.
-/

namespace ZenthDht

open Conc

variable {codec : Codec} {verifyDetached : Bytes → Bytes → Bytes → Bool}
variable {c : State} {t : Nat} {call : Call} {reply : Reply} {past' : Past} {α : Type}

/-! ## Flags -/

/-- The `success` field of a response, for the types that have one.  An empty payload decodes to a
response that leaves it unset. -/
def Payload.flag : Payload → Option Bool
  | .empty => some false
  | .registration r => some r.success
  | .login r => some r.success
  | .delete r => some r.success
  | .sendMessage r => some r.success
  | .uploadPrekeys r => some r.success
  | .fetchPrekeyBundle r => some r.success
  | .checkPrekeyCount r => some r.success
  | .replenishPrekeys r => some r.success
  | .syncPushBlob r => some r.success
  | .syncFetchBlob r => some r.success
  | .syncDeleteBlob r => some r.success
  | .relayPush r => some r.success
  | .relayFetch r => some r.success
  | .relayAck r => some r.success
  | .publishRecoveryKey r => some r.success
  | .recoveryClaim r => some r.success
  | .lookupUser _ | .fetchFriendRequests _ | .fetchMessages _ | .fetchFriendResponses _
  | .updateManifest _ | .updateChunk _ => none

/-- The methods whose response type has a `success` field. -/
def Call.flagged : Call → Bool
  | .register _ | .login _ | .delete _ | .sendMessage _ | .uploadPrekeys _ | .fetchPrekeyBundle _
  | .checkPrekeyCount _ | .replenishPrekeys _ | .syncPushBlob _ | .syncFetchBlob _
  | .syncDeleteBlob _ | .relayPush _ | .relayFetch _ | .relayAck _ | .publishRecoveryKey _
  | .recoveryClaim _ => true
  | _ => false

/-- The reply says no, by one flag or by the other. -/
def Call.Refuses (call : Call) (reply : Reply) : Prop :=
  reply.success = false ∨ call.flagged = true ∧ reply.payload.flag = some false

/-- The requests whose signature is verified: all but REGISTER, the client updates, and a LOGIN
that asks for a challenge to sign. -/
def Call.carriesSignature : Call → Bool
  | .register _ | .getUpdateManifest _ | .getUpdateChunk _ => false
  | .login req => !req.requestChallenge
  | _ => true

/-! ## The two flags agree -/

theorem Reply.flag_flagged {payload : α → Payload} {success : α → Bool}
    (h : ∀ a, (payload a).flag = some (success a)) (r : Except String α) :
    (Reply.flagged payload success r).payload.flag =
      some (Reply.flagged payload success r).success := by
  cases r with
  | error e => rfl
  | ok a => exact h a

theorem Reply.flag_explained {payload : α → Payload} {success : α → Bool} {message : α → String}
    (h : ∀ a, (payload a).flag = some (success a)) (r : Except String α) :
    (Reply.explained payload success message r).payload.flag =
      some (Reply.explained payload success message r).success := by
  cases r with
  | error e => rfl
  | ok a => exact h a

/-- What holds of every value is a postcondition. -/
theorem obeys_all {β : Type} {p : Handler α} {f : α → Handler β} {post : Past → β → Prop}
    (h : ∀ past a, (f a).Obeys (fun _ _ ↦ True) post past) :
    (p >>= f).Obeys (fun _ _ ↦ True) post past' :=
  (Program.obeys_of_forall p (fun _ _ ↦ trivial) fun _ _ ↦ trivial).bind_any h

theorem processCall_flag (hne : ∀ req, call ≠ .relayFetch req) :
    (processCall codec call).Obeys (fun _ _ ↦ True)
      (fun _ r ↦ call.flagged = true → r.payload.flag = some r.success) [] := by
  cases call with
  | relayFetch req => exact absurd rfl (hne req)
  | register req | login req | sendMessage env =>
      exact obeys_all fun _ a _ ↦ Reply.flag_flagged (fun _ ↦ rfl) _
  | delete req | uploadPrekeys req | fetchPrekeyBundle req | checkPrekeyCount req
  | replenishPrekeys req | syncPushBlob req | syncFetchBlob req | syncDeleteBlob req
  | relayPush req | relayAck req | publishRecoveryKey req | recoveryClaim req =>
      exact obeys_all fun _ a _ ↦ Reply.flag_explained (fun _ ↦ rfl) a
  | _ => exact Program.obeys_of_forall _ (fun _ _ ↦ trivial) fun _ _ ↦ nofun

/-! ## Refusals -/

/-- A handler that has verified a signature may answer anything. -/
theorem obeys_verified {post : α → Prop} {key message signature : Bytes} (p : Handler α) :
    p.Obeys (fun _ _ ↦ True) (fun past a ↦ Unverified past → post a)
      (past' ++ [⟨.verify key message signature, true⟩]) := by
  refine (Program.obeys_extends p).mono (fun _ _ _ ↦ trivial) fun past a hpast hno ↦ ?_
  exact absurd (hpast.subset (List.mem_append_right _ List.mem_cons_self)) (hno _ _ _)

/-- The check of a signature: only its failure leaves the request unverified. -/
theorem obeys_authorized {post : α → Prop} {key message signature : Bytes} {invalid rest : Handler α}
    (h : invalid.Obeys (fun _ _ ↦ True) (fun past a ↦ Unverified past → post a)
      (past' ++ [⟨.verify key message signature, false⟩])) :
    (verify key message signature >>= fun b ↦ if !b then invalid else rest).Obeys
      (fun _ _ ↦ True) (fun past a ↦ Unverified past → post a) past' := by
  refine ⟨trivial, fun r ↦ ?_⟩
  cases r with
  | false => exact h
  | true => exact obeys_verified rest

/-- Without a verified signature the handler returns only values that `refusal` allows. -/
abbrev Refusing (refusal : α → Prop) (p : Handler α) : Prop :=
  p.Obeys (fun _ _ ↦ True) (fun past a ↦ Unverified past → refusal a) []

/-- An error, or a response that reports no success. -/
def Failed (success : α → Bool) (r : Except String α) : Prop := ∀ a, r = .ok a → success a = false

@[simp] theorem failed_error {success : α → Bool} (e : String) : Failed success (.error e) := nofun

@[simp] theorem failed_ok {success : α → Bool} (a : α) :
    Failed success (.ok a) ↔ success a = false := by
  constructor
  · intro h
    exact h a rfl
  · rintro h _ ⟨⟩
    exact h

section Handlers

/-- The proof phase of LOGIN. -/
theorem login_refuses {req : LoginRequest} (hproof : req.requestChallenge = false) :
    Refusing (Failed (·.success)) (login req) := by
  unfold login getRequiredVersion
  refine ⟨trivial, fun version ↦ ?_⟩
  change Program.Obeys _ _ _ (match (version.toOption.filter _) with | some _ => _ | none => _)
  split
  · simp
  iterate 2
    split
    · simp [loginError]
  refine obeys_sql trivial (fun e ↦ by cases e <;> simp [loginError]) fun user ↦ ?_
  simp only [hproof, Bool.false_eq_true, if_false]
  split
  · unfold handleProofVerification
    refine obeys_sql trivial (fun e ↦ by cases e <;> simp [loginError]) fun challenge ↦ ?_
    refine obeys_utcNow trivial fun now ↦ ?_
    split
    · exact obeys_call trivial fun _ ↦ by simp [loginError]
    · exact obeys_authorized (by simp [loginError])
  · simp [loginError]

theorem deleteAccount_refuses (req : DeleteRequest) :
    Refusing (Failed (·.success)) (deleteAccount req) := by
  unfold deleteAccount
  iterate 2
    split
    · simp
  refine obeys_fresh trivial (fun _ _ ↦ by simp) fun t _ ↦ ?_
  refine obeys_sql trivial (fun e ↦ by cases e <;> simp) fun user ↦ ?_
  exact obeys_authorized (by simp)

theorem publishRecoveryKey_refuses (req : PublishRecoveryKeyRequest) :
    Refusing (Failed (·.success)) (publishRecoveryKey req) := by
  unfold publishRecoveryKey
  iterate 3
    split
    · simp
  refine obeys_fresh trivial (fun _ _ ↦ by simp) fun t _ ↦ ?_
  refine obeys_sql trivial (fun e ↦ by simp) fun user ↦ ?_
  exact obeys_authorized (by simp)

theorem recoveryClaim_refuses (req : RecoveryClaimRequest) :
    Refusing (Failed (·.success)) (recoveryClaim req) := by
  unfold recoveryClaim
  iterate 3
    split
    · simp
  refine obeys_fresh trivial (fun _ _ ↦ by simp) fun t _ ↦ ?_
  refine obeys_sql trivial (fun e ↦ by simp) fun user ↦ ?_
  dsimp only
  split
  · simp
  · exact obeys_authorized (by simp)

theorem uploadPrekeys_refuses (req : UploadPreKeysRequest) :
    Refusing (Failed (·.success)) (uploadPrekeys req) := by
  unfold uploadPrekeys
  iterate 2
    split
    · simp [uploadError]
  refine obeys_fresh trivial (fun _ _ ↦ by simp [uploadError]) fun t _ ↦ ?_
  split
  · simp [uploadError]
  refine obeys_sql trivial (fun e ↦ by cases e <;> simp [uploadError]) fun user ↦ ?_
  exact obeys_authorized (by simp [uploadError])

theorem replenishPrekeys_refuses (req : ReplenishPreKeysRequest) :
    Refusing (Failed (·.success)) (replenishPrekeys req) := by
  unfold replenishPrekeys
  iterate 3
    split
    · simp [replenishError]
  refine obeys_sql trivial (fun e ↦ by cases e <;> simp [replenishError]) fun user ↦ ?_
  exact obeys_authorized (by simp [replenishError])

theorem checkPrekeyCount_refuses (req : CheckPreKeyCountRequest) :
    Refusing (Failed (·.success)) (checkPrekeyCount codec req) := by
  unfold checkPrekeyCount
  iterate 2
    split
    · simp [checkError]
  refine obeys_sql trivial (fun e ↦ by cases e <;> simp [checkError]) fun user ↦ ?_
  exact obeys_authorized (by simp [checkError])

theorem fetchPrekeyBundle_refuses (req : FetchPreKeyBundleRequest) :
    Refusing (Failed (·.success)) (fetchPrekeyBundle codec req) := by
  unfold fetchPrekeyBundle
  iterate 3
    split
    · simp [fetchError]
  refine obeys_sql trivial (fun e ↦ by cases e <;> simp [fetchError]) fun requester ↦ ?_
  exact obeys_authorized (by simp [fetchError])

theorem sendMessage_refuses (env : ZenthSignalEnvelope) :
    Refusing (Failed (·.success)) (sendMessage codec env) := by
  unfold sendMessage
  refine obeys_sql trivial (fun e ↦ by cases e <;> simp [sendError]) fun sender ↦ ?_
  exact obeys_authorized (by simp [sendError])

theorem pushRelay_refuses (req : RelayPushRequest) :
    Refusing (Failed (·.success)) (pushRelay req) := by
  unfold pushRelay
  iterate 3
    split
    · simp [relayPushError]
  refine obeys_fresh trivial (fun _ _ ↦ by simp [relayPushError]) fun t _ ↦ ?_
  refine obeys_limiter trivial (by simp [relayPushError]) ?_
  exact obeys_authorized (by simp [relayPushError])

theorem fetchRelay_refuses (req : RelayFetchRequest) :
    Refusing (Failed (·.success)) (fetchRelay req) := by
  unfold fetchRelay
  iterate 2
    split
    · simp [relayFetchError]
  refine obeys_fresh trivial (fun _ _ ↦ by simp [relayFetchError]) fun t _ ↦ ?_
  exact obeys_authorized (by simp [relayFetchError])

theorem ackRelay_refuses (req : RelayAckRequest) :
    Refusing (Failed (·.success)) (ackRelay req) := by
  unfold ackRelay
  iterate 2
    split
    · simp [relayAckError]
  refine obeys_fresh trivial (fun _ _ ↦ by simp [relayAckError]) fun t _ ↦ ?_
  exact obeys_authorized (by simp [relayAckError])

theorem pushBlob_refuses (req : SyncPushBlobRequest) :
    Refusing (Failed (·.success)) (pushBlob req) := by
  unfold pushBlob
  iterate 3
    split
    · simp [pushBlobError]
  refine obeys_fresh trivial (fun _ _ ↦ by simp [pushBlobError]) fun t _ ↦ ?_
  refine obeys_limiter trivial (by simp [pushBlobError]) ?_
  exact obeys_authorized (by simp [pushBlobError])

theorem fetchBlob_refuses (req : SyncBlobRequest) :
    Refusing (Failed (·.success)) (fetchBlob req) := by
  unfold fetchBlob
  iterate 2
    split
    · simp [fetchBlobError]
  refine obeys_fresh trivial (fun _ _ ↦ by simp [fetchBlobError]) fun t _ ↦ ?_
  exact obeys_authorized (by simp [fetchBlobError])

theorem deleteBlob_refuses (req : SyncBlobRequest) :
    Refusing (Failed (·.success)) (deleteBlob req) := by
  unfold deleteBlob
  iterate 2
    split
    · simp [deleteBlobError]
  refine obeys_fresh trivial (fun _ _ ↦ by simp [deleteBlobError]) fun t _ ↦ ?_
  exact obeys_authorized (by simp [deleteBlobError])

/-! The methods whose response has no flag report an error. -/

theorem contact_refuses (req : FriendRequest) :
    Refusing (fun r ↦ r.1 = false) (contact req) := by
  unfold contact
  iterate 7
    split
    · simp
  refine obeys_sql trivial (fun e ↦ by cases e <;> simp) fun requester ↦ ?_
  refine obeys_sql trivial (fun e ↦ by cases e <;> simp) fun target ↦ ?_
  exact obeys_authorized (by simp)

theorem respondFriendRequest_refuses (req : FriendResponse) :
    Refusing (fun r ↦ r.1 = false) (respondFriendRequest req) := by
  unfold respondFriendRequest
  iterate 6
    split
    · simp
  refine obeys_sql trivial (fun e ↦ by cases e <;> simp) fun responder ↦ ?_
  exact obeys_authorized (by simp)

theorem lookupUser_refuses (req : LookupUserRequest) :
    Refusing (Failed fun _ ↦ true) (lookupUser codec req) := by
  unfold lookupUser
  iterate 3
    split
    · simp
  refine obeys_sql trivial (fun e ↦ by cases e <;> simp) fun requester ↦ ?_
  exact obeys_authorized (by simp)

theorem fetchFriendRequests_refuses (req : FetchFriendsRequest) :
    Refusing (Failed fun _ ↦ true) (fetchFriendRequests req) := by
  unfold fetchFriendRequests
  iterate 3
    split
    · simp
  refine obeys_sql trivial (fun e ↦ by cases e <;> simp) fun user ↦ ?_
  exact obeys_authorized (by simp)

theorem fetchFriendResponses_refuses (req : FetchFriendsRequest) :
    Refusing (Failed fun _ ↦ true) (fetchFriendResponses req) := by
  unfold fetchFriendResponses
  iterate 2
    split
    · simp
  refine obeys_sql trivial (fun e ↦ by cases e <;> simp) fun user ↦ ?_
  exact obeys_authorized (by simp)

theorem fetchMyAccepted_refuses (req : FetchFriendsRequest) :
    Refusing (Failed fun _ ↦ true) (fetchMyAccepted req) := by
  unfold fetchMyAccepted
  iterate 2
    split
    · simp
  refine obeys_sql trivial (fun e ↦ by cases e <;> simp) fun user ↦ ?_
  exact obeys_authorized (by simp)

theorem ackMessage_refuses (req : MessageAck) :
    Refusing (Failed fun _ ↦ true) (ackMessage req) := by
  unfold ackMessage
  iterate 2
    split
    · simp
  refine obeys_sql trivial (fun e ↦ by cases e <;> simp) fun user ↦ ?_
  exact obeys_authorized (by simp)

end Handlers

/-! ## Replies -/

section Replies

variable {payload : α → Payload} {success : α → Bool} {message : α → String} {r : Except String α}

theorem Failed.flagged (h : Failed success r) : (Reply.flagged payload success r).success = false := by
  cases r with
  | error e => rfl
  | ok a => exact h a rfl

theorem Failed.explained (h : Failed success r) :
    (Reply.explained payload success message r).success = false := by
  cases r with
  | error e => rfl
  | ok a => exact h a rfl

theorem Failed.successful (h : Failed (fun _ ↦ true) r) :
    (Reply.successful payload r).success = false := by
  cases r with
  | error e => rfl
  | ok a => exact nomatch h a rfl

theorem Failed.mapError {f : String → String} (h : Failed success r) :
    Failed success (r.mapError f) := by
  cases r with
  | error e => exact failed_error _
  | ok a => exact h

/-- A handler that refuses, with what the dispatcher makes of its result. -/
theorem refuses_of {refusal : α → Prop} {p : Handler α} {f : α → Reply}
    (h : Refusing refusal p) (hf : ∀ a, refusal a → call.Refuses (f a)) :
    Refusing call.Refuses (p >>= fun a ↦ pure (f a)) :=
  h.bind fun _ a ha hno ↦ hf a (ha hno)

end Replies

/-- **Refusals.**  A request whose signature has not been verified is refused. -/
theorem processCall_refuses (hsig : call.carriesSignature = true)
    (hne : ∀ req, call ≠ .fetchMessages req) :
    Refusing call.Refuses (processCall codec call) := by
  cases call with
  | register req | getUpdateManifest req | getUpdateChunk req => exact nomatch hsig
  | fetchMessages req => exact absurd rfl (hne req)
  | login req =>
      have hproof : req.requestChallenge = false := by simpa [Call.carriesSignature] using hsig
      exact refuses_of (login_refuses hproof) fun _ h ↦ .inl h.flagged
  | delete req => exact refuses_of (deleteAccount_refuses req) fun _ h ↦ .inl h.explained
  | contact req => exact refuses_of (contact_refuses req) fun _ h ↦ .inl h
  | lookupUser req => exact refuses_of (lookupUser_refuses req) fun _ h ↦ .inl h.successful
  | fetchFriendRequests req =>
      exact refuses_of (fetchFriendRequests_refuses req) fun _ h ↦ .inl h.successful
  | respondFriendRequest req => exact refuses_of (respondFriendRequest_refuses req) fun _ h ↦ .inl h
  | sendMessage env => exact refuses_of (sendMessage_refuses env) fun _ h ↦ .inl h.mapError.flagged
  | fetchFriendResponses req =>
      exact refuses_of (fetchFriendResponses_refuses req) fun _ h ↦ .inl h.successful
  | uploadPrekeys req => exact refuses_of (uploadPrekeys_refuses req) fun _ h ↦ .inl h.explained
  | fetchPrekeyBundle req => exact refuses_of (fetchPrekeyBundle_refuses req) fun _ h ↦ .inl h.explained
  | checkPrekeyCount req => exact refuses_of (checkPrekeyCount_refuses req) fun _ h ↦ .inl h.explained
  | replenishPrekeys req => exact refuses_of (replenishPrekeys_refuses req) fun _ h ↦ .inl h.explained
  | syncPushBlob req => exact refuses_of (pushBlob_refuses req) fun _ h ↦ .inl h.explained
  | syncFetchBlob req => exact refuses_of (fetchBlob_refuses req) fun _ h ↦ .inl h.explained
  | syncDeleteBlob req => exact refuses_of (deleteBlob_refuses req) fun _ h ↦ .inl h.explained
  | relayPush req => exact refuses_of (pushRelay_refuses req) fun _ h ↦ .inl h.explained
  | relayFetch req =>
      refine refuses_of (fetchRelay_refuses req) fun r h ↦ ?_
      cases r with
      | error e => exact .inl rfl
      | ok resp => exact .inr ⟨rfl, congrArg some (h resp rfl)⟩
  | relayAck req => exact refuses_of (ackRelay_refuses req) fun _ h ↦ .inl h.explained
  | fetchMyAccepted req => exact refuses_of (fetchMyAccepted_refuses req) fun _ h ↦ .inl h.successful
  | ackMessage req => exact refuses_of (ackMessage_refuses req) fun _ h ↦ .inl h.successful
  | publishRecoveryKey req =>
      exact refuses_of (publishRecoveryKey_refuses req) fun _ h ↦ .inl h.explained
  | recoveryClaim req => exact refuses_of (recoveryClaim_refuses req) fun _ h ↦ .inl h.explained
  | refused message => exact fun _ ↦ .inl rfl

/-! ## The exceptions -/

/-- The request is refused, and its reply is a success: FETCH_MESSAGES when it found no user or the
signature is not valid under the key it found, RELAY_FETCH whenever it refuses. -/
def Call.Masked (verifyDetached : Bytes → Bytes → Bytes → Bool) (past' : Past) : Call → Prop
  | .fetchMessages req =>
      past'.head? = some ⟨.sql (.selectUser req.userHash), .error .notFound⟩ ∨
      ∃ user, past'.head? = some ⟨.sql (.selectUser req.userHash), .ok user⟩ ∧
        verifyDilithiumSignature verifyDetached user.identityKeyDilithium req.signedData
          req.dilithiumSignature = false
  | .relayFetch req => req.forDeviceDilithiumPubkey = [] ∨ req.signature = [] ∨
      (∃ now, past'.head? = some ⟨.clock, now⟩ ∧ fresh now req.timestamp = false) ∨
      verifyDilithiumSignature verifyDetached req.forDeviceDilithiumPubkey req.signedData
        req.signature = false
  | _ => False

/-- What a poll has done when it answers: it found no user, the look-up failed, the signature was
not valid, or it was. -/
theorem fetchMessages_outcome (req : FetchMessagesRequest) :
    (fetchMessages codec req).Obeys (fun _ _ ↦ True) (fun past r ↦
      (past = [⟨.sql (.selectUser req.userHash), .error .notFound⟩] ∧ r = .ok {}) ∨
      (∃ e m, past = [⟨.sql (.selectUser req.userHash), .error e⟩] ∧ e ≠ .notFound ∧
        r = .error m) ∨
      (∃ user, past = [⟨.sql (.selectUser req.userHash), .ok user⟩,
        ⟨.verify user.identityKeyDilithium req.signedData req.dilithiumSignature, false⟩] ∧
        r = .ok {}) ∨
      ∃ user, [⟨.sql (.selectUser req.userHash), .ok user⟩,
        ⟨.verify user.identityKeyDilithium req.signedData req.dilithiumSignature, true⟩] <+: past)
      [] := by
  unfold fetchMessages
  refine obeys_sql trivial (fun e ↦ ?_) fun user ↦ ?_
  · cases e with
    | notFound => exact .inl ⟨rfl, rfl⟩
    | uniqueViolation m | foreignKeyViolation m | other m =>
        exact .inr (.inl ⟨_, _, rfl, nofun, rfl⟩)
  refine ⟨trivial, fun valid ↦ ?_⟩
  cases valid with
  | false => exact .inr (.inr (.inl ⟨user, rfl, rfl⟩))
  | true =>
      refine (Program.obeys_extends _).mono (fun _ _ _ ↦ trivial) fun past r hpast ↦ ?_
      exact .inr (.inr (.inr ⟨user, hpast⟩))

/-- What a relay fetch has done when it answers: it was refused for its fields, for its timestamp
or for its signature, or the signature was valid. -/
theorem fetchRelay_outcome (req : RelayFetchRequest) :
    (fetchRelay req).Obeys (fun _ _ ↦ True) (fun past r ↦
      ((req.forDeviceDilithiumPubkey = [] ∨ req.signature = []) ∧ Failed (·.success) r ∧
        r.isOk = true) ∨
      (∃ now, past = [⟨.clock, now⟩] ∧ fresh now req.timestamp = false ∧ Failed (·.success) r ∧
        r.isOk = true) ∨
      (∃ now, past = [⟨.clock, now⟩,
        ⟨.verify req.forDeviceDilithiumPubkey req.signedData req.signature, false⟩] ∧
        Failed (·.success) r ∧ r.isOk = true) ∨
      (req.forDeviceDilithiumPubkey ≠ [] ∧ req.signature ≠ [] ∧ ∃ now, [⟨.clock, now⟩,
        ⟨.verify req.forDeviceDilithiumPubkey req.signedData req.signature, true⟩] <+: past ∧
        fresh now req.timestamp = true ∧ ∀ a, r = .ok a → a.success = true)) [] := by
  unfold fetchRelay
  split
  next hd => exact .inl ⟨.inl hd, by simp [relayFetchError], rfl⟩
  next hd =>
  split
  next hs => exact .inl ⟨.inr hs, by simp [relayFetchError], rfl⟩
  next hs =>
  refine ⟨trivial, fun now ↦ ?_⟩
  change Program.Obeys _ _ _ (if !(fresh now req.timestamp) then _ else _)
  cases hf : fresh now req.timestamp with
  | false => exact .inr (.inl ⟨now, rfl, hf, by simp [relayFetchError], rfl⟩)
  | true =>
  refine ⟨trivial, fun valid ↦ ?_⟩
  cases valid with
  | false => exact .inr (.inr (.inl ⟨now, rfl, by simp [relayFetchError], rfl⟩))
  | true =>
      refine obeys_utcNow trivial fun n ↦ obeys_sql trivial (fun e ↦ ?_) fun rows ↦ ?_
      · exact .inr (.inr (.inr ⟨hd, hs, now, by simp, hf, nofun⟩))
      · refine .inr (.inr (.inr ⟨hd, hs, now, by simp, hf, ?_⟩))
        rintro _ ⟨⟩
        rfl

/-! ## Authentic successes -/

/-- A success stands for a verified signature, and the flag of the response says the same. -/
structure Reply.Authentic (codec : Codec) (past' : Past) (call : Call) (reply : Reply) : Prop where
  vouched : reply.success = true → call.Vouched codec past'
  flag : call.flagged = true → reply.payload.flag = some reply.success

theorem authentic_of_refuses (h : Reachable codec verifyDetached c)
    (hans : c.answered t = some (.request call, reply)) (hsig : call.carriesSignature = true)
    (hpoll : ∀ req, call ≠ .fetchMessages req) (hrelay : ∀ req, call ≠ .relayFetch req) :
    reply.Authentic codec (past t c.trace) call := by
  have hflag := h.request_answer (processCall_flag hrelay) hans
  refine ⟨fun hsuccess ↦ ?_, hflag⟩
  by_contra hno
  have hruns : Runs c t (.request call) := ⟨_, answered_iff.mp hans⟩
  have hunverified : Unverified (past t c.trace) := fun key message signature hv ↦
    hno (h.vouched hruns hv)
  rcases h.request_answer (processCall_refuses hsig hpoll) hans hunverified with
    hfalse | ⟨hflagged, hfalse⟩
  · rw [hsuccess] at hfalse
    exact nomatch hfalse
  · rw [hflag hflagged, hsuccess] at hfalse
    exact nomatch hfalse

/-- The reply to a request is what the dispatcher makes of the result of its handler. -/
theorem Reachable.handler_answer {p : Handler α} {f : α → Reply} {post : Past → α → Prop}
    (h : Reachable codec verifyDetached c) (hans : c.answered t = some (.request call, reply))
    (hcall : processCall codec call = p >>= fun a ↦ pure (f a))
    (hp : p.Obeys (fun _ _ ↦ True) post []) : ∃ a, post (past t c.trace) a ∧ reply = f a := by
  have hobeys : (processCall codec call).Obeys (fun _ _ ↦ True)
      (fun past r ↦ ∃ a, post past a ∧ r = f a) [] := by
    rw [hcall]
    exact hp.bind fun past a ha ↦ ⟨a, ha, rfl⟩
  exact h.request_answer hobeys hans

theorem fetchMessages_authentic_iff {req : FetchMessagesRequest}
    (h : Reachable codec verifyDetached c)
    (hans : c.answered t = some (.request (.fetchMessages req), reply)) :
    reply.Authentic codec (past t c.trace) (.fetchMessages req) ↔
      ¬ (Call.fetchMessages req).Masked verifyDetached (past t c.trace) := by
  obtain ⟨r, hr, rfl⟩ := h.handler_answer hans rfl (fetchMessages_outcome req)
  have hruns : Runs c t (.request (.fetchMessages req)) := ⟨_, answered_iff.mp hans⟩
  rcases hr with ⟨hpast, rfl⟩ | ⟨e, m, hpast, he, rfl⟩ | ⟨user, hpast, rfl⟩ | ⟨user, hpast⟩
  · -- no such user: a success without any verification
    constructor
    · intro hauth
      obtain ⟨key, message, signature, -, hv⟩ := hauth.vouched rfl
      simp [hpast, Did] at hv
    · intro hmask
      exact absurd (.inl (by rw [hpast]; rfl)) hmask
  · -- the look-up failed: an error
    constructor
    · rintro - (hmask | ⟨user, hmask, -⟩)
      · simp only [hpast, List.head?_cons, Option.some.injEq, Sigma.mk.injEq, heq_eq_eq,
          Except.error.injEq, true_and] at hmask
        exact he hmask
      · simp [hpast] at hmask
    · intro hmask
      exact ⟨by rintro ⟨⟩, by rintro ⟨⟩⟩
  · -- an invalid signature: a success with a failed verification
    constructor
    · intro hauth
      obtain ⟨key, message, signature, -, hv⟩ := hauth.vouched rfl
      simp [hpast, Did] at hv
    · intro hmask
      have hv : Did (past t c.trace) (.verify user.identityKeyDilithium req.signedData
          req.dilithiumSignature) false := by simp [hpast, Did]
      exact absurd (.inr ⟨user, by rw [hpast]; rfl, h.verdict (did_past.mp hv)⟩) hmask
  · -- a valid signature
    have hv : Did (past t c.trace) (.verify user.identityKeyDilithium req.signedData
        req.dilithiumSignature) true := hpast.subset (by simp)
    have hhead : (past t c.trace).head? =
        some ⟨.sql (.selectUser req.userHash), .ok user⟩ := by
      obtain ⟨rest, hrest⟩ := hpast
      rw [← hrest]
      rfl
    constructor
    · rintro - (hmask | ⟨user', hmask, hinvalid⟩)
      · simp [hhead] at hmask
      · rw [hhead] at hmask
        simp only [Option.some.injEq, Sigma.mk.injEq, heq_eq_eq, Except.ok.injEq,
          true_and] at hmask
        rw [← hmask, h.verified (did_past.mp hv)] at hinvalid
        cases hinvalid
    · intro hmask
      exact ⟨fun _ ↦ h.vouched hruns hv, by rintro ⟨⟩⟩

theorem fetchRelay_authentic_iff {req : RelayFetchRequest} (h : Reachable codec verifyDetached c)
    (hans : c.answered t = some (.request (.relayFetch req), reply)) :
    reply.Authentic codec (past t c.trace) (.relayFetch req) ↔
      ¬ (Call.relayFetch req).Masked verifyDetached (past t c.trace) := by
  obtain ⟨r, hr, rfl⟩ := h.handler_answer hans rfl (fetchRelay_outcome req)
  have hruns : Runs c t (.request (.relayFetch req)) := ⟨_, answered_iff.mp hans⟩
  -- a refusal has the two flags different
  have hrefused (hfailed : Failed (·.success) r) (hok : r.isOk = true) :
      ¬ (Reply.successful .relayFetch r).Authentic codec (past t c.trace) (.relayFetch req) := by
    intro hauth
    cases r with
    | error e => cases hok
    | ok a =>
        have hflag : a.success = true := Option.some.inj (hauth.flag rfl)
        cases (hfailed a rfl).symm.trans hflag
  rcases hr with ⟨hempty, hfailed, hok⟩ | ⟨now, hpast, hstale, hfailed, hok⟩ |
    ⟨now, hpast, hfailed, hok⟩ | ⟨hd, hs, now, hpast, hfresh, hsuccess⟩
  · refine iff_of_false (hrefused hfailed hok) (not_not.mpr ?_)
    exact hempty.imp_right .inl
  · refine iff_of_false (hrefused hfailed hok) (not_not.mpr (.inr (.inr (.inl ⟨now, ?_, hstale⟩))))
    rw [hpast]
    rfl
  · have hv : Did (past t c.trace) (.verify req.forDeviceDilithiumPubkey req.signedData
        req.signature) false := by simp [hpast, Did]
    refine iff_of_false (hrefused hfailed hok) (not_not.mpr (.inr (.inr (.inr ?_))))
    exact h.verdict (did_past.mp hv)
  · have hv : Did (past t c.trace) (.verify req.forDeviceDilithiumPubkey req.signedData
        req.signature) true := hpast.subset (by simp)
    refine iff_of_true ⟨fun _ ↦ h.vouched hruns hv, fun _ ↦ ?_⟩ ?_
    · cases r with
      | error e => rfl
      | ok a => exact congrArg some (hsuccess a rfl)
    · rintro (hmask | hmask | ⟨now', hmask, hstale⟩ | hinvalid)
      · exact hd hmask
      · exact hs hmask
      · obtain ⟨rest, hrest⟩ := hpast
        rw [← hrest] at hmask
        obtain rfl : now = now' := by simpa using hmask
        rw [hfresh] at hstale
        cases hstale
      · rw [h.verified (did_past.mp hv)] at hinvalid
        cases hinvalid

/-- **Authentic successes.**  In every reachable state, the reply to a request that carries a
signature is a success only if the signature was verified under the required key, and has the same
flag as its response, exactly if the request is not one of those refused under the guise of a
success. -/
theorem authentic_iff (h : Reachable codec verifyDetached c)
    (hsig : call.carriesSignature = true)
    (hans : c.answered t = some (.request call, reply)) :
    reply.Authentic codec (past t c.trace) call ↔
      ¬ call.Masked verifyDetached (past t c.trace) := by
  by_cases hpoll : ∃ req, call = .fetchMessages req
  · obtain ⟨req, rfl⟩ := hpoll
    exact fetchMessages_authentic_iff h hans
  by_cases hrelay : ∃ req, call = .relayFetch req
  · obtain ⟨req, rfl⟩ := hrelay
    exact fetchRelay_authentic_iff h hans
  refine iff_of_true (authentic_of_refuses h hans hsig (fun req hreq ↦ hpoll ⟨req, hreq⟩)
    fun req hreq ↦ hrelay ⟨req, hreq⟩) fun hmask ↦ ?_
  cases call with
  | fetchMessages req => exact hpoll ⟨req, rfl⟩
  | relayFetch req => exact hrelay ⟨req, rfl⟩
  | _ => exact hmask

/-! ## Masked refusals -/

theorem not_vouched_of_none (h : (past'.any fun e ↦ (verifiedBytes e).isSome) = false) :
    ¬ call.Vouched codec past' := by
  rintro ⟨key, message, signature, -, hv⟩
  rw [List.any_eq_false] at h
  exact h _ hv rfl

namespace Sample

/-- A poll of user `i`, with one signature for everybody. -/
def pollOf (i : UInt8) : FetchMessagesRequest := ⟨word i, 0, 0, 7, signature⟩

def deviceFetch : RelayFetchRequest := ⟨key 4, 0, 0, 0, signature⟩

def userAck : MessageAck := ⟨[9], word 1, 7, signature⟩

/-- User 1 has signed its poll and its acknowledgement. -/
def maskedSigned : List (Bytes × Bytes) :=
  [(key 1, (pollOf 1).signedData), (key 1, userAck.signedData)]

/-- Users 1 and 2 have accounts.  User 1 polls, somebody polls for user 2 and for user 3, somebody
fetches from the mailbox of a device, and user 1 acknowledges a message. -/
def maskedRun : Moves :=
  registers 0 1 ++ registers 1 2 ++
  .spawn (.request (.fetchMessages (pollOf 1))) :: steps 2 6 ++
  .spawn (.request (.fetchMessages (pollOf 2))) :: steps 3 2 ++
  .spawn (.request (.fetchMessages (pollOf 3))) :: steps 4 1 ++
  .spawn (.request (.relayFetch deviceFetch)) :: steps 5 2 ++
  .spawn (.request (.ackMessage userAck)) :: steps 6 3

/-- The answer to a poll of an empty mailbox. -/
def emptyMailbox : Reply := ⟨true, .fetchMessages {}, ""⟩

/-- The answer to a relay fetch whose signature is not valid. -/
def maskedRefusal : Reply :=
  ⟨true, .relayFetch { success := false, errorMessage := "Signature invalide" }, ""⟩

end Sample

open Sample in
/-- The polls for user 2, whose signature is not valid, and for user 3, who has no account, are
answered as that of user 1, whose mailbox is empty; the dispatcher calls a refused relay fetch a
success. -/
theorem refusals_masked : ∃ c : State, final maskedSigned maskedRun = some c ∧
    c.answered 2 = some (.request (.fetchMessages (pollOf 1)), emptyMailbox) ∧
    c.answered 3 = some (.request (.fetchMessages (pollOf 2)), emptyMailbox) ∧
    c.answered 4 = some (.request (.fetchMessages (pollOf 3)), emptyMailbox) ∧
    c.answered 5 = some (.request (.relayFetch deviceFetch), maskedRefusal) ∧
    ¬ emptyMailbox.Authentic Sample.codec (past 3 c.trace) (.fetchMessages (pollOf 2)) ∧
    ¬ emptyMailbox.Authentic Sample.codec (past 4 c.trace) (.fetchMessages (pollOf 3)) ∧
    ¬ maskedRefusal.Authentic Sample.codec (past 5 c.trace) (.relayFetch deviceFetch) := by
  have h₂ : ((final maskedSigned maskedRun).bind fun c ↦ c.answered 2) =
      some (.request (.fetchMessages (pollOf 1)), emptyMailbox) := by decide +kernel
  have h₃ : ((final maskedSigned maskedRun).bind fun c ↦ c.answered 3) =
      some (.request (.fetchMessages (pollOf 2)), emptyMailbox) := by decide +kernel
  have h₄ : ((final maskedSigned maskedRun).bind fun c ↦ c.answered 4) =
      some (.request (.fetchMessages (pollOf 3)), emptyMailbox) := by decide +kernel
  have h₅ : ((final maskedSigned maskedRun).bind fun c ↦ c.answered 5) =
      some (.request (.relayFetch deviceFetch), maskedRefusal) := by decide +kernel
  have hpasts : ((final maskedSigned maskedRun).map fun c ↦
      ((past 3 c.trace).any fun e ↦ (verifiedBytes e).isSome,
        (past 4 c.trace).any fun e ↦ (verifiedBytes e).isSome)) = some (false, false) := by
    decide +kernel
  obtain ⟨c, hc, hpasts⟩ := Option.map_eq_some_iff.mp hpasts
  obtain ⟨hpast₃, hpast₄⟩ := Prod.mk.inj hpasts
  rw [hc] at h₂ h₃ h₄ h₅
  refine ⟨c, hc, h₂, h₃, h₄, h₅, fun hauth ↦ ?_, fun hauth ↦ ?_, fun hauth ↦ ?_⟩
  · exact not_vouched_of_none hpast₃ (hauth.vouched rfl)
  · exact not_vouched_of_none hpast₄ (hauth.vouched rfl)
  · exact nomatch hauth.flag rfl

open Sample in
/-- The acknowledgement is a success that stands for the signature of user 1, the relay fetch is
not. -/
theorem authentic_iff_maskedRun : ∃ c : State, final maskedSigned maskedRun = some c ∧
    (⟨true, .empty, ""⟩ : Reply).Authentic Sample.codec (past 6 c.trace) (.ackMessage userAck) ∧
    ¬ maskedRefusal.Authentic Sample.codec (past 5 c.trace) (.relayFetch deviceFetch) := by
  have hview : ((final maskedSigned maskedRun).map fun c ↦ (c.answered 5, c.answered 6)) =
      some (some (.request (.relayFetch deviceFetch), maskedRefusal),
        some (.request (.ackMessage userAck), ⟨true, .empty, ""⟩)) := by decide +kernel
  obtain ⟨c, hc, hview⟩ := Option.map_eq_some_iff.mp hview
  obtain ⟨h₅, h₆⟩ := Prod.mk.inj hview
  have hreach : Reachable Sample.codec (Sample.verify maskedSigned) c := ⟨0, 0, _, hc⟩
  refine ⟨c, hc, (authentic_iff hreach rfl h₆).mpr id, fun hauth ↦ ?_⟩
  refine (authentic_iff hreach rfl h₅).mp hauth (.inr (.inr (.inr ?_)))
  decide +kernel

end ZenthDht
