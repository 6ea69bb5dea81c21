import ZenthDht.Safety.FriendGraph
import ZenthDht.Safety.Refused

/-!
# Nobody acts as a user without the user's key

A request that carries no signature of `u` leaves what `u` is and has said alone: the account, the
one-time pre-keys, the friend requests and responses of `u` and the messages `u` sent.  What it can
do to them is what other users may do with their own keys: consume a pre-key, and take rows away
that they are the other party of (`frame_of_unsigned`).

The argument goes through the statements.  Each one that writes such a row acts for the user of
the row (`Stmt.ActsFor`), the guards say that its request has been vouched for by that user's
key, and the key that was read is the key of the row, which nobody has changed.
-/

namespace ZenthDht

open Conc Stmt

variable {codec : Codec} {verifyDetached : Bytes → Bytes → Bytes → Bool}
variable {c c' d d' : State} {t : Nat} {u : Bytes} {call : Call} {s : Stmt} {past' : Past}

/-! ## The signatures of a request -/

/-- The byte strings the handler builds for the signature of a request, with that signature.  The
string of a LOGIN proof is built from the stored challenge it names. -/
def Call.signatures (codec : Codec) (db : Db) : Call → List (Bytes × Bytes)
  | .login req =>
    match req.proof with
    | some proof => (db.authChallenges.filter fun x ↦
        x.challengeId = proof.challengeId && x.userHashId = req.userHashId).map fun x ↦
          (proof.messageToVerify x.nonce req.userHashId, proof.proof)
    | none => []
  | .delete req => [(req.signedData, req.dilithiumSignature)]
  | .contact req => [(req.messageToVerify, req.dilithiumSignature)]
  | .lookupUser req =>
    [(lookupMessage req.requesterHash req.targetHash req.timestamp, req.dilithiumSignature)]
  | .fetchFriendRequests req | .fetchFriendResponses req | .fetchMyAccepted req =>
    [(req.signedData, req.dilithiumSignature)]
  | .respondFriendRequest req => [(req.messageToVerify, req.dilithiumSignature)]
  | .sendMessage env => [(env.signedData codec, env.dilithiumSignature)]
  | .fetchMessages req => [(req.signedData, req.dilithiumSignature)]
  | .ackMessage req => [(req.signedData, req.dilithiumSignature)]
  | .uploadPrekeys req => [(prekeyMessage req.usernameHash req.timestamp, req.authSignature)]
  | .replenishPrekeys req => [(prekeyMessage req.usernameHash req.timestamp, req.authSignature)]
  | .checkPrekeyCount req => [(prekeyMessage req.usernameHash req.timestamp, req.authSignature)]
  | .fetchPrekeyBundle req =>
    [(lookupMessage req.requesterHash req.targetHash req.timestamp, req.authSignature)]
  | .publishRecoveryKey req => [(req.signedData, req.authSignature)]
  | .recoveryClaim req => [(req.signedData, req.recoverySignature)]
  | .relayPush req => [(req.signedData, req.senderSignature)]
  | .relayFetch req => [(req.signedData, req.signature)]
  | .relayAck req => [(req.signedData, req.signature)]
  | .syncPushBlob req => [(req.signedData, req.authSignature)]
  | .syncFetchBlob req | .syncDeleteBlob req => [(req.signedData, req.signature)]
  | .register _ | .getUpdateManifest _ | .getUpdateChunk _ | .refused _ => []

/-- The key of the user that a request must be signed with: the identity key, or the recovery key
for RECOVERY_CLAIM. -/
def Call.actingKeys (row : User) : Call → List Bytes
  | .recoveryClaim _ => row.recoveryDilithiumPubkey.toList
  | _ => [row.identityKeyDilithium]

/-- The request carries a signature that is valid under the key of the user. -/
def Call.SignedBy (codec : Codec) (verifyDetached : Bytes → Bytes → Bytes → Bool) (db : Db)
    (row : User) (call : Call) : Prop :=
  ∃ key ∈ call.actingKeys row, ∃ p ∈ call.signatures codec db,
    verifyDilithiumSignature verifyDetached key p.1 p.2 = true

/-- The user a request that writes rows of a user claims to come from. -/
def Call.actor : Call → Option Bytes
  | .delete req => some req.userHashId
  | .contact req => some req.requesterHashId
  | .respondFriendRequest req => some req.responderHashId
  | .sendMessage env => some env.senderHashId
  | .ackMessage req => some req.recipientHashId
  | .uploadPrekeys req => some req.usernameHash
  | .replenishPrekeys req => some req.usernameHash
  | .fetchPrekeyBundle req => some req.requesterHash
  | .publishRecoveryKey req => some req.usernameHash
  | .recoveryClaim req => some req.usernameHash
  | _ => none

/-- A request that has been vouched for carries a signature that was verified under the key of
its user, as it was read. -/
theorem Call.Vouched.signature {row : User} (db : Db) (hv : call.Vouched codec past')
    (ha : call.actor = some u)
    (hread : ∀ x, Did past' (.sql (.selectUser u)) (.ok x) → x = row) :
    ∃ key ∈ call.actingKeys row, ∃ p ∈ call.signatures codec db,
      Did past' (.verify key p.1 p.2) true := by
  obtain ⟨key, message, signature, hs, hv⟩ := hv
  have hidentity (hk : IdentityKey past' u key) : key = row.identityKeyDilithium := by
    obtain ⟨x, hx, rfl⟩ := hk
    rw [hread x hx]
  have hrecovery (hk : RecoveryKey past' u key) : row.recoveryDilithiumPubkey = some key := by
    obtain ⟨x, hx, hkey, -⟩ := hk
    rw [← hread x hx, hkey]
  cases call with
  | sendMessage env =>
      obtain rfl := Option.some.inj ha
      obtain ⟨hk, rfl, rfl⟩ := hs
      exact ⟨key, List.mem_singleton.mpr (hidentity hk), _, List.mem_singleton.mpr rfl, hv⟩
  | ackMessage req | replenishPrekeys req =>
      obtain rfl := Option.some.inj ha
      obtain ⟨-, hk, rfl, rfl⟩ := hs
      exact ⟨key, List.mem_singleton.mpr (hidentity hk), _, List.mem_singleton.mpr rfl, hv⟩
  | delete req | uploadPrekeys req | fetchPrekeyBundle req =>
      obtain rfl := Option.some.inj ha
      obtain ⟨-, -, hk, rfl, rfl⟩ := hs
      exact ⟨key, List.mem_singleton.mpr (hidentity hk), _, List.mem_singleton.mpr rfl, hv⟩
  | contact req | respondFriendRequest req | publishRecoveryKey req =>
      obtain rfl := Option.some.inj ha
      obtain ⟨-, -, -, hk, rfl, rfl⟩ := hs
      exact ⟨key, List.mem_singleton.mpr (hidentity hk), _, List.mem_singleton.mpr rfl, hv⟩
  | recoveryClaim req =>
      obtain rfl := Option.some.inj ha
      obtain ⟨-, -, -, hk, rfl, rfl⟩ := hs
      exact ⟨key, by simp [Call.actingKeys, hrecovery hk], _, List.mem_singleton.mpr rfl, hv⟩
  | _ => exact nomatch ha

/-! ## Statements that act for a user -/

/-- The statement writes rows of the user `u`. -/
def Stmt.ActsFor (u : Bytes) : Stmt → Prop
  | .updateRecoveryKey v _ | .updateIdentity v _ _ _ | .deleteUser v | .deleteMessagesOf v
  | .deleteFriendRequestsOf v | .updateFriendRequest v _ _ _ _ _ => v = u
  | .insertPrekeys ps => ∃ p ∈ ps, p.userHashId = u
  | .insertFriendRequest n => n.requesterHashId = u
  | .insertFriendResponse n => n.responderHashId = u
  | .insertMessage n => n.senderHashId = u
  | _ => False

/-- Such a statement is executed for a request of that user which has been vouched for. -/
theorem Stmt.ActsFor.vouched (ha : s.ActsFor u) (hg : s.Guard codec (.request call) past') :
    call.actor = some u ∧ call.Vouched codec past' := by
  cases s with
  | updateRecoveryKey v k =>
      obtain rfl := ha
      obtain ⟨req, hjob, rfl, -, hv⟩ := hg
      obtain rfl := Job.request.inj hjob
      exact ⟨rfl, hv⟩
  | updateIdentity v k g b =>
      obtain rfl := ha
      obtain ⟨req, hjob, rfl, -, -, -, hv⟩ := hg
      obtain rfl := Job.request.inj hjob
      exact ⟨rfl, hv⟩
  | deleteUser v | deleteMessagesOf v | deleteFriendRequestsOf v =>
      obtain rfl := ha
      obtain ⟨req, hjob, rfl, hv⟩ := hg
      obtain rfl := Job.request.inj hjob
      exact ⟨rfl, hv⟩
  | updateFriendRequest v r b g m ts =>
      obtain rfl := ha
      obtain ⟨req, hjob, rfl, -, -, -, -, -, hv⟩ := hg
      obtain rfl := Job.request.inj hjob
      exact ⟨rfl, hv⟩
  | insertPrekeys ps =>
      obtain ⟨p, hp, rfl⟩ := ha
      rcases hg with ⟨req, hjob, rfl, hv⟩ | ⟨req, hjob, rfl, hv⟩
      all_goals
        obtain rfl := Job.request.inj hjob
        obtain ⟨pk, -, rfl⟩ := List.mem_map.mp hp
        exact ⟨rfl, hv⟩
  | insertFriendRequest n =>
      obtain rfl := ha
      obtain ⟨req, hjob, rfl, hv⟩ := hg
      obtain rfl := Job.request.inj hjob
      exact ⟨rfl, hv⟩
  | insertFriendResponse n =>
      obtain rfl := ha
      obtain ⟨req, fr, hjob, -, rfl, hv⟩ := hg
      obtain rfl := Job.request.inj hjob
      exact ⟨rfl, hv⟩
  | insertMessage n =>
      obtain rfl := ha
      obtain ⟨env, now, row, hjob, -, hsender, -, -, -, -, -, -, -, hv⟩ := hg
      obtain rfl := Job.request.inj hjob
      exact ⟨by rw [hsender]; rfl, hv⟩
  | _ => exact nomatch ha

/-! ## What others may do -/

theorem SignedByUser.mono {tr tr' : History} {message : Bytes} (h : SignedByUser tr t u message)
    (hsub : ∀ e ∈ tr, e ∈ tr') : SignedByUser tr' t u message := by
  obtain ⟨row, signature, hrow, hid, hv⟩ := h
  exact ⟨row, signature, hsub _ hrow, hid, hsub _ hv⟩

/-- The request is a DELETE of the account `v`, signed by `v`. -/
def DeletedBy (tr : History) (t : Nat) (call : Call) (v : Bytes) : Prop :=
  ∃ req, call = .delete req ∧ req.userHashId = v ∧ SignedByUser tr t v req.signedData

/-- The request is an acknowledgement of the message, signed by its recipient. -/
def AcknowledgedBy (tr : History) (t : Nat) (call : Call) (x : MessageModel) : Prop :=
  ∃ req, call = .ackMessage req ∧ req.messageId = x.messageId ∧
    req.recipientHashId = x.recipientHashId ∧
    SignedByUser tr t x.recipientHashId req.signedData

/-- The request is a FETCH_PREKEY_BUNDLE of another user for a bundle of `u`, signed by that
user. -/
def ConsumedBy (tr : History) (t : Nat) (call : Call) (u : Bytes) : Prop :=
  ∃ req, call = .fetchPrekeyBundle req ∧ req.targetHash = u ∧ req.requesterHash ≠ u ∧
    SignedByUser tr t req.requesterHash
      (lookupMessage req.requesterHash req.targetHash req.timestamp)

theorem DeletedBy.mono {tr tr' : History} {v : Bytes} (h : DeletedBy tr t call v)
    (hsub : ∀ e ∈ tr, e ∈ tr') : DeletedBy tr' t call v := by
  obtain ⟨req, hcall, hv, hsigned⟩ := h
  exact ⟨req, hcall, hv, hsigned.mono hsub⟩

theorem AcknowledgedBy.mono {tr tr' : History} {x : MessageModel}
    (h : AcknowledgedBy tr t call x) (hsub : ∀ e ∈ tr, e ∈ tr') : AcknowledgedBy tr' t call x := by
  obtain ⟨req, hcall, hid, hr, hsigned⟩ := h
  exact ⟨req, hcall, hid, hr, hsigned.mono hsub⟩

theorem ConsumedBy.mono {tr tr' : History} (h : ConsumedBy tr t call u)
    (hsub : ∀ e ∈ tr, e ∈ tr') : ConsumedBy tr' t call u := by
  obtain ⟨req, hcall, htarget, hne, hsigned⟩ := h
  exact ⟨req, hcall, htarget, hne, hsigned.mono hsub⟩

theorem deletedBy_of_vouched (h : Reachable codec verifyDetached d) {req : DeleteRequest}
    (hv : (Call.delete req).Vouched codec (past t d.trace)) :
    DeletedBy d.trace t (.delete req) req.userHashId := by
  obtain ⟨key, message, signature, ⟨-, -, hk, rfl, rfl⟩, hv⟩ := hv
  exact ⟨req, rfl, rfl, h.signedByUser hk hv⟩

/-! ## The frame -/

/-- What a request that thread `t` runs leaves of `u`'s: the account; the one-time pre-keys, of
which some may have become used; the friend requests and responses of `u` and the messages `u`
sent, except that the other party of a row may have taken it away. -/
structure Untouched (c c' : State) (t : Nat) (call : Call) (u : Bytes) : Prop where
  user : ∀ x : User, x.userHashId = u → (x ∈ c'.world.db.users ↔ x ∈ c.world.db.users)
  prekeys : ∀ x ∈ c'.world.db.oneTimePrekeys, x.userHashId = u →
    ∃ y ∈ c.world.db.oneTimePrekeys, x = y ∨ x = { y with used := true }
  prekeysKept : ∀ y ∈ c.world.db.oneTimePrekeys, y.userHashId = u →
    y ∈ c'.world.db.oneTimePrekeys ∨
      { y with used := true } ∈ c'.world.db.oneTimePrekeys ∧ ConsumedBy c'.trace t call u
  requests : ∀ x ∈ c'.world.db.friendRequests, x.requesterHashId = u →
    x ∈ c.world.db.friendRequests
  requestsKept : ∀ x ∈ c.world.db.friendRequests, x.requesterHashId = u →
    x ∈ c'.world.db.friendRequests ∨ DeletedBy c'.trace t call x.targetHashId
  responses : ∀ x ∈ c'.world.db.friendResponses, x.responderHashId = u →
    x ∈ c.world.db.friendResponses
  responsesKept : ∀ x ∈ c.world.db.friendResponses, x.responderHashId = u →
    x ∈ c'.world.db.friendResponses ∨ DeletedBy c'.trace t call x.requesterHashId
  messages : ∀ x ∈ c'.world.db.messages, x.senderHashId = u → x ∈ c.world.db.messages
  messagesKept : ∀ x ∈ c.world.db.messages, x.senderHashId = u →
    x ∈ c'.world.db.messages ∨ DeletedBy c'.trace t call x.recipientHashId ∨
      AcknowledgedBy c'.trace t call x

theorem Untouched.refl (c : State) (t : Nat) (call : Call) (u : Bytes) :
    Untouched c c t call u where
  user _ _ := Iff.rfl
  prekeys x hx _ := ⟨x, hx, .inl rfl⟩
  prekeysKept _ hx _ := .inl hx
  requests _ hx _ := hx
  requestsKept _ hx _ := .inl hx
  responses _ hx _ := hx
  responsesKept _ hx _ := .inl hx
  messages _ hx _ := hx
  messagesKept _ hx _ := .inl hx

/-- Nothing is touched where no row changes. -/
theorem Untouched.same (h : Untouched c d t call u) (hs : d.world.db.Same d'.world.db)
    (hsub : ∀ e ∈ d.trace, e ∈ d'.trace) : Untouched c d' t call u where
  user x hx := hs.users.mem_iff.symm.trans (h.user x hx)
  prekeys x hx := h.prekeys x (hs.oneTimePrekeys.mem_iff.mpr hx)
  prekeysKept y hy hu := (h.prekeysKept y hy hu).imp hs.oneTimePrekeys.mem_iff.mp
    fun ⟨hy, hc⟩ ↦ ⟨hs.oneTimePrekeys.mem_iff.mp hy, hc.mono hsub⟩
  requests x hx := h.requests x (hs.friendRequests.mem_iff.mpr hx)
  requestsKept x hx hu := (h.requestsKept x hx hu).imp hs.friendRequests.mem_iff.mp
    fun hd ↦ hd.mono hsub
  responses x hx := h.responses x (hs.friendResponses.mem_iff.mpr hx)
  responsesKept x hx hu := (h.responsesKept x hx hu).imp hs.friendResponses.mem_iff.mp
    fun hd ↦ hd.mono hsub
  messages x hx := h.messages x (hs.messages.mem_iff.mpr hx)
  messagesKept x hx hu := (h.messagesKept x hx hu).imp hs.messages.mem_iff.mp
    fun hd ↦ hd.imp (fun hd ↦ hd.mono hsub) fun ha ↦ ha.mono hsub

/-- The owner of a one-time pre-key does not change. -/
theorem keeps_prekeyOwner : Keeps Db.oneTimePrekeys (fun db ↦ db.seq.oneTimePrekeys)
    OneTimePrekey.id OneTimePrekey.userHashId where
  same h := ⟨h.oneTimePrekeys, by rw [h.seq]⟩
  row hx := by
    rcases mem_oneTimePrekeys_exec hx with ⟨hx, -⟩ | ⟨y, hy, -, rfl⟩ |
      ⟨ps, -, p, -, id, hid, rfl⟩
    · exact .inl ⟨_, hx, rfl, rfl⟩
    · exact .inl ⟨y, hy, rfl, rfl⟩
    · exact .inr hid
  le := seq_oneTimePrekeys_exec

section Step

variable (h : Reachable codec verifyDetached d) (he : Executes d t (.request call) s d')
variable (hno : call.actor = some u → ¬ call.Vouched codec (past t d.trace))

include h he

/-- The statements that delete rows of the account `v` belong to a DELETE signed by `v`. -/
theorem Executes.deletedBy {v : Bytes} (hs : s = .deleteFriendRequestsOf v ∨ s = .deleteUser v ∨
    s = .deleteMessagesOf v) : DeletedBy d.trace t call v := by
  have hguard := h.executes he
  rcases hs with rfl | rfl | rfl
  all_goals
    obtain ⟨req, hjob, rfl, hv⟩ := hguard
    obtain rfl := Job.request.inj hjob
    exact deletedBy_of_vouched h hv

/-- Marking a pre-key belongs to a FETCH_PREKEY_BUNDLE for its owner. -/
theorem Executes.consumes {x : OneTimePrekey} (hx : x ∈ d.world.db.oneTimePrekeys)
    (hs : s = .markPrekeyUsed x.id) : ∃ req, call = .fetchPrekeyBundle req ∧
      req.targetHash = x.userHashId ∧ call.Vouched codec (past t d.trace) := by
  subst hs
  obtain ⟨req, prekeyId, publicKey, hjob, hread, hv⟩ := h.executes he
  obtain rfl := Job.request.inj hjob
  obtain ⟨e, ms, he', hr, hrun⟩ := h.read (did_past.mp hread)
  obtain ⟨y, hy, hid, hu, -⟩ := selectUnusedPrekey_sound hr
  refine ⟨req, rfl, ?_, hv⟩
  rw [← hu]
  exact (keeps_prekeyOwner.run he'.keyed.oneTimePrekeys hrun hy hx hid.symm).symm

include hno

theorem Executes.not_actsFor : ¬ s.ActsFor u := by
  intro ha
  obtain ⟨hactor, hv⟩ := ha.vouched (h.executes he)
  exact hno hactor hv

theorem Executes.consumedBy {x : OneTimePrekey} (hx : x ∈ d.world.db.oneTimePrekeys)
    (hu : x.userHashId = u) (hs : s = .markPrekeyUsed x.id) : ConsumedBy d.trace t call u := by
  obtain ⟨req, rfl, htarget, hv⟩ := he.consumes h hx hs
  have hne : req.requesterHash ≠ u := by
    rintro rfl
    exact hno rfl hv
  obtain ⟨key, message, signature, ⟨-, -, hk, rfl, rfl⟩, hv⟩ := hv
  exact ⟨req, rfl, htarget.trans hu, hne, h.signedByUser hk hv⟩

/-- No response of `u` is updated. -/
theorem Executes.not_updates {x : FriendResponseModel} (hx : x ∈ d.world.db.friendResponses)
    (hu : x.responderHashId = u) {a : Bool} {b : Option Bytes} {g : Bytes} :
    s ≠ .updateFriendResponses x.requestId a b g := by
  rintro rfl
  obtain ⟨req, fr, hjob, hread, hid, -, -, -, hv⟩ := h.executes he
  obtain rfl := Job.request.inj hjob
  obtain ⟨y, hy, hyid, -, htarget⟩ := h.linked x hx
  obtain ⟨-, ht⟩ := h.parties_of_read (did_past.mp hread) hy (hyid.trans hid)
  refine hno ?_ hv
  rw [← hu, ← htarget, ht]
  rfl

/-- A response of `u` is deleted by the ids of requests for its other party only. -/
theorem Executes.deletesResponse {x : FriendResponseModel} (hx : x ∈ d.world.db.friendResponses)
    (hu : x.responderHashId = u) {ids : List Nat} (hs : s = .deleteFriendResponses ids)
    (hid : x.requestId ∈ ids) : DeletedBy d.trace t call x.requesterHashId := by
  subst hs
  obtain ⟨req, hjob, hread, hv⟩ := h.executes he
  obtain rfl := Job.request.inj hjob
  obtain ⟨y, hy, hyid, hrequester, htarget⟩ := h.linked x hx
  -- the request of the response was one of the account when the ids were loaded
  obtain ⟨e, ms, he', hr, hrun⟩ := h.read (did_past.mp hread)
  obtain rfl := Except.ok.inj hr
  obtain ⟨z, hz, hzid⟩ := List.mem_map.mp hid
  obtain ⟨hz, hinv⟩ := List.mem_filter.mp hz
  obtain ⟨hzr, hzt⟩ := friendRequest_parties he' hrun hz hy (hyid.trans hzid.symm)
  simp only [Bool.or_eq_true, decide_eq_true_eq, ← hzr, ← hzt, hrequester, htarget, hu] at hinv
  rcases hinv with hr | rfl
  · rw [hr]
    exact deletedBy_of_vouched h hv
  · exact absurd hv (hno rfl)

theorem Executes.users_iff (hrow : d.world.db.hasUser u = true) {x : User}
    (hx : x.userHashId = u) : x ∈ d'.world.db.users ↔ x ∈ d.world.db.users := by
  have hacts := he.not_actsFor h hno
  rw [he.db]
  constructor
  · intro hmem
    rcases mem_users_exec hmem with hold | ⟨n, rfl, hnew, rfl⟩ | ⟨y, -, k, rfl, rfl⟩ |
      ⟨y, -, k, g, b, rfl, rfl⟩
    · exact hold
    · obtain rfl := hx
      exact absurd hrow hnew
    · exact absurd hx hacts
    · exact absurd hx hacts
  · intro hmem
    rcases users_exec d.world.clock s hmem with hold | ⟨k, rfl, -⟩ | ⟨k, g, b, rfl, -⟩ | ⟨rfl, -⟩
    · exact hold
    · exact absurd hx hacts
    · exact absurd hx hacts
    · exact absurd hx hacts

theorem Executes.prekeys_of {x : OneTimePrekey} (hx : x ∈ d'.world.db.oneTimePrekeys)
    (hu : x.userHashId = u) : ∃ y ∈ d.world.db.oneTimePrekeys, y.userHashId = u ∧
      (x = y ∨ x = { y with used := true }) := by
  have hacts := he.not_actsFor h hno
  rw [he.db] at hx
  rcases mem_oneTimePrekeys_exec hx with ⟨hx, -⟩ | ⟨y, hy, -, rfl⟩ | ⟨ps, rfl, p, hp, id, -, rfl⟩
  · exact ⟨x, hx, hu, .inl rfl⟩
  · exact ⟨y, hy, hu, .inr rfl⟩
  · exact absurd ⟨p, hp, hu⟩ hacts

theorem Executes.prekeys_kept {y : OneTimePrekey} (hy : y ∈ d.world.db.oneTimePrekeys)
    (hu : y.userHashId = u) : y ∈ d'.world.db.oneTimePrekeys ∨
      { y with used := true } ∈ d'.world.db.oneTimePrekeys ∧ ConsumedBy d.trace t call u := by
  have hacts := he.not_actsFor h hno
  rw [he.db]
  rcases oneTimePrekeys_exec d.world.clock s hy with hstay | ⟨hs, hmark⟩ | rfl
  · exact .inl hstay
  · exact .inr ⟨hmark, he.consumedBy h hno hy hu hs⟩
  · exact absurd hu hacts

theorem Executes.requests_of {x : FriendRequestModel} (hx : x ∈ d'.world.db.friendRequests)
    (hu : x.requesterHashId = u) : x ∈ d.world.db.friendRequests := by
  have hacts := he.not_actsFor h hno
  rw [he.db] at hx
  rcases mem_friendRequests_exec hx with hold | ⟨n, rfl, rfl⟩ | ⟨y, hy, b, g, m, ts, rfl, rfl⟩
  · exact hold
  · exact absurd hu hacts
  · exact absurd hu hacts

theorem Executes.requests_kept {x : FriendRequestModel} (hx : x ∈ d.world.db.friendRequests)
    (hu : x.requesterHashId = u) :
    x ∈ d'.world.db.friendRequests ∨ DeletedBy d.trace t call x.targetHashId := by
  have hacts := he.not_actsFor h hno
  rw [he.db]
  rcases friendRequests_stay d.world.clock s hx with hstay | ⟨b, g, m, ts, rfl⟩ | ⟨v, hparty, hs⟩
  · exact .inl hstay
  · exact absurd hu hacts
  · rcases hparty with rfl | rfl
    · rcases hs with rfl | rfl
      · exact absurd hu hacts
      · exact absurd hu hacts
    · exact .inr (he.deletedBy h (hs.imp_right .inl))

theorem Executes.responses_of {x : FriendResponseModel} (hx : x ∈ d'.world.db.friendResponses)
    (hu : x.responderHashId = u) : x ∈ d.world.db.friendResponses := by
  have hacts := he.not_actsFor h hno
  rw [he.db] at hx
  rcases mem_friendResponses_exec hx with ⟨hold, -⟩ | ⟨n, id, rfl, rfl, -⟩ |
    ⟨y, hy, a, b, g, hs, rfl⟩
  · exact hold
  · exact absurd hu hacts
  · exact absurd hs (he.not_updates h hno hy hu)

theorem Executes.responses_kept {x : FriendResponseModel} (hx : x ∈ d.world.db.friendResponses)
    (hu : x.responderHashId = u) :
    x ∈ d'.world.db.friendResponses ∨ DeletedBy d.trace t call x.requesterHashId := by
  have hacts := he.not_actsFor h hno
  rw [he.db]
  rcases friendResponses_stay d.world.clock s hx with hstay | ⟨a, b, g, hs⟩ | ⟨ids, hs, hid⟩ |
    ⟨y, hy, hid, v, hparty, hs⟩
  · exact .inl hstay
  · exact absurd hs (he.not_updates h hno hx hu)
  · exact .inr (he.deletesResponse h hno hx hu hs hid)
  · -- the request is that of the response, so its parties are those of the response
    obtain ⟨z, hz, hzid, hr, ht⟩ := h.linked x hx
    obtain rfl := h.keyed.friendRequests.eq_of_key hz hy (hzid.trans hid.symm)
    rcases hparty with rfl | rfl
    · rw [hr] at hs
      exact .inr (he.deletedBy h (hs.imp_right .inl))
    · rcases hs with rfl | rfl
      · exact absurd (ht.trans hu) hacts
      · exact absurd (ht.trans hu) hacts

theorem Executes.messages_of {x : MessageModel} (hx : x ∈ d'.world.db.messages)
    (hu : x.senderHashId = u) : x ∈ d.world.db.messages := by
  have hacts := he.not_actsFor h hno
  rw [he.db] at hx
  rcases mem_messages_exec hx with hold | ⟨n, rfl, rfl⟩
  · exact hold
  · exact absurd hu hacts

theorem Executes.messages_kept {x : MessageModel} (hx : x ∈ d.world.db.messages)
    (hu : x.senderHashId = u) :
    x ∈ d'.world.db.messages ∨ DeletedBy d.trace t call x.recipientHashId ∨
      AcknowledgedBy d.trace t call x := by
  have hacts := he.not_actsFor h hno
  have hguard := h.executes he
  rw [he.db]
  rcases @messages_exec d.world.clock _ s x hx with hstay | rfl | rfl | hs | ⟨now, rfl, -⟩
  · exact .inl hstay
  · obtain ⟨req, hjob, hid, hr, key, message, signature, ⟨-, hk, rfl, rfl⟩, hv⟩ := hguard
    obtain rfl := Job.request.inj hjob
    refine .inr (.inr ⟨req, rfl, hid.symm, hr.symm, ?_⟩)
    rw [hr]
    exact h.signedByUser hk hv
  · exact absurd hu hacts
  · exact .inr (.inl (he.deletedBy h (.inr (.inr hs))))
  · obtain ⟨tick, now, hjob, -⟩ := hguard
    exact nomatch hjob

theorem Executes.untouched (hrow : c.world.db.hasUser u = true) (hI : Untouched c d t call u) :
    Untouched c d' t call u := by
  have hsub := he.subset
  have hrow' : d.world.db.hasUser u = true := by
    obtain ⟨x, hx, hu⟩ := hasUser_iff.mp hrow
    exact hasUser_iff.mpr ⟨x, (hI.user x hu).mpr hx, hu⟩
  constructor
  case user =>
    intro x hu
    exact (he.users_iff h hno hrow' hu).trans (hI.user x hu)
  case prekeys =>
    intro x hx hu
    obtain ⟨y, hy, hyu, hxy⟩ := he.prekeys_of h hno hx hu
    obtain ⟨z, hz, rfl | rfl⟩ := hI.prekeys y hy hyu
    · exact ⟨_, hz, hxy⟩
    · exact ⟨z, hz, .inr (hxy.elim id id)⟩
  case prekeysKept =>
    intro y hy hu
    rcases hI.prekeysKept y hy hu with hstay | ⟨hmark, hc⟩
    · exact (he.prekeys_kept h hno hstay hu).imp_right fun hm ↦ ⟨hm.1, hm.2.mono hsub⟩
    · rcases he.prekeys_kept h hno hmark hu with hm | hm
      · exact .inr ⟨hm, hc.mono hsub⟩
      · exact .inr ⟨hm.1, hc.mono hsub⟩
  case requests =>
    intro x hx hu
    exact hI.requests x (he.requests_of h hno hx hu) hu
  case requestsKept =>
    intro x hx hu
    rcases hI.requestsKept x hx hu with hstay | hd
    · exact (he.requests_kept h hno hstay hu).imp_right fun hd ↦ hd.mono hsub
    · exact .inr (hd.mono hsub)
  case responses =>
    intro x hx hu
    exact hI.responses x (he.responses_of h hno hx hu) hu
  case responsesKept =>
    intro x hx hu
    rcases hI.responsesKept x hx hu with hstay | hd
    · exact (he.responses_kept h hno hstay hu).imp_right fun hd ↦ hd.mono hsub
    · exact .inr (hd.mono hsub)
  case messages =>
    intro x hx hu
    exact hI.messages x (he.messages_of h hno hx hu) hu
  case messagesKept =>
    intro x hx hu
    rcases hI.messagesKept x hx hu with hstay | hd
    · refine (he.messages_kept h hno hstay hu).imp_right fun hd ↦ ?_
      exact hd.imp (fun hd ↦ hd.mono hsub) fun ha ↦ ha.mono hsub
    · exact .inr (hd.imp (fun hd ↦ hd.mono hsub) fun ha ↦ ha.mono hsub)

end Step

/-! ## Requests that are not signed by the user -/

/-- A request that reads the row of the user and is not signed by the user is not vouched for. -/
theorem not_vouched (h : Reachable codec verifyDetached d) {row : User} {db : Db}
    (hread : ∀ x, (t, ⟨.sql (.selectUser u), .ok x⟩) ∈ d.trace → x = row)
    (hunsigned : ¬ call.SignedBy codec verifyDetached db row) (ha : call.actor = some u) :
    ¬ call.Vouched codec (past t d.trace) := by
  intro hv
  obtain ⟨key, hkey, p, hp, hdid⟩ := hv.signature db ha fun x hx ↦ hread x (did_past.mp hx)
  exact hunsigned ⟨key, hkey, p, hp, h.verified (did_past.mp hdid)⟩

/-- **Nobody acts as a user without the user's key.**  From any reachable state, a request that
runs alone and carries no signature that is valid under the current key of the user leaves what is
the user's untouched; and a request none of whose signatures has been verified changes nothing,
except for REGISTER and the challenges of LOGIN. -/
theorem frame_of_unsigned {clock instant : Nat} {ms ms' : Moves} {row : User}
    (h : (server codec verifyDetached).run (.start (.initial clock instant)) ms = some c)
    (hrow : row ∈ c.world.db.users)
    (hrun : (server codec verifyDetached).run c (.spawn (.request call) :: ms') = some c')
    (halone : ∀ m ∈ ms', m.Alone c.pool.length) :
    (¬ call.SignedBy codec verifyDetached c.world.db row →
      Untouched c c' c.pool.length call row.userHashId) ∧
    (Unverified (past c.pool.length c'.trace) → call.Unauthenticated c c' c.pool.length) := by
  have hc : Reachable codec verifyDetached c := ⟨clock, instant, ms, h⟩
  refine ⟨fun hunsigned ↦ ?_, fun hno ↦ hc.refused hrun halone hno⟩
  have huser : c.world.db.hasUser row.userHashId = true := hasUser_iff.mpr ⟨row, hrow, rfl⟩
  refine (hc.alone (I := fun d ↦ Untouched c d c.pool.length call row.userHashId ∧
    ∀ x, (c.pool.length, ⟨.sql (.selectUser row.userHashId), .ok x⟩) ∈ d.trace → x = row)
    hrun halone ?_ ?_ ?_).1
  · intro d hworld htrace
    constructor
    · refine (Untouched.refl c c.pool.length call row.userHashId).same ?_ ?_
      · rw [hworld]
        exact .rfl
      · exact fun e he ↦ htrace ▸ he
    · intro x hmem
      rw [htrace, ← mem_past, hc.no_past] at hmem
      exact nomatch hmem
  · rintro d d' ⟨hI, hread⟩ hq
    exact ⟨hI.same hq.db hq.subset, fun x hx ↦ hread x (hq.result hx)⟩
  · rintro d d' s hd ⟨hI, hread⟩ he
    refine ⟨he.untouched hd (not_vouched hd hread hunsigned) huser hI, fun x hx ↦ ?_⟩
    rcases he.result hx with hx | ⟨rfl, -, hr⟩
    · exact hread x hx
    · -- the row that is read now is still the one of the user
      obtain ⟨hx, hu⟩ := selectUser_sound hr
      have hrow' := (hI.user row rfl).mpr hrow
      exact List.inj_on_of_nodup_map hd.keyed.users hx hrow' hu

namespace Sample

/-- User 2 signs the deletion of its account. -/
def leaveRequest : DeleteRequest := ⟨word 2, signature, 5⟩

def leaveSigned : List (Bytes × Bytes) := (key 2, leaveRequest.signedData) :: friendSigned

/-- User 2 deletes its account. -/
def leaveRun : Moves := .spawn (.request (.delete leaveRequest)) :: steps 5 11

end Sample

open Sample in
/-- User 2 deletes its account, with the request of user 1 to it: user 1 is untouched. -/
theorem frame_of_unsigned_leaveRun : ∃ c c' row, final leaveSigned friendRun = some c ∧
    (system leaveSigned).run c leaveRun = some c' ∧ row ∈ c.world.db.users ∧
    row.userHashId = word 1 ∧ c.world.db.friendRequests.length = 1 ∧
    c'.world.db.friendRequests = [] ∧ Untouched c c' 5 (.delete leaveRequest) (word 1) := by
  have hbefore : ((final leaveSigned friendRun).map fun c ↦
      (c.pool.length, c.world.db.users.head?, c.world.db.friendRequests.length)) =
      some (5, some ⟨word 1, [1], key 1, [1], [1], 0, 0, none⟩, 1) := by decide +kernel
  have hafter : ((final leaveSigned (friendRun ++ leaveRun)).map fun c ↦
      c.world.db.friendRequests) = some [] := by decide +kernel
  obtain ⟨c', hrun, hgone⟩ := Option.map_eq_some_iff.mp hafter
  obtain ⟨c, hc, hc'⟩ := Machine.run_append.mp hrun
  obtain ⟨d, hd, hview⟩ := Option.map_eq_some_iff.mp hbefore
  obtain rfl : d = c := Option.some.inj (hd.symm.trans hc)
  obtain ⟨hpool, hview⟩ := Prod.mk.inj hview
  obtain ⟨huser, hlen⟩ := Prod.mk.inj hview
  have hrow := List.mem_of_head? huser
  have halone : ∀ m ∈ steps 5 11, m.Alone d.pool.length := by
    intro m hm
    obtain rfl := List.eq_of_mem_replicate hm
    exact hpool.symm
  have hinvalid : verifyDilithiumSignature (Sample.verify leaveSigned) (key 1)
      leaveRequest.signedData leaveRequest.dilithiumSignature = false := by decide +kernel
  have hunsigned : ¬ (Call.delete leaveRequest).SignedBy Sample.codec (Sample.verify leaveSigned)
      d.world.db ⟨word 1, [1], key 1, [1], [1], 0, 0, none⟩ := by
    rintro ⟨k, hk, p, hp, hv⟩
    obtain rfl := List.mem_singleton.mp hk
    obtain rfl := List.mem_singleton.mp hp
    exact absurd hv (by simp [hinvalid])
  have hframe := (frame_of_unsigned hc hrow hc' halone).1 hunsigned
  rw [hpool] at hframe
  exact ⟨d, c', _, hc, hc', hrow, rfl, hlen, hgone, hframe⟩

end ZenthDht
