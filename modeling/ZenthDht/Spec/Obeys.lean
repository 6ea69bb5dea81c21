import ZenthDht.Spec.Guard

/-!
# Every job obeys the guard

One lemma per handler, each following the handler's own steps.  The section `Rules` has the
proof rules for the steps handlers are made of: a statement that may fail, a signature that
may be invalid, a timestamp that may be stale.
-/

namespace ZenthDht

open Conc

/-! ## Monotonicity -/

section Mono

variable {codec : Codec} {past past' : Past} {call : Call} {key message signature : Bytes}

theorem ReadFresh.mono {ts : UInt64} (h : ReadFresh past ts) (hsub : ∀ e ∈ past, e ∈ past') :
    ReadFresh past' ts := by
  obtain ⟨t, ht, hf⟩ := h
  exact ⟨t, ht.mono hsub, hf⟩

theorem IdentityKey.mono {u : Bytes} (h : IdentityKey past u key)
    (hsub : ∀ e ∈ past, e ∈ past') : IdentityKey past' u key := by
  obtain ⟨row, hrow, hk⟩ := h
  exact ⟨row, hrow.mono hsub, hk⟩

theorem RecoveryKey.mono {u : Bytes} (h : RecoveryKey past u key)
    (hsub : ∀ e ∈ past, e ∈ past') : RecoveryKey past' u key := by
  obtain ⟨row, hrow, hk⟩ := h
  exact ⟨row, hrow.mono hsub, hk⟩

theorem ProofRead.mono {req : LoginRequest} {row : User} {proof : AuthProof}
    {challenge : AuthChallenge} {now : Nat} (h : ProofRead past req row proof challenge now)
    (hsub : ∀ e ∈ past, e ∈ past') : ProofRead past' req row proof challenge now :=
  { h with
    userRow := h.userRow.mono hsub
    challengeRow := h.challengeRow.mono hsub
    clock := h.clock.mono hsub }

theorem Call.Submits.mono (h : call.Submits codec past key message signature)
    (hsub : ∀ e ∈ past, e ∈ past') : call.Submits codec past' key message signature := by
  have hfresh : ∀ ts, ReadFresh past ts → ReadFresh past' ts := fun ts hf ↦ hf.mono hsub
  have hident : ∀ u, IdentityKey past u key → IdentityKey past' u key := fun u hk ↦ hk.mono hsub
  cases call with
  | login req =>
      obtain ⟨row, proof, challenge, now, hread, hrest⟩ := h
      exact ⟨row, proof, challenge, now, hread.mono hsub, hrest⟩
  | recoveryClaim req =>
      obtain ⟨hlen, hne, hf, hk, hrest⟩ := h
      exact ⟨hlen, hne, hfresh _ hf, hk.mono hsub, hrest⟩
  | _ => simp only [Call.Submits] at h ⊢ <;> grind

theorem Call.Vouched.mono (h : call.Vouched codec past) (hsub : ∀ e ∈ past, e ∈ past') :
    call.Vouched codec past' := by
  obtain ⟨k, m, s, hs, hv⟩ := h
  exact ⟨k, m, s, hs.mono hsub, hv.mono hsub⟩

theorem Call.Vouched.append (h : call.Vouched codec past) (events : Past) :
    call.Vouched codec (past ++ events) := h.mono fun _ he ↦ List.mem_append_left _ he

theorem Call.Submits.vouched (h : call.Submits codec past key message signature) :
    call.Vouched codec (past ++ [⟨.verify key message signature, true⟩]) :=
  ⟨key, message, signature, h.mono fun _ he ↦ List.mem_append_left _ he, by simp [Did]⟩

end Mono

/-! ## Rules -/

section Rules

variable {guard : Past → Op → Prop} {α : Type} {post : Past → α → Prop} {past : Past}

theorem obeys_call {o : Op} {f : Res o → Handler α} (hg : guard past o)
    (h : ∀ r, (f r).Obeys guard post (past ++ [⟨o, r⟩])) :
    (Program.call o >>= f).Obeys guard post past := ⟨hg, h⟩

/-- A statement fails or succeeds. -/
theorem obeys_sql {s : Stmt} {f : Except DieselError s.Out → Handler α} (hg : guard past (.sql s))
    (herror : ∀ e, (f (.error e)).Obeys guard post (past ++ [⟨.sql s, .error e⟩]))
    (hok : ∀ a, (f (.ok a)).Obeys guard post (past ++ [⟨.sql s, .ok a⟩])) :
    (sql s >>= f).Obeys guard post past := by
  refine ⟨hg, fun r ↦ ?_⟩
  cases r with
  | error e => exact herror e
  | ok a => exact hok a

theorem obeys_utcNow {f : NaiveDateTime → Handler α} (hg : guard past .clock)
    (h : ∀ t : Nat, (f t).Obeys guard post (past ++ [⟨.clock, t⟩])) :
    (utcNow >>= f).Obeys guard post past := ⟨hg, h⟩

theorem obeys_currentMillis {f : Int64 → Handler α} (hg : guard past .clock)
    (h : ∀ t : Nat, (f (toMillis t)).Obeys guard post (past ++ [⟨.clock, t⟩])) :
    (currentMillis >>= f).Obeys guard post past := ⟨hg, h⟩

theorem obeys_currentTimestamp {f : UInt64 → Handler α} (hg : guard past .clock)
    (h : ∀ t : Nat, (f (toSecs t)).Obeys guard post (past ++ [⟨.clock, t⟩])) :
    (currentTimestamp >>= f).Obeys guard post past := ⟨hg, h⟩

/-- The check of a timestamp: the handler goes on only when it is fresh. -/
theorem obeys_fresh {ts : UInt64} {stale rest : Handler α} (hg : guard past .clock)
    (hstale : ∀ t, fresh t ts = false → stale.Obeys guard post (past ++ [⟨.clock, t⟩]))
    (hfresh : ∀ t, fresh t ts → rest.Obeys guard post (past ++ [⟨.clock, t⟩])) :
    (isTimestampFresh ts >>= fun b ↦ if !b then stale else rest).Obeys guard post past := by
  refine ⟨hg, fun t ↦ ?_⟩
  change Program.Obeys guard post _ (if !(fresh t ts) then stale else rest)
  cases ht : fresh t ts with
  | false => exact hstale t ht
  | true => exact hfresh t ht

/-- The check of a rate limiter. -/
theorem obeys_limiter {l : LimiterId} {key : Bytes} {refused rest : Handler α}
    (hg : guard past (.limiter l key))
    (hrefused : refused.Obeys guard post (past ++ [⟨.limiter l key, false⟩]))
    (hrest : rest.Obeys guard post (past ++ [⟨.limiter l key, true⟩])) :
    (Program.call (Op.limiter l key) >>= fun b ↦ if !b then refused else rest).Obeys
      guard post past := by
  refine ⟨hg, fun r ↦ ?_⟩
  cases r with
  | false => exact hrefused
  | true => exact hrest

end Rules

/-- The check of a signature: what the request submits is vouched for in the rest. -/
theorem obeys_verify {codec : Codec} {call : Call} {past : Past} {α : Type}
    {post : Past → α → Prop} {key message signature : Bytes} {invalid rest : Handler α}
    (hs : call.Submits codec past key message signature)
    (hinvalid : invalid.Obeys (Guard codec (.request call)) post
      (past ++ [⟨.verify key message signature, false⟩]))
    (hvalid : call.Vouched codec (past ++ [⟨.verify key message signature, true⟩]) →
      rest.Obeys (Guard codec (.request call)) post
        (past ++ [⟨.verify key message signature, true⟩])) :
    (verify key message signature >>= fun b ↦ if !b then invalid else rest).Obeys
      (Guard codec (.request call)) post past := by
  refine ⟨⟨call, rfl, hs⟩, fun r ↦ ?_⟩
  cases r with
  | false => exact hinvalid
  | true => exact hvalid hs.vouched

/-- A statement after the check of the signature, where nothing but that check matters. -/
theorem obeys_vouched {codec : Codec} {call : Call} {past : Past} {α : Type}
    {post : Past → α → Prop} {s : Stmt} {f : Except DieselError s.Out → Handler α}
    (hv : call.Vouched codec past) (hg : s.Guard codec (.request call) past)
    (h : ∀ r past, call.Vouched codec past → (f r).Obeys (Guard codec (.request call)) post past) :
    (sql s >>= f).Obeys (Guard codec (.request call)) post past :=
  ⟨hg, fun r ↦ h r _ (hv.append _)⟩

/-- The field check most handlers make of a user hash. -/
theorem length_of_check {b : Bytes} (h : ¬(decide (b = []) || decide (b.length ≠ 32)) = true) :
    b.length = 32 := by
  simp only [Bool.or_eq_true, decide_eq_true_eq, not_or, not_not] at h
  exact h.2

/-! ## Accounts -/

section Handlers

variable (codec : Codec)

/-- REGISTER reports success only after its row was inserted. -/
theorem register_obeys (req : RegistrationRequest) :
    (register req).Obeys (Guard codec (.request (.register req)))
      (fun past r ↦ ∀ resp, r = .ok resp → resp.success = true →
        ∃ n : Nat, Did past (.sql (.insertUser req.newUser)) (.ok n)) [] := by
  unfold register
  split
  · rintro _ ⟨⟩
  split
  · rintro _ ⟨⟩
  next hlen =>
  iterate 4
    split
    · rintro _ ⟨⟩
  refine obeys_sql ⟨rfl, req, rfl, rfl, Decidable.not_not.mp hlen⟩ (fun e ↦ ?_) fun n ↦ ?_
  · dsimp only
    split <;> rintro _ ⟨⟩ ⟨⟩
  · rintro _ ⟨⟩ -
    exact ⟨n, by simp [Did]⟩

theorem handleChallengeRequest_obeys (req : LoginRequest) (proofType : Int32) {past : Past}
    (row : User) (hc : req.requestChallenge = true) (hlen : req.userHashId.length = 32)
    (hrow : Did past (.sql (.selectUser req.userHashId)) (.ok row)) :
    (handleChallengeRequest req.userHashId proofType).Obeys (Guard codec (.request (.login req)))
      (fun _ _ ↦ True) past := by
  unfold handleChallengeRequest
  refine obeys_call trivial fun challengeId ↦ obeys_call trivial fun nonce ↦ ?_
  refine obeys_utcNow trivial fun now ↦ obeys_call (.inl ⟨req, rfl, hc, rfl⟩) fun _ ↦ ?_
  refine obeys_sql ?_ (fun e ↦ trivial) fun n ↦ obeys_currentTimestamp trivial fun t ↦ trivial
  exact ⟨req, row, now, rfl, hc, hlen, rfl, challengeId.2, nonce.2, by simp [did_append, hrow],
    by simp [Did], rfl⟩

theorem handleProofVerification_obeys (req : LoginRequest) {past : Past} {row : User}
    {proof : AuthProof} (hp : req.requestChallenge = false ∧ req.proof = some proof)
    (hlen : req.userHashId.length = 32)
    (hrow : Did past (.sql (.selectUser req.userHashId)) (.ok row)) :
    (handleProofVerification row proof).Obeys (Guard codec (.request (.login req)))
      (fun _ _ ↦ True) past := by
  unfold handleProofVerification
  refine obeys_sql ⟨req, proof, rfl, hp.2, rfl⟩ (fun e ↦ by cases e <;> trivial) fun challenge ↦ ?_
  refine obeys_utcNow trivial fun now ↦ ?_
  split
  · refine obeys_call ?_ fun _ ↦ trivial
    exact ⟨req, row, proof, challenge, rfl, hp.2, rfl, by simp [did_append, hrow], by simp [Did]⟩
  next hexp =>
  have hread : ProofRead (past ++ [⟨.sql (.selectChallenge proof.challengeId row.userHashId),
      .ok challenge⟩] ++ [⟨.clock, now⟩]) req row proof challenge now :=
    ⟨hlen, hp, by simp [did_append, hrow], by simp [Did], by simp [Did], not_lt.mp hexp⟩
  refine obeys_verify ⟨row, proof, challenge, now, hread, rfl, rfl, rfl⟩ trivial fun _ ↦ ?_
  refine obeys_call ?_ fun d ↦ obeys_call trivial fun token ↦ obeys_utcNow trivial fun _ ↦ ?_
  · exact ⟨req, row, proof, challenge, rfl, hp.2, rfl, by simp [did_append, hrow], by simp [Did]⟩
  refine obeys_sql (.inl ?_) (fun e ↦ trivial) fun _ ↦ trivial
  refine ⟨req, row, proof, challenge, now, rfl, ⟨hread.mono fun e he ↦ ?_, ?_, d, ?_⟩, rfl, rfl⟩
  · simp only [List.mem_append] at he ⊢
    tauto
  · simp [Did]
  · simp [Did]

theorem login_obeys (req : LoginRequest) :
    (login req).Obeys (Guard codec (.request (.login req))) (fun _ _ ↦ True) [] := by
  unfold login getRequiredVersion
  refine ⟨trivial, fun version ↦ ?_⟩
  change Program.Obeys _ _ _ (match (version.toOption.filter _) with | some _ => _ | none => _)
  split
  · trivial
  split
  · trivial
  split
  · trivial
  next hlen =>
  refine obeys_sql trivial (fun e ↦ by cases e <;> trivial) fun row ↦ ?_
  have hlen := Decidable.not_not.mp hlen
  dsimp only
  split
  next hc => exact handleChallengeRequest_obeys codec req _ row hc hlen (by simp [Did])
  next hc =>
  split
  next proof hp =>
    exact handleProofVerification_obeys codec req ⟨by simpa using hc, hp⟩ hlen (by simp [Did])
  · trivial

theorem deleteUserRows_obeys (req : DeleteRequest) {past : Past}
    (hv : (Call.delete req).Vouched codec past) :
    (deleteUserRows req.userHashId).Obeys (Guard codec (.request (.delete req)))
      (fun past _ ↦ (Call.delete req).Vouched codec past) past := by
  unfold deleteUserRows
  refine obeys_vouched hv ⟨req, rfl, rfl, hv⟩ fun r past hv ↦ ?_
  cases r with
  | error e => exact hv
  | ok n =>
  refine obeys_vouched hv ⟨req, rfl, rfl, hv⟩ fun r past hv ↦ ?_
  cases r with
  | error e => exact hv
  | ok n =>
  refine obeys_vouched hv ⟨req, rfl, rfl, hv⟩ fun r past hv ↦ ?_
  cases r with
  | error e => exact hv
  | ok n =>
  refine obeys_vouched hv (.inr ⟨req, rfl, rfl, hv⟩) fun r past hv ↦ ?_
  cases r with
  | error e => exact hv
  | ok n =>
  refine obeys_vouched hv ⟨req, rfl, rfl, hv⟩ fun r past hv ↦ ?_
  cases r with
  | error e => exact hv
  | ok n => exact hv

theorem deleteUserData_obeys (req : DeleteRequest) {past : Past}
    (hv : (Call.delete req).Vouched codec past) :
    (deleteUserData req.userHashId).Obeys (Guard codec (.request (.delete req)))
      (fun past _ ↦ (Call.delete req).Vouched codec past) past := by
  unfold deleteUserData
  refine obeys_sql trivial (fun e ↦ hv.append _) fun ids ↦ ?_
  dsimp only
  split
  · exact deleteUserRows_obeys codec req (hv.append _)
  refine obeys_vouched (hv.append _) ⟨req, rfl, by simp [Did], hv.append _⟩ fun r past hv ↦ ?_
  cases r with
  | error e => exact hv
  | ok n => exact deleteUserRows_obeys codec req hv

theorem deleteAccount_obeys (req : DeleteRequest) :
    (deleteAccount req).Obeys (Guard codec (.request (.delete req))) (fun _ _ ↦ True) [] := by
  unfold deleteAccount
  split
  · trivial
  next hlen =>
  split
  · trivial
  refine obeys_fresh trivial (fun _ _ ↦ trivial) fun t ht ↦ ?_
  refine obeys_sql trivial (fun e ↦ by cases e <;> trivial) fun user ↦ ?_
  refine obeys_verify ⟨length_of_check hlen, ⟨t, by simp [Did], ht⟩, ⟨user, by simp [Did], rfl⟩,
    rfl, rfl⟩ trivial fun hv ↦ ?_
  refine (deleteUserData_obeys codec req hv).bind fun past r hv ↦ ?_
  cases r with
  | error e => trivial
  | ok u => exact obeys_call (.inr ⟨req, rfl, rfl, hv⟩) fun _ ↦ trivial

theorem publishRecoveryKey_obeys (req : PublishRecoveryKeyRequest) :
    (publishRecoveryKey req).Obeys (Guard codec (.request (.publishRecoveryKey req)))
      (fun _ _ ↦ True) [] := by
  unfold publishRecoveryKey
  split
  · trivial
  next hlen =>
  split
  · trivial
  next hne =>
  split
  · trivial
  refine obeys_fresh trivial (fun _ _ ↦ trivial) fun t ht ↦ ?_
  refine obeys_sql trivial (fun e ↦ trivial) fun user ↦ ?_
  refine obeys_verify ⟨Decidable.not_not.mp hlen, hne, ⟨t, by simp [Did], ht⟩,
    ⟨user, by simp [Did], rfl⟩, rfl, rfl⟩ trivial fun hv ↦ ?_
  exact obeys_sql ⟨req, rfl, rfl, rfl, hv⟩ (fun e ↦ trivial) fun n ↦ trivial

theorem recoveryClaim_obeys (req : RecoveryClaimRequest) :
    (recoveryClaim req).Obeys (Guard codec (.request (.recoveryClaim req)))
      (fun _ _ ↦ True) [] := by
  unfold recoveryClaim
  split
  · trivial
  next hlen =>
  split
  · trivial
  next hne =>
  split
  · trivial
  refine obeys_fresh trivial (fun _ _ ↦ trivial) fun t ht ↦ ?_
  refine obeys_sql trivial (fun e ↦ trivial) fun user ↦ ?_
  dsimp only
  split
  · trivial
  next key hkey =>
  obtain ⟨hsome, hk⟩ := Option.filter_eq_some_iff.mp hkey
  refine obeys_verify ⟨Decidable.not_not.mp hlen, hne, ⟨t, by simp [Did], ht⟩,
    ⟨user, by simp [Did], hsome, by simpa using hk⟩, rfl, rfl⟩ trivial fun hv ↦ ?_
  refine obeys_vouched hv ⟨req, rfl, rfl, rfl, rfl, rfl, hv⟩ fun r past hv ↦ ?_
  cases r with
  | error e => trivial
  | ok n =>
  refine obeys_call trivial fun token ↦ obeys_utcNow trivial fun now ↦ ?_
  refine obeys_sql (.inr ⟨req, now, rfl, ?_, rfl, by simp [Did], rfl⟩) (fun e ↦ trivial)
    fun n ↦ trivial
  exact (hv.append _).append _

/-! ## Pre-keys -/

theorem uploadPrekeys_obeys (req : UploadPreKeysRequest) :
    (uploadPrekeys req).Obeys (Guard codec (.request (.uploadPrekeys req)))
      (fun _ _ ↦ True) [] := by
  unfold uploadPrekeys
  split
  · trivial
  next hlen =>
  split
  · trivial
  refine obeys_fresh trivial (fun _ _ ↦ trivial) fun t ht ↦ ?_
  split
  · trivial
  refine obeys_sql trivial (fun e ↦ by cases e <;> trivial) fun user ↦ ?_
  refine obeys_verify ⟨length_of_check hlen, ⟨t, by simp [Did], ht⟩, ⟨user, by simp [Did], rfl⟩,
    rfl, rfl⟩ trivial fun hv ↦ ?_
  exact obeys_sql (.inl ⟨req, rfl, rfl, hv⟩) (fun e ↦ trivial) fun n ↦ trivial

theorem replenishPrekeys_obeys (req : ReplenishPreKeysRequest) :
    (replenishPrekeys req).Obeys (Guard codec (.request (.replenishPrekeys req)))
      (fun _ _ ↦ True) [] := by
  unfold replenishPrekeys
  split
  · trivial
  next hlen =>
  split
  · trivial
  split
  · trivial
  refine obeys_sql trivial (fun e ↦ by cases e <;> trivial) fun user ↦ ?_
  refine obeys_verify ⟨length_of_check hlen, ⟨user, by simp [Did], rfl⟩, rfl, rfl⟩ trivial
    fun hv ↦ ?_
  refine obeys_sql (.inr ⟨req, rfl, rfl, hv⟩) (fun e ↦ trivial) fun n ↦ ?_
  exact obeys_sql trivial (fun e ↦ trivial) fun n ↦ trivial

theorem checkPrekeyCount_obeys (req : CheckPreKeyCountRequest) :
    (checkPrekeyCount codec req).Obeys (Guard codec (.request (.checkPrekeyCount req)))
      (fun _ _ ↦ True) [] := by
  unfold checkPrekeyCount
  split
  · trivial
  next hlen =>
  split
  · trivial
  refine obeys_sql trivial (fun e ↦ by cases e <;> trivial) fun user ↦ ?_
  refine obeys_verify ⟨length_of_check hlen, ⟨user, by simp [Did], rfl⟩, rfl, rfl⟩ trivial
    fun hv ↦ ?_
  exact obeys_sql trivial (fun e ↦ trivial) fun n ↦ trivial

/-- LOOKUP_USER answers with the bundle of a row it read for the target. -/
theorem lookupUser_obeys (req : LookupUserRequest) :
    (lookupUser codec req).Obeys (Guard codec (.request (.lookupUser req)))
      (fun past r ↦ ∀ resp bundle, r = .ok resp → resp.preKeyBundle = some bundle →
        ∃ row, Did past (.sql (.selectUser req.targetHash)) (.ok row) ∧
          codec.decodePreKeyBundle row.preKeyBundle = some bundle) [] := by
  unfold lookupUser
  split
  · simp
  next hr =>
  split
  · simp
  next ht =>
  split
  · simp
  refine obeys_sql trivial (fun e ↦ by cases e <;> simp) fun requester ↦ ?_
  refine obeys_verify ⟨length_of_check hr, length_of_check ht, ⟨requester, by simp [Did], rfl⟩,
    rfl, rfl⟩ (by simp) fun hv ↦ ?_
  refine obeys_sql trivial (fun e ↦ by cases e <;> rintro _ _ ⟨⟩ ⟨⟩) fun target ↦ ?_
  dsimp only
  split
  · simp
  next bundle hb =>
  rintro resp b ⟨⟩ ⟨⟩
  exact ⟨target, by simp [Did], hb⟩

/-- FETCH_PREKEY_BUNDLE answers with the bundle of a row it read for the target, with the
one-time pre-key of a row it selected and marked if there was one. -/
theorem fetchPrekeyBundle_obeys (req : FetchPreKeyBundleRequest) :
    (fetchPrekeyBundle codec req).Obeys (Guard codec (.request (.fetchPrekeyBundle req)))
      (fun past r ↦ ∀ resp bundle, r = .ok resp → resp.bundle = some bundle →
        ∃ row base, Did past (.sql (.selectUser req.targetHash)) (.ok row) ∧
          codec.decodePreKeyBundle row.preKeyBundle = some base ∧
          (bundle = base ∧
            Did past (.sql (.selectUnusedPrekey req.targetHash)) (.error .notFound) ∨
          ∃ (id : Nat) (prekeyId : Int32) (publicKey : Bytes) (n : Nat),
            Did past (.sql (.selectUnusedPrekey req.targetHash)) (.ok (id, prekeyId, publicKey)) ∧
            Did past (.sql (.markPrekeyUsed id)) (.ok n) ∧
            bundle = { base with preKeyId := prekeyId.toUInt32, preKeyPublic := publicKey })) [] := by
  unfold fetchPrekeyBundle
  split
  · rintro _ _ ⟨⟩ ⟨⟩
  next hr =>
  split
  · rintro _ _ ⟨⟩ ⟨⟩
  next ht =>
  split
  · rintro _ _ ⟨⟩ ⟨⟩
  refine obeys_sql trivial (fun e ↦ by cases e <;> rintro _ _ ⟨⟩ ⟨⟩) fun requester ↦ ?_
  refine obeys_verify ⟨length_of_check hr, length_of_check ht, ⟨requester, by simp [Did], rfl⟩,
    rfl, rfl⟩ (by rintro _ _ ⟨⟩ ⟨⟩) fun hv ↦ ?_
  refine obeys_sql trivial (fun e ↦ by cases e <;> rintro _ _ ⟨⟩ ⟨⟩) fun target ↦ ?_
  dsimp only
  split
  · rintro _ _ ⟨⟩ ⟨⟩
  next base hb =>
  refine obeys_sql ⟨by simp [Did], req, rfl, rfl, hv.append _⟩ (fun e ↦ ?_) fun row ↦ ?_
  · cases e with
    | notFound =>
        rintro _ _ ⟨⟩ ⟨⟩
        exact ⟨target, base, by simp [Did], hb, .inl ⟨rfl, by simp [Did]⟩⟩
    | _ => rintro _ _ ⟨⟩ ⟨⟩
  · obtain ⟨id, prekeyId, publicKey⟩ := row
    refine obeys_sql ⟨req, prekeyId, publicKey, rfl, by simp [Did], (hv.append _).append _⟩
      (fun e ↦ by rintro _ _ ⟨⟩ ⟨⟩) fun n ↦ ?_
    rintro _ _ ⟨⟩ ⟨⟩
    exact ⟨target, base, by simp [Did], hb,
      .inr ⟨id, prekeyId, publicKey, n, by simp [Did], by simp [Did], rfl⟩⟩

/-! ## Friends -/

theorem storeFriendRequest_obeys (req : FriendRequest) {past : Past}
    (hv : (Call.contact req).Vouched codec past) :
    (storeFriendRequest req).Obeys (Guard codec (.request (.contact req)))
      (fun _ _ ↦ True) past := by
  unfold storeFriendRequest
  refine obeys_call trivial fun existing ↦ ?_
  split
  · exact obeys_sql ⟨req, rfl, rfl, rfl, rfl, rfl, rfl, rfl, hv.append _⟩ (fun e ↦ trivial)
      fun n ↦ trivial
  · exact obeys_sql ⟨req, rfl, rfl, hv.append _⟩ (fun e ↦ trivial)
      fun n ↦ ⟨trivial, fun _ ↦ trivial⟩

theorem contact_obeys (req : FriendRequest) :
    (contact req).Obeys (Guard codec (.request (.contact req))) (fun _ _ ↦ True) [] := by
  unfold contact
  iterate 2
    split
    · trivial
  split
  · trivial
  next hr =>
  split
  · trivial
  next ht =>
  iterate 2
    split
    · trivial
  split
  · trivial
  next hb =>
  refine obeys_sql trivial (fun e ↦ by cases e <;> trivial) fun requester ↦ ?_
  refine obeys_sql trivial (fun e ↦ by cases e <;> trivial) fun target ↦ ?_
  refine obeys_verify ⟨Decidable.not_not.mp hr, Decidable.not_not.mp ht, hb,
    ⟨requester, by simp [Did], rfl⟩, rfl, rfl⟩ trivial fun hv ↦ ?_
  exact storeFriendRequest_obeys codec req hv

theorem storeFriendResponse_obeys (req : FriendResponse) (fr : FriendRequestModel) {past : Past}
    (hfr : Did past (.sql (.selectFriendRequest req.requesterHashId req.responderHashId)) (.ok fr))
    (hv : (Call.respondFriendRequest req).Vouched codec past) :
    (storeFriendResponse req fr.id).Obeys (Guard codec (.request (.respondFriendRequest req)))
      (fun _ _ ↦ True) past := by
  unfold storeFriendResponse
  refine obeys_call trivial fun existing ↦ ?_
  split
  · refine obeys_sql ⟨req, fr, rfl, ?_, rfl, rfl, rfl, rfl, hv.append _⟩ (fun e ↦ trivial)
      fun n ↦ trivial
    simp [did_append, hfr]
  · refine obeys_sql ⟨req, fr, rfl, ?_, rfl, hv.append _⟩ (fun e ↦ trivial)
      fun n ↦ ⟨trivial, fun _ ↦ trivial⟩
    simp [did_append, hfr]

theorem respondFriendRequest_obeys (req : FriendResponse) :
    (respondFriendRequest req).Obeys (Guard codec (.request (.respondFriendRequest req)))
      (fun _ _ ↦ True) [] := by
  unfold respondFriendRequest
  iterate 2
    split
    · trivial
  split
  · trivial
  next hresponder =>
  split
  · trivial
  next hrequester =>
  split
  · trivial
  split
  · trivial
  next hb =>
  refine obeys_sql trivial (fun e ↦ by cases e <;> trivial) fun responder ↦ ?_
  refine obeys_verify ⟨Decidable.not_not.mp hresponder, Decidable.not_not.mp hrequester,
    by simpa using hb, ⟨responder, by simp [Did], rfl⟩, rfl, rfl⟩ trivial fun hv ↦ ?_
  refine obeys_sql trivial (fun e ↦ by cases e <;> trivial) fun fr ↦ ?_
  exact storeFriendResponse_obeys codec req fr (by simp [Did]) (hv.append _)

theorem fetchFriendRequests_obeys (req : FetchFriendsRequest) :
    (fetchFriendRequests req).Obeys (Guard codec (.request (.fetchFriendRequests req)))
      (fun past r ↦ ∀ resp, r = .ok resp →
        ∃ since rows, Did past (.sql (.loadFriendRequests req.userHash since)) (.ok rows) ∧
          resp.requests = rows.map FriendRequestModel.dto) [] := by
  unfold fetchFriendRequests
  split
  · rintro _ ⟨⟩
  split
  · rintro _ ⟨⟩
  next hlen =>
  split
  · rintro _ ⟨⟩
  refine obeys_sql trivial (fun e ↦ by cases e <;> rintro _ ⟨⟩) fun user ↦ ?_
  refine obeys_verify ⟨Decidable.not_not.mp hlen, ⟨user, by simp [Did], rfl⟩, rfl, rfl⟩
    (by rintro _ ⟨⟩) fun hv ↦ ?_
  refine obeys_sql trivial (fun e ↦ by rintro _ ⟨⟩) fun rows ↦ ?_
  refine obeys_currentTimestamp trivial fun t ↦ ?_
  rintro _ ⟨⟩
  exact ⟨_, rows, by simp [Did], rfl⟩

theorem fetchFriendResponses_obeys (req : FetchFriendsRequest) :
    (fetchFriendResponses req).Obeys (Guard codec (.request (.fetchFriendResponses req)))
      (fun past r ↦ ∀ resp, r = .ok resp →
        ∃ since rows, Did past (.sql (.loadFriendResponses req.userHash since)) (.ok rows) ∧
          resp.responses = rows.map FriendResponseModel.dto) [] := by
  unfold fetchFriendResponses
  split
  · rintro _ ⟨⟩
  next hlen =>
  split
  · rintro _ ⟨⟩
  refine obeys_sql trivial (fun e ↦ by cases e <;> rintro _ ⟨⟩) fun user ↦ ?_
  refine obeys_verify ⟨length_of_check hlen, ⟨user, by simp [Did], rfl⟩, rfl, rfl⟩
    (by rintro _ ⟨⟩) fun hv ↦ ?_
  refine obeys_sql trivial (fun e ↦ by rintro _ ⟨⟩) fun rows ↦ ?_
  refine obeys_currentTimestamp trivial fun t ↦ ?_
  rintro _ ⟨⟩
  exact ⟨_, rows, by simp [Did], rfl⟩

theorem fetchMyAccepted_obeys (req : FetchFriendsRequest) :
    (fetchMyAccepted req).Obeys (Guard codec (.request (.fetchMyAccepted req)))
      (fun past r ↦ ∀ resp, r = .ok resp →
        ∃ since rows, Did past (.sql (.loadAccepted req.userHash since)) (.ok rows) ∧
          resp.responses = rows.map (acceptedDto req.userHash)) [] := by
  unfold fetchMyAccepted
  split
  · rintro _ ⟨⟩
  next hlen =>
  split
  · rintro _ ⟨⟩
  refine obeys_sql trivial (fun e ↦ by cases e <;> rintro _ ⟨⟩) fun user ↦ ?_
  refine obeys_verify ⟨length_of_check hlen, ⟨user, by simp [Did], rfl⟩, rfl, rfl⟩
    (by rintro _ ⟨⟩) fun hv ↦ ?_
  refine obeys_sql trivial (fun e ↦ by rintro _ ⟨⟩) fun rows ↦ ?_
  refine obeys_currentTimestamp trivial fun t ↦ ?_
  rintro _ ⟨⟩
  exact ⟨_, rows, by simp [Did], rfl⟩

/-! ## Messages -/

theorem withinLimit_obeys (job : Job) (l : LimiterId) (threshold : Nat) (sender : Bytes)
    (size : Nat) {past : Past} :
    (withinLimit l threshold sender size).Obeys (Guard codec job) (fun _ _ ↦ True) past := by
  unfold withinLimit
  split
  · exact ⟨trivial, fun _ ↦ trivial⟩
  · trivial

theorem checkSize_obeys (env : ZenthSignalEnvelope) (sender : Bytes) (size : Nat) {past : Past} :
    (checkSize sender size).Obeys (Guard codec (.request (.sendMessage env)))
      (fun _ _ ↦ True) past := by
  unfold checkSize
  split
  · trivial
  refine (withinLimit_obeys codec _ _ _ _ _).bind fun past large _ ↦ ?_
  split
  · trivial
  refine (withinLimit_obeys codec _ _ _ _ _).bind fun past mid _ ↦ ?_
  split <;> trivial

theorem expiryOf_obeys (env : ZenthSignalEnvelope) {past : Past} :
    (expiryOf env.sequenceNumber).Obeys (Guard codec (.request (.sendMessage env)))
      (fun _ _ ↦ True) past := by
  unfold expiryOf
  split
  · trivial
  refine obeys_utcNow trivial fun now ↦ ?_
  split
  · trivial
  · exact ⟨trivial, fun r ↦ nomatch r⟩

theorem storeMessage_obeys (env : ZenthSignalEnvelope) {past : Past} (now : Nat) (row : User)
    (hnow : Did past .clock now) (hrow : Did past (.sql (.selectUser env.recipientHashId)) (.ok row))
    (hv : (Call.sendMessage env).Vouched codec past) :
    (storeMessage codec env (toMillis now)).Obeys (Guard codec (.request (.sendMessage env)))
      (fun _ _ ↦ True) past := by
  unfold storeMessage
  refine (checkSize_obeys codec env _ _).grows.bind fun past₁ refusal h₁ ↦ ?_
  cases refusal with
  | some message => trivial
  | none =>
  refine (expiryOf_obeys codec env).grows.bind fun past₂ expiresAt h₂ ↦ ?_
  have hsub : ∀ e ∈ past, e ∈ past₂ := fun e he ↦ h₂.2 e (h₁.2 e he)
  refine obeys_sql ⟨env, now, row, rfl, rfl, rfl, rfl, rfl, rfl, rfl, hnow.mono hsub, rfl,
    hrow.mono hsub, hv.mono hsub⟩ (fun e ↦ trivial) fun n ↦ ?_
  exact ⟨trivial, fun _ ↦ ⟨trivial, fun _ ↦ trivial⟩⟩

theorem sendMessage_obeys (env : ZenthSignalEnvelope) :
    (sendMessage codec env).Obeys (Guard codec (.request (.sendMessage env)))
      (fun _ _ ↦ True) [] := by
  unfold sendMessage
  refine obeys_sql trivial (fun e ↦ by cases e <;> trivial) fun sender ↦ ?_
  refine obeys_verify ⟨⟨sender, by simp [Did], rfl⟩, rfl, rfl⟩ trivial fun hv ↦ ?_
  refine obeys_sql trivial (fun e ↦ by cases e <;> trivial) fun recipient ↦ ?_
  refine obeys_currentMillis trivial fun now ↦ ?_
  exact storeMessage_obeys codec env now recipient (by simp [Did]) (by simp [Did])
    ((hv.append _).append _)

theorem fetchMessages_obeys (req : FetchMessagesRequest) :
    (fetchMessages codec req).Obeys (Guard codec (.request (.fetchMessages req)))
      (fun _ _ ↦ True) [] := by
  unfold fetchMessages
  refine obeys_sql trivial (fun e ↦ by cases e <;> trivial) fun user ↦ ?_
  refine obeys_verify ⟨⟨user, by simp [Did], rfl⟩, rfl, rfl⟩ trivial fun hv ↦ ?_
  refine obeys_utcNow trivial fun now ↦ ?_
  refine obeys_sql trivial (fun e ↦ trivial) fun total ↦ ?_
  refine obeys_sql trivial (fun e ↦ trivial) fun rows ↦ ?_
  exact obeys_currentMillis trivial fun t ↦ trivial

theorem ackMessage_obeys (req : MessageAck) :
    (ackMessage req).Obeys (Guard codec (.request (.ackMessage req))) (fun _ _ ↦ True) [] := by
  unfold ackMessage
  split
  · trivial
  next hid =>
  split
  · trivial
  simp only [Bool.or_eq_true, decide_eq_true_eq, not_or] at hid
  refine obeys_sql trivial (fun e ↦ by cases e <;> trivial) fun user ↦ ?_
  refine obeys_verify ⟨hid.1, ⟨user, by simp [Did], rfl⟩, rfl, rfl⟩ trivial fun hv ↦ ?_
  exact obeys_sql ⟨req, rfl, rfl, rfl, hv⟩ (fun e ↦ trivial) fun n ↦ trivial

/-! ## Devices -/

theorem pushRelay_obeys (req : RelayPushRequest) :
    (pushRelay req).Obeys (Guard codec (.request (.relayPush req))) (fun _ _ ↦ True) [] := by
  unfold pushRelay
  split
  · trivial
  next hd =>
  iterate 2
    split
    · trivial
  refine obeys_fresh trivial (fun _ _ ↦ trivial) fun t ht ↦ ?_
  refine obeys_limiter trivial trivial ?_
  refine obeys_verify ⟨hd, ⟨t, by simp [Did], ht⟩, rfl, rfl, rfl⟩ trivial fun hv ↦ ?_
  refine obeys_utcNow trivial fun now ↦ ?_
  exact obeys_sql ⟨req, now, rfl, by simp [Did], rfl, hv.append _⟩ (fun e ↦ trivial)
    fun n ↦ trivial

theorem fetchRelay_obeys (req : RelayFetchRequest) :
    (fetchRelay req).Obeys (Guard codec (.request (.relayFetch req))) (fun _ _ ↦ True) [] := by
  unfold fetchRelay
  iterate 2
    split
    · trivial
  refine obeys_fresh trivial (fun _ _ ↦ trivial) fun t ht ↦ ?_
  refine obeys_verify ⟨⟨t, by simp [Did], ht⟩, rfl, rfl, rfl⟩ trivial fun hv ↦ ?_
  refine obeys_utcNow trivial fun now ↦ ?_
  exact obeys_sql trivial (fun e ↦ trivial) fun rows ↦ trivial

theorem ackRelay_obeys (req : RelayAckRequest) :
    (ackRelay req).Obeys (Guard codec (.request (.relayAck req))) (fun _ _ ↦ True) [] := by
  unfold ackRelay
  iterate 2
    split
    · trivial
  refine obeys_fresh trivial (fun _ _ ↦ trivial) fun t ht ↦ ?_
  refine obeys_verify ⟨⟨t, by simp [Did], ht⟩, rfl, rfl, rfl⟩ trivial fun hv ↦ ?_
  exact obeys_sql ⟨req, rfl, rfl, rfl, hv⟩ (fun e ↦ trivial) fun n ↦ trivial

theorem pushBlob_obeys (req : SyncPushBlobRequest) :
    (pushBlob req).Obeys (Guard codec (.request (.syncPushBlob req))) (fun _ _ ↦ True) [] := by
  unfold pushBlob
  split
  · trivial
  next hd =>
  split
  · trivial
  next hc =>
  split
  · trivial
  refine obeys_fresh trivial (fun _ _ ↦ trivial) fun t ht ↦ ?_
  refine obeys_limiter trivial trivial ?_
  refine obeys_verify ⟨hd, hc, ⟨t, by simp [Did], ht⟩, rfl, rfl, rfl⟩ trivial fun hv ↦ ?_
  refine obeys_utcNow trivial fun now ↦ ?_
  exact obeys_sql ⟨req, now, rfl, by simp [Did], rfl, hv.append _⟩ (fun e ↦ trivial)
    fun n ↦ trivial

theorem fetchBlob_obeys (req : SyncBlobRequest) :
    (fetchBlob req).Obeys (Guard codec (.request (.syncFetchBlob req))) (fun _ _ ↦ True) [] := by
  unfold fetchBlob
  split
  · trivial
  next hd =>
  split
  · trivial
  refine obeys_fresh trivial (fun _ _ ↦ trivial) fun t ht ↦ ?_
  refine obeys_verify ⟨hd, ⟨t, by simp [Did], ht⟩, rfl, rfl, rfl⟩ trivial fun hv ↦ ?_
  refine obeys_utcNow trivial fun now ↦ ?_
  exact obeys_sql trivial (fun e ↦ by cases e <;> trivial) fun row ↦ trivial

theorem deleteBlob_obeys (req : SyncBlobRequest) :
    (deleteBlob req).Obeys (Guard codec (.request (.syncDeleteBlob req))) (fun _ _ ↦ True) [] := by
  unfold deleteBlob
  split
  · trivial
  next hd =>
  split
  · trivial
  refine obeys_fresh trivial (fun _ _ ↦ trivial) fun t ht ↦ ?_
  refine obeys_verify ⟨hd, ⟨t, by simp [Did], ht⟩, rfl, rfl, rfl⟩ trivial fun hv ↦ ?_
  exact obeys_sql ⟨req, rfl, rfl, hv⟩ (fun e ↦ trivial) fun n ↦ trivial

/-! ## Updates, WebSocket connections and the background task -/

theorem getUpdateManifest_obeys (req : UpdateManifestRequest) :
    (getUpdateManifest codec req).Obeys (Guard codec (.request (.getUpdateManifest req)))
      (fun _ _ ↦ True) [] := by
  unfold getUpdateManifest
  refine obeys_call trivial fun r ↦ ?_
  cases r with
  | error e => trivial
  | ok resp =>
  dsimp only
  split
  · trivial
  split
  · trivial
  split
  · trivial
  split <;> trivial

theorem getUpdateChunk_obeys (req : UpdateChunkRequest) :
    (getUpdateChunk req).Obeys (Guard codec (.request (.getUpdateChunk req)))
      (fun _ _ ↦ True) [] := by
  unfold getUpdateChunk
  refine obeys_call trivial fun r ↦ ?_
  cases r with
  | error e => trivial
  | ok resp =>
  dsimp only
  split
  · trivial
  split
  · trivial
  refine obeys_call trivial fun r ↦ ?_
  split <;> trivial

/-- What a connection does while its loop runs: it keeps its receiver. -/
def LoopGuard (rounds : Nat) (past : Past) (o : Op) : Prop :=
  Guard codec (.websocket rounds) past o ∧ ∀ rx, o ≠ .dropReceiver rx

/-- The requests a connection answers itself perform none of the guarded operations. -/
theorem processWsRequest_obeys (rounds : Nat) (data u : Bytes) {past : Past} :
    (processWsRequest codec data u).Obeys (LoopGuard codec rounds) (fun _ _ ↦ True) past := by
  unfold processWsRequest
  split
  · trivial
  · unfold wsFileAvailable
    split
    · exact ⟨⟨trivial, nofun⟩, fun _ ↦ trivial⟩
    · trivial
  · unfold wsFileChunkRequest
    split
    · trivial
    split
    · trivial
    refine obeys_call ⟨trivial, nofun⟩ fun r ↦ ?_
    split
    · trivial
    · exact ⟨⟨trivial, nofun⟩, fun _ ↦ ⟨⟨trivial, nofun⟩, fun _ ↦ trivial⟩⟩
  · unfold wsFileChunk
    split
    · trivial
    split
    · trivial
    · exact ⟨⟨trivial, nofun⟩, fun _ ↦ ⟨⟨trivial, nofun⟩, fun _ ↦ trivial⟩⟩
  · unfold wsCheckOnline
    split
    · trivial
    · exact ⟨⟨trivial, nofun⟩, fun _ ↦ trivial⟩
  · trivial

theorem wsLoop_obeys (job : Nat) (u : Bytes) (rounds : Nat) {rx₀ rx : Receiver} {past : Past}
    (hreg : Did past (.register u) rx₀) (hch : rx.channel = rx₀.channel) :
    (wsLoop codec u rounds rx).Obeys (LoopGuard codec job) (fun _ _ ↦ True) past := by
  induction rounds generalizing rx past with
  | zero => exact ⟨⟨trivial, nofun⟩, fun r ↦ nomatch r⟩
  | succ rounds ih =>
      have hsend : ∀ (out : WsOutput) (rx : Receiver) (past : Past),
          Did past (.register u) rx₀ → rx.channel = rx₀.channel →
          ((Program.call (Op.socketSend out) : Handler Bool) >>= fun b ↦
            if b then wsLoop codec u rounds rx else pure ()).Obeys
            (LoopGuard codec job) (fun _ _ ↦ True) past := by
        intro out rx past hreg hch
        refine obeys_call ⟨trivial, nofun⟩ fun b ↦ ?_
        split
        · exact ih (did_append.mpr (.inl hreg)) hch
        · trivial
      unfold wsLoop
      refine obeys_call ⟨⟨⟨job, rfl⟩, u, rx₀, hreg, hch⟩, nofun⟩ fun input ↦ ?_
      have hreg : Did (past ++ [⟨.select rx, input⟩]) (.register u) rx₀ := did_append.mpr (.inl hreg)
      split
      · refine (processWsRequest_obeys codec job _ u).grows.bind fun past out hsub ↦ ?_
        exact hsend out rx past (hreg.mono hsub.2) hch
      · exact hsend _ _ _ hreg hch
      · trivial
      · trivial
      · trivial
      · exact ih hreg hch
      · exact hsend _ _ _ hreg hch
      · exact ih hreg hch
      · trivial

theorem authenticate_obeys (rounds : Nat) :
    authenticate.Obeys (Guard codec (.websocket rounds))
      (fun past r ↦ ∀ u, r = some u → Authenticated past u) [] := by
  unfold authenticate verifySessionToken
  refine obeys_call trivial fun frame ↦ ?_
  split
  next data =>
    split
    · rintro _ ⟨⟩
    next hlen =>
    have hlen := not_le.mp hlen
    have hu : (data.take userHashSize).length = userHashSize := by
      simp only [List.length_take]
      omega
    have htoken : data.drop userHashSize ≠ [] := by
      rw [← List.length_pos_iff, List.length_drop]
      omega
    refine (Program.obeys_bind _ _).mpr (obeys_sql trivial (fun e ↦ ?_) fun session ↦ ?_)
    · rintro _ ⟨⟩
    · refine obeys_utcNow trivial fun now ↦ ?_
      by_cases hnow : (now : Int) < session.sessionExpiry
      · simp only [hnow, decide_true, Program.pure_eq, Program.obeys_ret, if_true]
        rintro _ ⟨⟩
        exact ⟨data.drop userHashSize, session, now, by simp, hu, htoken, hnow⟩
      · simp [hnow]
  · rintro _ ⟨⟩

theorem handleWebsocket_obeys (rounds : Nat) :
    (handleWebsocket codec rounds).Obeys (Guard codec (.websocket rounds)) (fun _ _ ↦ True) [] := by
  unfold handleWebsocket
  refine (authenticate_obeys codec rounds).bind fun past r h ↦ ?_
  cases r with
  | none => trivial
  | some u =>
  refine obeys_call ⟨⟨rounds, rfl⟩, h u rfl⟩ fun rx ↦ ?_
  have hreg : Did (past ++ [⟨.register u, rx⟩]) (.register u) rx := by simp [Did]
  -- nothing but the last step of the handler drops the receiver
  have hnone : ∀ rx', ¬ Did (past ++ [⟨.register u, rx⟩]) (.dropReceiver rx') () := by
    obtain ⟨token, session, now, rfl, -⟩ := h u rfl
    simp [Did]
  have hloop := ((wsLoop_obeys codec rounds u rounds hreg rfl).only fun _ _ hg ↦ hg.2).grows
  refine (hloop.mono (fun _ _ hg ↦ hg.1) fun _ _ hp ↦ hp).bind fun past' _ hp ↦ ?_
  obtain ⟨⟨-, honly⟩, hsub⟩ := hp
  have hreg := hreg.mono hsub
  refine obeys_call (.inl ⟨rounds, rx, rfl, hreg⟩) fun _ ↦ obeys_call trivial fun _ ↦ ?_
  refine ⟨⟨⟨rounds, rfl⟩, ⟨u, ?_, by simp [Did]⟩, fun rx' hdrop ↦ ?_⟩, fun _ ↦ trivial⟩
  · exact hreg.mono (by simp +contextual)
  · simp only [Did, List.mem_append, List.mem_singleton, Sigma.mk.injEq, reduceCtorEq, false_and,
      or_false] at hdrop
    rcases honly _ hdrop with hold | hne
    · exact hnone rx' hold
    · exact hne rx' rfl

theorem cleanup_obeys (tick : Nat) :
    (cleanup tick).Obeys (Guard codec (.cleanup tick)) (fun _ _ ↦ True) [] := by
  unfold cleanup
  refine obeys_call trivial fun _ ↦ obeys_call trivial fun _ ↦ ?_
  split
  next htick =>
    refine obeys_utcNow trivial fun now ↦ ?_
    refine obeys_call ⟨tick, now, rfl, htick, by simp [Did], rfl⟩ fun _ ↦ ?_
    refine obeys_call ⟨tick, now, rfl, htick, by simp [Did], rfl⟩ fun _ ↦ ?_
    exact obeys_call ⟨tick, now, rfl, htick, by simp [Did], rfl⟩ fun _ ↦ trivial
  · trivial

/-! ## All jobs -/

/-- The postcondition of a job: that of its request, if it is one. -/
def Answer (past : Past) (reply : Option Reply) : Job → Prop
  | .request call => ∀ r, reply = some r → call.Answer codec past r
  | _ => True

theorem processCall_obeys (call : Call) :
    (processCall codec call).Obeys (Guard codec (.request call))
      (fun past r ↦ call.Answer codec past r) [] := by
  cases call with
  | register req =>
      refine (register_obeys codec req).bind fun past r h ↦ ?_
      cases r with
      | error e => rintro ⟨⟩
      | ok resp => exact h resp rfl
  | login req => exact (login_obeys codec req).bind fun _ _ _ ↦ trivial
  | delete req => exact (deleteAccount_obeys codec req).bind fun _ _ _ ↦ trivial
  | contact req => exact (contact_obeys codec req).bind fun _ _ _ ↦ trivial
  | lookupUser req =>
      refine (lookupUser_obeys codec req).bind fun past r h ↦ ?_
      cases r with
      | error e => rintro _ _ ⟨⟩
      | ok resp =>
          rintro _ bundle ⟨⟩ hb
          exact h resp bundle rfl hb
  | fetchFriendRequests req =>
      refine (fetchFriendRequests_obeys codec req).bind fun past r h ↦ ?_
      cases r with
      | error e => rintro _ ⟨⟩
      | ok resp =>
          rintro _ ⟨⟩
          exact h resp rfl
  | respondFriendRequest req => exact (respondFriendRequest_obeys codec req).bind fun _ _ _ ↦ trivial
  | sendMessage env => exact (sendMessage_obeys codec env).bind fun _ _ _ ↦ trivial
  | fetchMessages req => exact (fetchMessages_obeys codec req).bind fun _ _ _ ↦ trivial
  | fetchFriendResponses req =>
      refine (fetchFriendResponses_obeys codec req).bind fun past r h ↦ ?_
      cases r with
      | error e => rintro _ ⟨⟩
      | ok resp =>
          rintro _ ⟨⟩
          exact h resp rfl
  | uploadPrekeys req => exact (uploadPrekeys_obeys codec req).bind fun _ _ _ ↦ trivial
  | fetchPrekeyBundle req =>
      refine (fetchPrekeyBundle_obeys codec req).bind fun past r h ↦ ?_
      cases r with
      | error e => rintro _ _ ⟨⟩
      | ok resp =>
          rintro _ bundle ⟨⟩ hb
          exact h resp bundle rfl hb
  | checkPrekeyCount req => exact (checkPrekeyCount_obeys codec req).bind fun _ _ _ ↦ trivial
  | replenishPrekeys req => exact (replenishPrekeys_obeys codec req).bind fun _ _ _ ↦ trivial
  | getUpdateManifest req => exact (getUpdateManifest_obeys codec req).bind fun _ _ _ ↦ trivial
  | getUpdateChunk req => exact (getUpdateChunk_obeys codec req).bind fun _ _ _ ↦ trivial
  | syncPushBlob req => exact (pushBlob_obeys codec req).bind fun _ _ _ ↦ trivial
  | syncFetchBlob req => exact (fetchBlob_obeys codec req).bind fun _ _ _ ↦ trivial
  | syncDeleteBlob req => exact (deleteBlob_obeys codec req).bind fun _ _ _ ↦ trivial
  | relayPush req => exact (pushRelay_obeys codec req).bind fun _ _ _ ↦ trivial
  | relayFetch req => exact (fetchRelay_obeys codec req).bind fun _ _ _ ↦ trivial
  | relayAck req => exact (ackRelay_obeys codec req).bind fun _ _ _ ↦ trivial
  | fetchMyAccepted req =>
      refine (fetchMyAccepted_obeys codec req).bind fun past r h ↦ ?_
      cases r with
      | error e => rintro _ ⟨⟩
      | ok resp =>
          rintro _ ⟨⟩
          exact h resp rfl
  | ackMessage req => exact (ackMessage_obeys codec req).bind fun _ _ _ ↦ trivial
  | publishRecoveryKey req => exact (publishRecoveryKey_obeys codec req).bind fun _ _ _ ↦ trivial
  | recoveryClaim req => exact (recoveryClaim_obeys codec req).bind fun _ _ _ ↦ trivial
  | refused message => trivial

/-- Every job performs its operations under `Guard` and answers under `Answer`. -/
theorem code_obeys (job : Job) :
    (code codec job).Obeys (Guard codec job) (fun past reply ↦ Answer codec past reply job) [] := by
  cases job with
  | request call =>
      refine (processCall_obeys codec call).bind fun past r h ↦ ?_
      rintro _ ⟨⟩
      exact h
  | websocket rounds => exact (handleWebsocket_obeys codec rounds).bind fun _ _ _ ↦ trivial
  | cleanup tick => exact (cleanup_obeys codec tick).bind fun _ _ _ ↦ trivial

/-- What a request obeys, as a guard of all jobs. -/
theorem code_of_call {call : Call} {guard : Past → Op → Prop} {post : Past → Reply → Prop}
    (h : (processCall codec call).Obeys guard post []) (job : Job) :
    (code codec job).Obeys (fun past o ↦ job = .request call → guard past o)
      (fun past reply ↦ job = .request call → ∀ r, reply = some r → post past r) [] := by
  by_cases hjob : job = .request call
  · subst hjob
    refine (h.mono (fun _ _ hg _ ↦ hg) fun _ _ hp ↦ hp).bind fun past r hr ↦ ?_
    rintro - _ ⟨⟩
    exact hr
  · exact Program.obeys_of_forall _ (fun _ _ heq ↦ absurd heq hjob) fun _ _ heq ↦ absurd heq hjob

end Handlers

end ZenthDht
