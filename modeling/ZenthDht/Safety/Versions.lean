import ZenthDht.Safety.Sessions

/-!
# The version gate

LOGIN compares the version of the client with the `required_version` of `app_config` as strings,
and answers `version_outdated` when they differ.  It is meant to stop the clients whose version is
lower, so it errs on every client whose version is another one but not lower (`version_gate`): a
client that has just installed the release on offer is sent back for an update
(`newer_client_refused`).
-/

namespace ZenthDht

open Conc

/-! ## Versions -/

/-- The number a string of digits denotes. -/
def number (cs : List Char) : Option Nat :=
  if cs ≠ [] ∧ cs.all Char.isDigit then
    some (cs.foldl (fun n d ↦ 10 * n + (d.toNat - '0'.toNat)) 0)
  else none

/-- The components of a dotted numeric version; versions are ordered as these lists are. -/
def components (s : String) : Option (List Nat) := (s.toList.splitOn '.').mapM number

example : components "0.12.0" = some [0, 12, 0] := rfl

/-! ## The gate -/

variable {codec : Codec} {verifyDetached : Bytes → Bytes → Bytes → Bool}
variable {c : State} {t : Nat} {req : LoginRequest} {reply : Reply} {done : Past}
variable {required : String} {v w : List Nat}

/-- LOGIN has answered `version_outdated`. -/
def Reply.Outdated (reply : Reply) : Prop :=
  ∃ resp, reply.payload = .login resp ∧ resp.versionOutdated.isSome

/-- What LOGIN has made of the required version when it answers. -/
inductive LoginRequest.Gate (req : LoginRequest) (done : Past) (resp : LoginResponse) : Prop
  | refused (required : String) (hne : req.appVersion ≠ required)
      (hdone : done = [⟨.sql (.selectConfig "required_version"), .ok required⟩])
      (hresp : resp.versionOutdated = some ⟨required, required⟩)
  | passed (r : Except DieselError String)
      (hread : ∀ r', Did done (.sql (.selectConfig "required_version")) r' → r' = r)
      (heq : ∀ required, r = .ok required → req.appVersion = required)
      (hresp : resp.versionOutdated = none)

/-- After the gate `app_config` is not read again. -/
def PastGate (o : Op) : Prop := ∀ k, o ≠ .sql (.selectConfig k)

/-- After the gate no answer says that the version is outdated. -/
def Admitted (_ : Past) (r : Except String LoginResponse) : Prop :=
  ∃ resp, r = .ok resp ∧ resp.versionOutdated = none

theorem admitted_loginError (message : String) : Admitted done (loginError message) :=
  ⟨_, rfl, rfl⟩

theorem handleChallengeRequest_admitted (u : Bytes) (proofType : Int32) :
    (handleChallengeRequest u proofType).Obeys (fun _ o ↦ PastGate o) Admitted done := by
  unfold handleChallengeRequest
  refine obeys_call nofun fun challengeId ↦ obeys_call nofun fun nonce ↦ ?_
  refine obeys_utcNow nofun fun now ↦ obeys_call nofun fun deleted ↦ ?_
  refine obeys_sql nofun (fun e ↦ admitted_loginError _) fun n ↦ ?_
  exact obeys_currentTimestamp nofun fun ts ↦ ⟨_, rfl, rfl⟩

theorem handleProofVerification_admitted (user : User) (proof : AuthProof) :
    (handleProofVerification user proof).Obeys (fun _ o ↦ PastGate o) Admitted done := by
  unfold handleProofVerification
  refine obeys_sql nofun (fun e ↦ ?_) fun x ↦ ?_
  · cases e <;> exact admitted_loginError _
  refine obeys_utcNow nofun fun now ↦ ?_
  split
  · exact obeys_call nofun fun deleted ↦ admitted_loginError _
  refine obeys_call nofun fun valid ↦ ?_
  split
  · exact admitted_loginError _
  refine obeys_call nofun fun deleted ↦ obeys_call nofun fun token ↦ ?_
  refine obeys_utcNow nofun fun expiryNow ↦ ?_
  exact obeys_sql nofun (fun e ↦ admitted_loginError _) fun n ↦ ⟨_, rfl, rfl⟩

theorem login_gate (req : LoginRequest) :
    (login req).Obeys (fun _ _ ↦ True)
      (fun done r ↦ ∃ resp, r = .ok resp ∧ req.Gate done resp) [] := by
  unfold login getRequiredVersion
  refine ⟨trivial, fun r ↦ ?_⟩
  change Program.Obeys _ _ _ (match (r.toOption.filter _) with | some _ => _ | none => _)
  split
  next required hv =>
    obtain ⟨hv, hne⟩ := Option.filter_eq_some_iff.mp hv
    cases r with
    | error e => exact nomatch hv
    | ok v =>
        obtain rfl := Option.some.inj hv
        exact ⟨_, rfl, .refused v (of_decide_eq_true hne) rfl rfl⟩
  next hv =>
  have hequal (required : String) (hr : r = .ok required) : req.appVersion = required := by
    subst hr
    by_contra hne
    simp [Except.toOption, hne] at hv
  refine (Program.Obeys.only (?_ : Program.Obeys (fun _ o ↦ PastGate o) Admitted _ _)
    fun _ _ hg ↦ hg).mono (fun _ _ _ ↦ trivial) ?_
  · split
    · exact admitted_loginError _
    split
    · exact admitted_loginError _
    refine obeys_sql nofun (fun e ↦ ?_) fun user ↦ ?_
    · cases e <;> exact admitted_loginError _
    dsimp only
    split
    · exact handleChallengeRequest_admitted _ _
    split
    · exact handleProofVerification_admitted _ _
    · exact admitted_loginError _
  · rintro done _ ⟨⟨resp, rfl, hnone⟩, honly⟩
    refine ⟨resp, rfl, .passed r (fun r' hr' ↦ ?_) hequal hnone⟩
    rcases honly _ hr' with hmem | hother
    · cases List.mem_singleton.mp hmem
      rfl
    · exact absurd rfl (hother _)

theorem processCall_login_gate (req : LoginRequest) :
    (processCall codec (.login req)).Obeys (fun _ _ ↦ True) (fun done reply ↦
      ∃ resp, reply = ⟨resp.success, .login resp, ""⟩ ∧ req.Gate done resp) [] := by
  refine (login_gate req).bind fun done r ⟨resp, hr, hgate⟩ ↦ ⟨resp, ?_, hgate⟩
  rw [hr]
  rfl

/-- LOGIN stops the client if and only if its version is the lower one, and creates nothing for a
client it stops. -/
structure StopsOlder (done : Past) (reply : Reply) (v w : List Nat) : Prop where
  outdated : reply.Outdated ↔ v < w
  challenge : reply.Outdated → ∀ n r, ¬ Did done (.sql (.insertChallenge n)) r
  session : reply.Outdated → ∀ n r, ¬ Did done (.sql (.insertSession n)) r

theorem LoginRequest.Gate.outdated {resp : LoginResponse} (h : req.Gate done resp)
    (hread : Did done (.sql (.selectConfig "required_version")) (.ok required)) :
    resp.versionOutdated.isSome ↔ req.appVersion ≠ required := by
  cases h with
  | refused required' hne hdone hresp =>
      rw [hdone] at hread
      cases List.mem_singleton.mp hread
      simp [hresp, hne]
  | passed r hr heq hresp => simp [hresp, heq required (hr _ hread).symm]

theorem LoginRequest.Gate.single {resp : LoginResponse} (h : req.Gate done resp)
    (houtdated : resp.versionOutdated.isSome) :
    ∃ required, done = [⟨.sql (.selectConfig "required_version"), .ok required⟩] := by
  cases h with
  | refused required hne hdone hresp => exact ⟨required, hdone⟩
  | passed r hr heq hresp =>
      rw [hresp] at houtdated
      exact nomatch houtdated

/-- LOGIN stops exactly the older clients, for the clients that have the required version or an
older one. -/
theorem version_gate (h : Reachable codec verifyDetached c)
    (hanswer : c.answered t = some (.request (.login req), reply))
    (hread : (t, ⟨.sql (.selectConfig "required_version"), .ok required⟩) ∈ c.trace)
    (hv : components req.appVersion = some v) (hw : components required = some w) :
    StopsOlder (past t c.trace) reply v w ↔ req.appVersion = required ∨ v < w := by
  obtain ⟨resp, rfl, hgate⟩ := h.request_answer (processCall_login_gate req) hanswer
  have hresp : Reply.Outdated ⟨resp.success, .login resp, ""⟩ ↔ resp.versionOutdated.isSome := by
    constructor
    · rintro ⟨_, ⟨⟩, hsome⟩
      exact hsome
    · intro hsome
      exact ⟨resp, rfl, hsome⟩
  have houtdated := hresp.trans (hgate.outdated (did_past.mpr hread))
  have hequal (he : req.appVersion = required) : ¬ v < w := by
    obtain rfl : v = w := Option.some.inj (hv.symm.trans (he ▸ hw))
    exact List.lt_irrefl v
  constructor
  · intro hstops
    by_cases he : req.appVersion = required
    · exact .inl he
    · exact .inr (hstops.outdated.mp (houtdated.mpr he))
  · intro hcases
    have hiff : req.appVersion ≠ required ↔ v < w :=
      ⟨fun hne ↦ hcases.resolve_left hne, fun hlt he ↦ hequal he hlt⟩
    refine ⟨houtdated.trans hiff, fun ho n r hn ↦ ?_, fun ho n r hn ↦ ?_⟩
    all_goals
      obtain ⟨required', hdone⟩ := hgate.single (hresp.mp ho)
      rw [hdone] at hn
      exact nomatch List.mem_singleton.mp hn

namespace Sample

/-- The release on offer has the version `version`. -/
def released (version : String) : Oracle :=
  .manifest (.ok ⟨true, "200 OK", .ok ⟨version, "", [("linux-x86_64-deb", ⟨"zenth.deb", "", 1, ""⟩)]⟩⟩)

/-- A client fetches the manifest, and a client of version `v` logs in. -/
def releaseRun (version v : String) : Moves :=
  [.spawn (.request (.getUpdateManifest ⟨"linux-x86_64-deb", ""⟩)), .step 0 (released version),
    .spawn (.request (.login ⟨v, word 1, true, none⟩)), .step 1 .none]

/-- The reply to a client that has to update to the version `v`. -/
def updateReply (v : String) : Reply :=
  ⟨false, .login { success := false, versionOutdated := some ⟨v, v⟩ }, ""⟩

/-- The value that a read of `app_config` has returned. -/
def configRead : Event Res → Option (String × String)
  | ⟨.sql (.selectConfig k), .ok v⟩ => some (k, v)
  | _ => none

theorem read_of_configRead {e : Event Res} {k v : String} (h : configRead e = some (k, v)) :
    e = ⟨.sql (.selectConfig k), .ok v⟩ := by
  unfold configRead at h
  split at h
  · obtain ⟨rfl, rfl⟩ := Prod.mk.inj (Option.some.inj h)
    rfl
  · exact nomatch h

end Sample

open Sample in
/-- A client that has installed the version 0.1.3 on offer is told to update to 0.1.2. -/
theorem newer_client_refused : ∃ c, final [] (releaseRun "0.1.3" "0.1.3") = some c ∧
    c.answered 0 = some (.request (.getUpdateManifest ⟨"linux-x86_64-deb", ""⟩),
      ⟨true, .updateManifest ⟨"0.1.3", "", 1, [], "", "linux-x86_64-deb"⟩, ""⟩) ∧
    c.answered 1 = some (.request (.login ⟨"0.1.3", word 1, true, none⟩), updateReply "0.1.2") ∧
    components "0.1.3" = some [0, 1, 3] ∧ components "0.1.2" = some [0, 1, 2] ∧
    ¬ StopsOlder (past 1 c.trace) (updateReply "0.1.2") [0, 1, 3] [0, 1, 2] := by
  have hrun : (final [] (releaseRun "0.1.3" "0.1.3")).map (fun c ↦ (c.answered 0, c.answered 1)) =
      some (some (.request (.getUpdateManifest ⟨"linux-x86_64-deb", ""⟩),
          ⟨true, .updateManifest ⟨"0.1.3", "", 1, [], "", "linux-x86_64-deb"⟩, ""⟩),
        some (.request (.login ⟨"0.1.3", word 1, true, none⟩), updateReply "0.1.2")) := by
    decide +kernel
  obtain ⟨c, hc, hview⟩ := Option.map_eq_some_iff.mp hrun
  obtain ⟨hmanifest, hlogin⟩ := Prod.mk.inj hview
  refine ⟨c, hc, hmanifest, hlogin, rfl, rfl, fun hstops ↦ ?_⟩
  exact absurd (hstops.outdated.mp ⟨_, rfl, rfl⟩) (by decide)

open Sample in
/-- A client of version 0.1.1 is told to update, as it should be. -/
theorem version_gate_releaseRun : ∃ c, final [] (releaseRun "0.1.3" "0.1.1") = some c ∧
    StopsOlder (past 1 c.trace) (updateReply "0.1.2") [0, 1, 1] [0, 1, 2] := by
  have hrun : (final [] (releaseRun "0.1.3" "0.1.1")).map (fun c ↦
      (c.answered 1, (past 1 c.trace).map configRead)) =
      some (some (.request (.login ⟨"0.1.1", word 1, true, none⟩), updateReply "0.1.2"),
        [some ("required_version", "0.1.2")]) := by decide +kernel
  obtain ⟨c, hc, hview⟩ := Option.map_eq_some_iff.mp hrun
  obtain ⟨hlogin, hpast⟩ := Prod.mk.inj hview
  obtain ⟨e, hmem, he⟩ := List.mem_map.mp (hpast ▸ List.mem_singleton.mpr rfl :
    some ("required_version", "0.1.2") ∈ (past 1 c.trace).map configRead)
  rw [read_of_configRead he, mem_past] at hmem
  exact ⟨c, hc, (version_gate ⟨0, 0, _, hc⟩ hlogin hmem rfl rfl).mpr (.inr (by decide))⟩

end ZenthDht
