import ZenthDht.Spec.Run

/-!
# The rows of users

REGISTER refuses a request with an empty field.  Two other handlers write to a row of `users`:
PUBLISH_RECOVERY_KEY refuses an empty recovery key, and RECOVERY_CLAIM refuses an empty identity
key, but not an empty signature or bundle that comes with it.  So the rows stay as REGISTER demands
them exactly as long as every RECOVERY_CLAIM that is carried out brings both (`users_complete`).
-/

namespace ZenthDht

open Conc

/-- A row of `users` as REGISTER demands it. -/
structure User.Complete (x : User) : Prop where
  userHashId : x.userHashId.length = 32
  passwordCommitment : x.passwordCommitment ≠ []
  identityKeyDilithium : x.identityKeyDilithium ≠ []
  identitySignature : x.identitySignature ≠ []
  preKeyBundle : x.preKeyBundle ≠ []
  recoveryDilithiumPubkey : x.recoveryDilithiumPubkey ≠ some []

/-- A move that carries out a RECOVERY_CLAIM on a row brings a signature and a bundle. -/
def BringsIdentity (c : State) : Move Job Oracle Act → Prop
  | .step t ω =>
    match c.performs t with
    | some (.request (.recoveryClaim req), .sql (.updateIdentity u _ _ _)) => ω.fails = false →
      c.world.db.hasUser u = true → req.newIdentitySignature ≠ [] ∧ req.newPreKeyBundle ≠ []
    | _ => True
  | _ => True

variable {codec : Codec} {verifyDetached : Bytes → Bytes → Bytes → Bool}
variable {c c' : State} {ms : Moves} {m : Move Job Oracle Act}

/-! ## What the handlers write -/

/-- REGISTER checks every field. -/
theorem register_complete (req : RegistrationRequest) :
    (processCall codec (.register req)).Obeys
      (fun _ o ↦ ∀ n, o = .sql (.insertUser n) → ∀ now, (n.row now).Complete)
      (fun _ _ ↦ True) [] := by
  have hregister : (register req).Obeys
      (fun _ o ↦ ∀ n, o = .sql (.insertUser n) → ∀ now, (n.row now).Complete)
      (fun _ _ ↦ True) [] := by
    unfold register
    split
    · trivial
    split
    · trivial
    next hlen =>
    split
    · trivial
    next hbundle =>
    split
    · trivial
    next hcommitment =>
    split
    · trivial
    next hkey =>
    split
    · trivial
    next hsignature =>
    refine obeys_sql ?_ (fun e ↦ ?_) fun n ↦ trivial
    · rintro n ⟨⟩ now
      exact ⟨not_not.mp hlen, hcommitment, hkey, hsignature, hbundle, nofun⟩
    · dsimp only
      split <;> trivial
  exact hregister.bind fun _ _ _ ↦ trivial

theorem User.Complete.withRecoveryKey {x : User} (h : x.Complete) {k : Bytes} (hk : k ≠ []) :
    (x.withRecoveryKey k).Complete :=
  { h with recoveryDilithiumPubkey := fun he ↦ hk (Option.some.inj he) }

theorem User.Complete.withIdentity {x : User} (h : x.Complete) {k s b : Bytes} (hk : k ≠ [])
    (hs : s ≠ []) (hb : b ≠ []) : (x.withIdentity k s b).Complete :=
  { h with identityKeyDilithium := hk, identitySignature := hs, preKeyBundle := hb }

/-- What a statement writes is complete, if a claim brings a signature and a bundle. -/
theorem Executes.keeps_complete (h : Reachable codec verifyDetached c) {t : Nat} {job : Job}
    {s : Stmt} (he : Executes c t job s c') (hold : ∀ x ∈ c.world.db.users, x.Complete)
    (hbrings : ∀ req u k g b, job = .request (.recoveryClaim req) → s = .updateIdentity u k g b →
      c.world.db.hasUser u = true → req.newIdentitySignature ≠ [] ∧ req.newPreKeyBundle ≠ []) :
    ∀ x ∈ c'.world.db.users, x.Complete := by
  intro x hx
  have hguard := h.executes he
  rw [he.db] at hx
  rcases mem_users_exec hx with hx | ⟨n, rfl, -, rfl⟩ | ⟨y, hy, k, rfl, rfl⟩ |
    ⟨y, hy, k, g, b, rfl, rfl⟩
  · exact hold x hx
  · obtain ⟨-, req, rfl, rfl, -⟩ := hguard
    obtain ⟨k, ht, -⟩ := he.pool
    exact h.request_guard (register_complete req) ht _ rfl c.world.clock
  · obtain ⟨req, rfl, -, rfl, -, -, -, ⟨-, hk, -⟩, -⟩ := hguard
    exact (hold y hy).withRecoveryKey hk
  · obtain ⟨req, rfl, -, rfl, rfl, rfl, -, -, -, ⟨-, hk, -⟩, -⟩ := hguard
    obtain ⟨hg, hb⟩ := hbrings req _ _ _ _ rfl rfl (hasUser_iff.mpr ⟨y, hy, rfl⟩)
    exact (hold y hy).withIdentity hk hg hb

/-- One move keeps the rows complete. -/
theorem Step.keeps_complete (h : Reachable codec verifyDetached c)
    (hs : (server codec verifyDetached).Step c m c') (hm : BringsIdentity c m)
    (hold : ∀ x ∈ c.world.db.users, x.Complete) : ∀ x ∈ c'.world.db.users, x.Complete := by
  rcases Step.db hs with hsame | ⟨t, job, s, he⟩
  · intro x hx
    exact hold x (hsame.users.mem_iff.mpr hx)
  · refine he.keeps_complete h hold fun req u k g b hjob hstmt hu ↦ ?_
    subst hjob hstmt
    obtain ⟨ω, rfl, hω⟩ := he.move hs (a := c.world.db.users.countP fun x ↦ x.userHashId = u) rfl
    obtain ⟨rest, ht, -⟩ := he.pool
    have hperf := performs_iff.mpr ⟨rest, ht⟩
    simp only [BringsIdentity, hperf] at hm
    exact hm hω hu

/-- A claim that brings no signature or no bundle leaves a row without it. -/
theorem claim_incomplete (h : Reachable codec verifyDetached c) {t : Nat} {ω : Oracle}
    {req : RecoveryClaimRequest} {u k g b : Bytes}
    (hperf : c.performs t = some (.request (.recoveryClaim req), .sql (.updateIdentity u k g b)))
    (hω : ω.fails = false) (hu : c.world.db.hasUser u = true) :
    ∃ c' x, (server codec verifyDetached).next c (.step t ω) = some c' ∧ x ∈ c'.world.db.users ∧
      x.identitySignature = req.newIdentitySignature ∧ x.preKeyBundle = req.newPreKeyBundle := by
  obtain ⟨rest, ht⟩ := performs_iff.mp hperf
  obtain ⟨req', hreq, -, -, rfl, rfl, -⟩ := h.guard ht
  obtain rfl := Call.recoveryClaim.inj (Job.request.inj hreq)
  obtain ⟨y, hy, rfl⟩ := hasUser_iff.mp hu
  have hp : perform verifyDetached (.sql (.updateIdentity y.userHashId k req.newIdentitySignature
      req.newPreKeyBundle)) ω c.world = some ((Stmt.exec c.world.clock c.world.db (.updateIdentity
        y.userHashId k req.newIdentitySignature req.newPreKeyBundle)).1, { c.world with
        db := (Stmt.exec c.world.clock c.world.db (.updateIdentity
          y.userHashId k req.newIdentitySignature req.newPreKeyBundle)).2 }) := by
    cases ω with
    | fail e => exact nomatch hω
    | _ => rfl
  refine ⟨_, y.withIdentity k req.newIdentitySignature req.newPreKeyBundle,
    Machine.next_step ht hp, List.mem_map.mpr ⟨y, hy, if_pos rfl⟩, rfl, rfl⟩

/-- **Rows of users stay as REGISTER demands them.**  In every run from the start, all states have
only complete rows of `users` if and only if every RECOVERY_CLAIM that is carried out on a row
brings a signature and a bundle. -/
theorem users_complete {clock instant : Nat} {ms : Moves} :
    (∀ ms₁ ms₂ c, ms = ms₁ ++ ms₂ →
      (server codec verifyDetached).run (.start (.initial clock instant)) ms₁ = some c →
      ∀ x ∈ c.world.db.users, x.Complete) ↔
    (server codec verifyDetached).Along BringsIdentity (.start (.initial clock instant)) ms := by
  constructor
  · intro hall
    refine Machine.along_of_forall fun ms₁ m ms₂ c hms hrun ↦ ?_
    have hc : Reachable codec verifyDetached c := ⟨clock, instant, ms₁, hrun⟩
    cases m with
    | step t ω =>
        simp only [BringsIdentity]
        split
        next req u k g b hperf =>
          intro hω hu
          obtain ⟨c', x, hnext, hx, hg, hb⟩ := claim_incomplete hc hperf hω hu
          have hcomplete := hall (ms₁ ++ [.step t ω]) ms₂ c' (by simp [hms])
            (Machine.run_append.mpr ⟨c, hrun, Machine.run_cons.mpr ⟨c', hnext, rfl⟩⟩) x hx
          rw [← hg, ← hb]
          exact ⟨hcomplete.identitySignature, hcomplete.preKeyBundle⟩
        · trivial
    | _ => trivial
  · rintro halong ms₁ ms₂ c rfl hrun
    have hinv : Reachable codec verifyDetached c ∧ ∀ x ∈ c.world.db.users, x.Complete := by
      refine halong.left.invariant (I := fun d ↦ Reachable codec verifyDetached d ∧
        ∀ x ∈ d.world.db.users, x.Complete) ?_ hrun ⟨⟨clock, instant, [], rfl⟩, ?_⟩
      · rintro d m d' ⟨hd, hold⟩ hm hs
        exact ⟨hd.run (hs.run_cons Machine.run_nil), Step.keeps_complete hd hs hm hold⟩
      · intro x hx
        exact absurd hx List.not_mem_nil
    exact hinv.2

namespace Sample

/-- User 1 recovers its account with the key 4 and no bundle. -/
def bundlelessClaim : RecoveryClaimRequest := ⟨word 1, key 4, [1], [], signature, 0⟩

def bundlelessSigned : List (Bytes × Bytes) :=
  [(key 1, PublishRecoveryKeyRequest.signedData ⟨word 1, key 3, signature, 0⟩),
   (key 3, bundlelessClaim.signedData)]

/-- User 1 publishes the recovery key 3 and uses it. -/
def bundlelessRun : Moves :=
  registers 0 1 ++ .spawn (.request (.publishRecoveryKey ⟨word 1, key 3, signature, 0⟩)) ::
    steps 1 4 ++ .spawn (.request (.recoveryClaim bundlelessClaim)) :: steps 2 4

end Sample

open Sample in
/-- After a recovery without a bundle the row of the user has none. -/
theorem claim_without_bundle : ∃ c x, final bundlelessSigned bundlelessRun = some c ∧
    x ∈ c.world.db.users ∧ x.preKeyBundle = [] ∧ ¬ x.Complete := by
  have hrun : ((final bundlelessSigned bundlelessRun).map fun c ↦
      c.world.db.users.map User.preKeyBundle) = some [[]] := by decide +kernel
  obtain ⟨c, hc, hbundles⟩ := Option.map_eq_some_iff.mp hrun
  have hmem : [] ∈ c.world.db.users.map User.preKeyBundle := by
    rw [hbundles]
    exact List.mem_cons_self
  obtain ⟨x, hx, hempty⟩ := List.mem_map.mp hmem
  exact ⟨c, x, hc, hx, hempty, fun hcomplete ↦ hcomplete.preKeyBundle hempty⟩

end ZenthDht
