import ZenthDht.Safety.Material
import ZenthDht.Safety.PrekeyQueue

/-!
# How the absence of a one-time pre-key is reported

FETCH_PREKEY_BUNDLE puts the one-time pre-key it consumes into the base bundle of the target, and
returns that bundle as it is stored when there is none to consume.  The comment there says that a
bundle without one has `pre_key_id` 0, but nothing makes the stored bundle so, and nothing keeps
an uploaded pre-key from having the id 0.  A base bundle with a one-time pre-key of its own is
served again and again (`base_prekey_served_twice`).

`prekey_sentinel` says when an answer tells the two cases apart: it depends on what the fetch finds
in the moment it looks for a pre-key.
-/

namespace ZenthDht

open Conc

variable {codec : Codec} {verifyDetached : Bytes → Bytes → Bytes → Bool}
variable {c d : State} {t : Nat} {ω : Oracle} {u : Bytes} {req : FetchPreKeyBundleRequest}

/-! ## Answers -/

/-- The one-time pre-key in a bundle. -/
def PreKeyBundle.oneTime (b : PreKeyBundle) : PrekeyPair := (b.preKeyId, b.preKeyPublic)

/-- What stands for no one-time pre-key. -/
def noPrekey : PrekeyPair := (0, [])

/-- Thread `t` has answered the fetch `req` with the bundle `b`. -/
def Returns (c : State) (t : Nat) (req : FetchPreKeyBundleRequest) (b : PreKeyBundle) : Prop :=
  ∃ reply resp, c.answered t = some (.request (.fetchPrekeyBundle req), reply) ∧
    reply.success = true ∧ reply.payload = .fetchPrekeyBundle resp ∧ resp.bundle = some b

/-- The bundle says whether the fetch, made on the rows `db`, has consumed a one-time pre-key, and
which one. -/
def Db.ReportedBy (db : Db) (u : Bytes) (b : PreKeyBundle) : Prop :=
  match db.nextPrekey u with
  | none => b.preKeyId = 0 ∧ b.preKeyPublic = []
  | some x => b.preKeyId ≠ 0 ∧ b.preKeyPublic = x.publicKey

instance (db : Db) (u : Bytes) (b : PreKeyBundle) : Decidable (db.ReportedBy u b) := by
  unfold Db.ReportedBy
  split <;> infer_instance

/-- What the fetch has found when thread `t` looks for a one-time pre-key in the state `d`: if there
is one its id is not 0, and if there is none the bundle of the target has none either. -/
def Tells (codec : Codec) (d : State) (t : Nat) (req : FetchPreKeyBundleRequest) : Prop :=
  match d.world.db.nextPrekey req.targetHash with
  | none => ∃ requester target base, past t d.trace = req.foundPast requester target ∧
      codec.decodePreKeyBundle target.preKeyBundle = some base ∧ base.oneTime = noPrekey
  | some x => x.pair.1 ≠ 0

/-! ## Selections -/

/-- The selection gives the first unused pre-key, if there is one. -/
theorem exec_selectUnusedPrekey (now : NaiveDateTime) (db : Db) (u : Bytes) :
    ((Stmt.selectUnusedPrekey u).exec now db).1 = match db.nextPrekey u with
      | none => .error .notFound
      | some x => .ok (x.id, x.prekeyId, x.publicKey) := by
  unfold Db.nextPrekey
  simp only [Stmt.exec]
  cases (db.oneTimePrekeys.filter fun x ↦ x.userHashId = u && !x.used).insertionSort
      fun x y ↦ x.id ≤ y.id with
  | nil => rfl
  | cons x l => rfl

/-- Two splits of a list at the first element with a property are one. -/
theorem split_unique {α : Type} {p : α → Prop} {a b a' b' : List α} {x y : α}
    (h : a ++ x :: b = a' ++ y :: b') (hx : p x) (hy : p y) (ha : ∀ z ∈ a, ¬ p z)
    (ha' : ∀ z ∈ a', ¬ p z) : a = a' ∧ x = y ∧ b = b' := by
  induction a generalizing a' with
  | nil =>
      cases a' with
      | nil =>
          obtain ⟨rfl, rfl⟩ := List.cons.inj h
          exact ⟨rfl, rfl, rfl⟩
      | cons z a' =>
          obtain ⟨rfl, -⟩ := List.cons.inj h
          exact absurd hx (ha' x List.mem_cons_self)
  | cons z a ih =>
      cases a' with
      | nil =>
          obtain ⟨rfl, -⟩ := List.cons.inj h
          exact absurd hy (ha z List.mem_cons_self)
      | cons z' a' =>
          obtain ⟨rfl, htail⟩ := List.cons.inj h
          obtain ⟨rfl, hxy, hb⟩ := ih htail (fun w hw ↦ ha w (List.mem_cons_of_mem _ hw))
            fun w hw ↦ ha' w (List.mem_cons_of_mem _ hw)
          exact ⟨rfl, hxy, hb⟩

/-- What a fetch that has returned a bundle has done. -/
theorem Returns.done {b : PreKeyBundle} (hret : Returns c t req b)
    (hc : Reachable codec verifyDetached c) :
    ∃ requester target base, codec.decodePreKeyBundle target.preKeyBundle = some base ∧
      (past t c.trace = req.foundPast requester target ++
          [⟨.sql (.selectUnusedPrekey req.targetHash), .error .notFound⟩] ∧ b = base ∨
        ∃ id prekeyId publicKey n, past t c.trace = req.foundPast requester target ++
          [⟨.sql (.selectUnusedPrekey req.targetHash), .ok (id, prekeyId, publicKey)⟩,
           ⟨.sql (.markPrekeyUsed id), .ok n⟩] ∧
          b = { base with preKeyId := prekeyId.toUInt32, preKeyPublic := publicKey }) := by
  obtain ⟨reply, resp, hans, hsuccess, hpayload, hb⟩ := hret
  have hend : Ended c t (.fetchPrekeyBundle req) (some reply) := hans
  obtain ⟨r, hreply, hdone⟩ := hend.fetchPrekeyBundle_done hc
  obtain rfl := Option.some.inj hreply
  obtain ⟨-, -, hfail⟩ | ⟨requester, target, base, -, hpast, hbase, rfl⟩ |
    ⟨requester, target, base, id, prekeyId, publicKey, n, -, hpast, hbase, rfl⟩ := hdone
  · cases r with
    | error e => exact nomatch hsuccess
    | ok resp' => exact nomatch (hfail resp' rfl).symm.trans hsuccess
  · obtain rfl := Payload.fetchPrekeyBundle.inj hpayload
    exact ⟨requester, target, base, hbase, .inl ⟨hpast, (Option.some.inj hb).symm⟩⟩
  · obtain rfl := Payload.fetchPrekeyBundle.inj hpayload
    exact ⟨requester, target, base, hbase,
      .inr ⟨id, prekeyId, publicKey, n, hpast, (Option.some.inj hb).symm⟩⟩

/-- What a fetch has found when it looks for a one-time pre-key, and what it returns. -/
theorem returns_cases (hc : Reachable codec verifyDetached c) {b : PreKeyBundle}
    (hret : Returns c t req b) {r : Except DieselError (Nat × Int32 × Bytes)} {pre post : Past}
    (hpast : past t c.trace = pre ++ ⟨.sql (.selectUnusedPrekey req.targetHash), r⟩ :: post)
    (hpre : ∀ u r, ¬ Did pre (.sql (.selectUnusedPrekey u)) r) :
    ∃ requester target base, pre = req.foundPast requester target ∧
      codec.decodePreKeyBundle target.preKeyBundle = some base ∧
      (r = .error .notFound ∧ b = base ∨ ∃ id prekeyId publicKey, r = .ok (id, prekeyId, publicKey) ∧
        b = { base with preKeyId := prekeyId.toUInt32, preKeyPublic := publicKey }) := by
  -- the one selection of the thread
  have hsplit {requester target : User} {r' : Except DieselError (Nat × Int32 × Bytes)}
      {post' : Past} (h : past t c.trace = req.foundPast requester target ++
        ⟨.sql (.selectUnusedPrekey req.targetHash), r'⟩ :: post') :
      pre = req.foundPast requester target ∧ r = r' := by
    have hfound : ∀ e ∈ req.foundPast requester target, ¬ ∃ u, e.1 = .sql (.selectUnusedPrekey u) := by
      rintro e he ⟨u, hu⟩
      simp only [FetchPreKeyBundleRequest.foundPast, List.mem_cons, List.not_mem_nil,
        or_false] at he
      rcases he with rfl | rfl | rfl <;> cases hu
    obtain ⟨hpre', hevent, -⟩ := split_unique (p := fun e : Event Res ↦
      ∃ u, e.1 = .sql (.selectUnusedPrekey u)) (hpast.symm.trans h) ⟨_, rfl⟩ ⟨_, rfl⟩
      (fun e he hu ↦ by
        obtain ⟨o, r''⟩ := e
        obtain ⟨u, rfl⟩ := hu
        exact hpre u r'' he) hfound
    exact ⟨hpre', eq_of_heq (Sigma.mk.inj hevent).2⟩
  obtain ⟨requester, target, base, hbase, ⟨hpast', rfl⟩ |
    ⟨id, prekeyId, publicKey, n, hpast', rfl⟩⟩ := hret.done hc
  · obtain ⟨rfl, rfl⟩ := hsplit hpast'
    exact ⟨requester, target, b, rfl, hbase, .inl ⟨rfl, rfl⟩⟩
  · obtain ⟨rfl, rfl⟩ := hsplit hpast'
    exact ⟨requester, target, base, rfl, hbase, .inr ⟨id, prekeyId, publicKey, rfl, rfl⟩⟩

/-! ## Faithful answers -/

/-- The step of thread `t` in `d` is the one in which the fetch looks for a one-time pre-key. -/
def Looks (d : State) (t : Nat) (req : FetchPreKeyBundleRequest) : Prop :=
  d.performs t = some (.request (.fetchPrekeyBundle req), .sql (.selectUnusedPrekey req.targetHash))

theorem looked {ms' : Moves} (hd : Reachable codec verifyDetached d)
    (hlooks : Looks d t req) (hrun : (server codec verifyDetached).run d (.step t ω :: ms') = some c) :
    ∃ r post, past t c.trace =
        past t d.trace ++ ⟨.sql (.selectUnusedPrekey req.targetHash), r⟩ :: post ∧
      (∀ u r, ¬ Did (past t d.trace) (.sql (.selectUnusedPrekey u)) r) ∧
      ((∃ e, r = .error (.other e)) ∨
        r = match d.world.db.nextPrekey req.targetHash with
          | none => .error .notFound
          | some x => .ok (x.id, x.prekeyId, x.publicKey)) := by
  obtain ⟨k, ht⟩ := performs_iff.mp hlooks
  obtain ⟨d', hd', hrest⟩ := Machine.run_cons.mp hrun
  have hguard := (hd.guard ht).1
  cases Machine.step_of_next hd' with
  | @step u ω j o k' r w ht' hp =>
      rw [ht] at ht'
      obtain ⟨rfl, hcode⟩ := Thread.mk.inj (Option.some.inj ht')
      obtain ⟨rfl, hk⟩ := Program.perform.inj hcode
      obtain ⟨ext, hext⟩ := Machine.trace_of_run hrest
      refine ⟨r, past t ext, ?_, hguard, ?_⟩
      · rw [hext]
        simp
      · rcases perform_sql hp with ⟨-, e, rfl⟩ | ⟨rfl, -⟩
        · exact .inl ⟨e, rfl⟩
        · exact .inr (exec_selectUnusedPrekey _ _ _)

/-- The bundle a fetch returns, in terms of what it finds when it looks for a pre-key. -/
theorem returns_eq {ms' : Moves} {b : PreKeyBundle} (hd : Reachable codec verifyDetached d)
    (hlooks : Looks d t req) (hrun : (server codec verifyDetached).run d (.step t ω :: ms') = some c)
    (hret : Returns c t req b) :
    ∃ requester target base, past t d.trace = req.foundPast requester target ∧
      codec.decodePreKeyBundle target.preKeyBundle = some base ∧
      b = match d.world.db.nextPrekey req.targetHash with
        | none => base
        | some x => { base with preKeyId := x.prekeyId.toUInt32, preKeyPublic := x.publicKey } := by
  obtain ⟨r, post, hpast, hpre, hr⟩ := looked hd hlooks hrun
  obtain ⟨requester, target, base, hfound, hbase, hcases⟩ :=
    returns_cases (hd.run hrun) hret hpast hpre
  refine ⟨requester, target, base, hfound, hbase, ?_⟩
  rcases hr with ⟨e, rfl⟩ | hr
  · rcases hcases with ⟨hr, -⟩ | ⟨_, _, _, hr, -⟩ <;> exact nomatch hr
  cases hnext : d.world.db.nextPrekey req.targetHash with
  | none =>
      rw [hnext] at hr
      rcases hcases with ⟨-, hb⟩ | ⟨_, _, _, hok, -⟩
      · exact hb
      · exact nomatch hr.symm.trans hok
  | some x =>
      rw [hnext] at hr
      rcases hcases with ⟨hnone, -⟩ | ⟨id, prekeyId, publicKey, hok, rfl⟩
      · exact nomatch hr.symm.trans hnone
      · obtain ⟨-, hpair⟩ := Prod.mk.inj (Except.ok.inj (hr.symm.trans hok))
        obtain ⟨rfl, rfl⟩ := Prod.mk.inj hpair
        rfl

theorem foundPast_inj {requester target requester' target' : User}
    (h : req.foundPast requester target = req.foundPast requester' target') : target = target' := by
  simp only [FetchPreKeyBundleRequest.foundPast, List.cons.injEq, Sigma.mk.injEq, heq_eq_eq,
    true_and, Except.ok.injEq, and_true] at h
  exact h.2.2

/-- An answer reports what the fetch has found if and only if that can be told. -/
theorem reportedBy_iff {ms' : Moves} {b : PreKeyBundle} (hd : Reachable codec verifyDetached d)
    (hlooks : Looks d t req) (hrun : (server codec verifyDetached).run d (.step t ω :: ms') = some c)
    (hret : Returns c t req b) :
    d.world.db.ReportedBy req.targetHash b ↔ Tells codec d t req := by
  obtain ⟨requester, target, base, hfound, hbase, rfl⟩ := returns_eq hd hlooks hrun hret
  unfold Db.ReportedBy Tells
  cases d.world.db.nextPrekey req.targetHash with
  | none =>
      constructor
      · rintro ⟨hid, hpublic⟩
        exact ⟨requester, target, base, hfound, hbase, Prod.ext hid hpublic⟩
      · rintro ⟨requester', target', base', hfound', hbase', hnone⟩
        obtain rfl := foundPast_inj (hfound.symm.trans hfound')
        obtain rfl := Option.some.inj (hbase.symm.trans hbase')
        exact ⟨congrArg Prod.fst hnone, congrArg Prod.snd hnone⟩
  | some x => exact ⟨fun h ↦ h.1, fun h ↦ ⟨h, rfl⟩⟩

/-! ## The pre-keys of base bundles -/

/-- A base bundle of `u`, given at registration or recovery, contains the one-time pre-key `p`. -/
def InBase (codec : Codec) (c : State) (u : Bytes) (p : PrekeyPair) : Prop :=
  p ≠ noPrekey ∧ ∃ bundle base, BaseStored c u bundle ∧
    codec.decodePreKeyBundle bundle = some base ∧ base.oneTime = p

/-- A row found as the next pre-key is one of the target. -/
theorem mem_of_nextPrekey {db : Db} {x : OneTimePrekey} (h : db.nextPrekey u = some x) :
    x ∈ db.oneTimePrekeys ∧ x.userHashId = u := by
  have hx := List.mem_of_mem_head? h
  rw [List.mem_insertionSort, List.mem_filter] at hx
  simp only [Bool.and_eq_true, decide_eq_true_eq] at hx
  exact ⟨hx.1, hx.2.1⟩

/-- What a returned bundle contains: nothing, or a pre-key uploaded for the target. -/
theorem oneTime_of_returns {ms' : Moves} {b : PreKeyBundle} (hd : Reachable codec verifyDetached d)
    (hlooks : Looks d t req) (hrun : (server codec verifyDetached).run d (.step t ω :: ms') = some c)
    (hret : Returns c t req b) (htells : Tells codec d t req) :
    b.oneTime = noPrekey ∨ ∃ prekeyId publicKey, PrekeyStored c req.targetHash prekeyId publicKey ∧
      b.oneTime = (prekeyId.toUInt32, publicKey) := by
  have hreported := (reportedBy_iff hd hlooks hrun hret).mpr htells
  obtain ⟨requester, target, base, -, -, rfl⟩ := returns_eq hd hlooks hrun hret
  unfold Db.ReportedBy at hreported
  cases hnext : d.world.db.nextPrekey req.targetHash with
  | none =>
      rw [hnext] at hreported
      exact .inl (Prod.ext hreported.1 hreported.2)
  | some x =>
      obtain ⟨hx, hu⟩ := mem_of_nextPrekey hnext
      refine .inr ⟨x.prekeyId, x.publicKey, ?_, rfl⟩
      rw [← hu]
      exact prekey_stored hd hx hrun

/-- A fetch that has returned a bundle has looked for a one-time pre-key in a state of the run. -/
theorem looks_of_returns {clock instant : Nat} {ms : Moves} {b : PreKeyBundle}
    (h : (server codec verifyDetached).run (.start (.initial clock instant)) ms = some c)
    (hret : Returns c t req b) :
    ∃ ms₁ ω ms₂ d, ms = ms₁ ++ .step t ω :: ms₂ ∧
      (server codec verifyDetached).run (.start (.initial clock instant)) ms₁ = some d ∧
      Looks d t req := by
  have hc : Reachable codec verifyDetached c := ⟨clock, instant, ms, h⟩
  have hselected : ∃ r, Did (past t c.trace) (.sql (.selectUnusedPrekey req.targetHash)) r := by
    obtain ⟨requester, target, base, -, ⟨hpast, -⟩ | ⟨id, prekeyId, publicKey, n, hpast, -⟩⟩ :=
      hret.done hc
    · exact ⟨.error .notFound, by rw [hpast]; simp [Did]⟩
    · exact ⟨.ok (id, prekeyId, publicKey), by rw [hpast]; simp [Did]⟩
  obtain ⟨r, hr⟩ := hselected
  obtain ⟨pre, post, htr⟩ := List.append_of_mem (did_past.mp hr)
  obtain ⟨ms₁, ω, ms₂, d, job, k, w, hms, hd, -, ht, -, -⟩ :=
    Machine.event_moment h htr (by simp [Config.start])
  obtain ⟨reply, -, hans, -⟩ := hret
  have hjob : job = .request (.fetchPrekeyBundle req) := by
    rw [hms] at h
    obtain ⟨d', hd', hrest⟩ := Machine.run_append.mp h
    obtain rfl := Option.some.inj (hd.symm.trans hd')
    exact (Runs.run ⟨_, ht⟩ hrest).unique ⟨_, answered_iff.mp hans⟩
  subst hjob
  exact ⟨ms₁, ω, ms₂, d, hms, hd, performs_iff.mpr ⟨k, ht⟩⟩

/-- Every successful fetch of the run satisfies `P` where it looks for a one-time pre-key. -/
def EveryFetch (M : Machine Res World Job (Option Reply) Oracle Act) (w : World) (ms : Moves)
    (c : State) (P : State → Nat → FetchPreKeyBundleRequest → PreKeyBundle → Prop) : Prop :=
  ∀ (ms₁ : Moves) (t : Nat) (ω : Oracle) (ms₂ : Moves) (d : State)
    (req : FetchPreKeyBundleRequest) (b : PreKeyBundle), ms = ms₁ ++ .step t ω :: ms₂ →
    M.run (.start w) ms₁ = some d → Looks d t req → Returns c t req b → P d t req b

/-- No one-time pre-key of a base bundle has also been uploaded as one of the same user. -/
def KeptApart (codec : Codec) (c : State) : Prop :=
  ∀ u prekeyId publicKey, PrekeyStored c u prekeyId publicKey →
    ¬ InBase codec c u (prekeyId.toUInt32, publicKey)

/-- The bundle that thread `t` has returned. -/
def State.fetched (c : State) (t : Nat) : Option (FetchPreKeyBundleRequest × PreKeyBundle) :=
  match c.answered t with
  | some (.request (.fetchPrekeyBundle req), ⟨_, .fetchPrekeyBundle resp, _⟩) =>
    resp.bundle.map (req, ·)
  | _ => none

theorem Returns.fetched {b : PreKeyBundle} (h : Returns c t req b) : c.fetched t = some (req, b) := by
  obtain ⟨⟨success, payload, message⟩, resp, hans, -, rfl, hb⟩ := h
  rw [State.fetched, hans]
  simp only [hb, Option.map_some]

/-- A thread that looks for a pre-key will return, in `c`, a bundle that reports what it finds. -/
def WillReport (c d : State) : Move Job Oracle Act → Prop
  | .step t _ => ∀ p ∈ c.fetched t, Looks d t p.1 → d.world.db.ReportedBy p.1.targetHash p.2
  | _ => True

instance (c d : State) : (m : Move Job Oracle Act) → Decidable (WillReport c d m)
  | .step t _ => inferInstanceAs (Decidable (∀ p ∈ c.fetched t,
      d.performs t = some (.request (.fetchPrekeyBundle p.1),
        .sql (.selectUnusedPrekey p.1.targetHash)) → d.world.db.ReportedBy p.1.targetHash p.2))
  | .spawn _ | .act _ => inferInstanceAs (Decidable True)

theorem everyFetch_of_along {M : Machine Res World Job (Option Reply) Oracle Act} {w : World}
    {ms : Moves} (h : M.Along (WillReport c) (.start w) ms) :
    EveryFetch M w ms c fun d _ req b ↦ d.world.db.ReportedBy req.targetHash b := by
  rintro ms₁ t ω ms₂ d req b rfl hd hlooks hret
  exact h.at hd _ hret.fetched hlooks

/-- The one-time pre-keys that were stored. -/
def State.uploads (c : State) : List NewOneTimePrekey :=
  c.trace.flatMap fun e ↦ match okStmt e.2 with
    | some (.insertPrekeys ps) => ps
    | _ => []

/-- The base bundles that were stored, with their users. -/
def State.bases (c : State) : List (Bytes × Bytes) :=
  c.trace.filterMap fun e ↦ match okStmt e.2 with
    | some (.insertUser x) => some (x.userHashId, x.preKeyBundle)
    | some (.updateIdentity u _ _ bundle) => some (u, bundle)
    | _ => none

theorem PrekeyStored.mem_uploads {prekeyId : Int32} {publicKey : Bytes}
    (h : PrekeyStored c u prekeyId publicKey) : ⟨u, prekeyId, publicKey⟩ ∈ c.uploads := by
  obtain ⟨before, t, job, ps, -, ⟨-, a, after, htr⟩, hp, -⟩ := h
  refine List.mem_flatMap.mpr ⟨(t, ⟨.sql (.insertPrekeys ps), .ok a⟩), ?_, hp⟩
  rw [htr]
  exact List.mem_append_right _ List.mem_cons_self

theorem BaseStored.mem_bases {bundle : Bytes} (h : BaseStored c u bundle) :
    (u, bundle) ∈ c.bases := by
  rcases h with ⟨before, t, req, ⟨-, a, after, htr⟩, rfl, rfl⟩ |
    ⟨before, t, req, ⟨-, a, after, htr⟩, rfl, -⟩
  · refine List.mem_filterMap.mpr ⟨(t, ⟨.sql (.insertUser req.newUser), .ok a⟩), ?_, rfl⟩
    rw [htr]
    exact List.mem_append_right _ List.mem_cons_self
  · refine List.mem_filterMap.mpr ⟨(t, ⟨.sql (.updateIdentity u req.newIdentityDilithiumPubkey
      req.newIdentitySignature req.newPreKeyBundle), .ok a⟩), ?_, rfl⟩
    rw [htr]
    exact List.mem_append_right _ List.mem_cons_self

/-- No pre-key that was stored is the one of a base bundle of the user. -/
def State.StoredApart (codec : Codec) (c : State) : Prop :=
  ∀ x ∈ c.uploads, ∀ q ∈ c.bases, x.userHashId = q.1 → ∀ base ∈ codec.decodePreKeyBundle q.2,
    base.oneTime = (x.prekeyId.toUInt32, x.publicKey) → base.oneTime = noPrekey

instance (codec : Codec) (c : State) : Decidable (c.StoredApart codec) := by
  unfold State.StoredApart
  infer_instance

theorem State.StoredApart.keptApart (h : c.StoredApart codec) : KeptApart codec c := by
  rintro u prekeyId publicKey hstored ⟨hsome, bundle, base, hbundle, hbase, heq⟩
  rw [← heq] at hsome
  exact hsome (h _ hstored.mem_uploads _ hbundle.mem_bases rfl base hbase heq)

/-- No one-time pre-key of a base bundle is in the answers of two fetches. -/
def BaseServedOnce (codec : Codec) (c : State) : Prop :=
  ∀ t t' req req' b b', Returns c t req b → Returns c t' req' b' → t ≠ t' →
    req.targetHash = req'.targetHash → InBase codec c req.targetHash b.oneTime →
    b.oneTime ≠ b'.oneTime

/-- **When the absence of a one-time pre-key is reported.**  In a run, every answer reports what its
fetch has found if and only if each fetch, when it looks for a one-time pre-key, finds one whose id
is not 0 or, finding none, has read a bundle that has none.  In a run of this kind in which no
one-time pre-key of a base bundle is uploaded as well, none of them is served twice. -/
theorem prekey_sentinel {clock instant : Nat} {ms : Moves}
    (h : (server codec verifyDetached).run (.start (.initial clock instant)) ms = some c) :
    (EveryFetch (server codec verifyDetached) (.initial clock instant) ms c
        (fun d _ req b ↦ d.world.db.ReportedBy req.targetHash b) ↔
      EveryFetch (server codec verifyDetached) (.initial clock instant) ms c
        (fun d t req _ ↦ Tells codec d t req)) ∧
    (EveryFetch (server codec verifyDetached) (.initial clock instant) ms c
        (fun d t req _ ↦ Tells codec d t req) →
      KeptApart codec c → BaseServedOnce codec c) := by
  have hmoment {ms₁ ms₂ : Moves} {t : Nat} {ω : Oracle} {d : State}
      (hms : ms = ms₁ ++ .step t ω :: ms₂)
      (hd : (server codec verifyDetached).run (.start (.initial clock instant)) ms₁ = some d) :
      (server codec verifyDetached).run d (.step t ω :: ms₂) = some c := by
    rw [hms] at h
    obtain ⟨d', hd', hrest⟩ := Machine.run_append.mp h
    obtain rfl := Option.some.inj (hd.symm.trans hd')
    exact hrest
  refine ⟨⟨fun hall ms₁ t ω ms₂ d req b hms hd hlooks hret ↦ ?_,
    fun hall ms₁ t ω ms₂ d req b hms hd hlooks hret ↦ ?_⟩, fun hall hapart ↦ ?_⟩
  · exact (reportedBy_iff ⟨clock, instant, ms₁, hd⟩ hlooks (hmoment hms hd) hret).mp
      (hall ms₁ t ω ms₂ d req b hms hd hlooks hret)
  · exact (reportedBy_iff ⟨clock, instant, ms₁, hd⟩ hlooks (hmoment hms hd) hret).mpr
      (hall ms₁ t ω ms₂ d req b hms hd hlooks hret)
  · intro t t' req req' b b' hret _ _ _ hbase
    obtain ⟨ms₁, ω, ms₂, d, hms, hd, hlooks⟩ := looks_of_returns h hret
    rcases oneTime_of_returns ⟨clock, instant, ms₁, hd⟩ hlooks (hmoment hms hd) hret
      (hall ms₁ t ω ms₂ d req b hms hd hlooks hret) with hnone | ⟨prekeyId, publicKey, hstored, heq⟩
    · exact absurd hnone hbase.1
    · rw [heq] at hbase
      exact absurd hbase (hapart _ _ _ hstored)

namespace Sample

/-- Bundles of one byte for the id of the one-time pre-key, and the pre-key. -/
def bundleCodec : Codec where
  decodePreKeyBundle b := some ⟨UInt32.ofNat (b.headD 0).toNat, b.tail, [], none, []⟩
  encodePreKeyMessage := Sample.codec.encodePreKeyMessage
  decodePreKeyMessage := Sample.codec.decodePreKeyMessage
  encodeSignalMessage := Sample.codec.encodeSignalMessage
  decodeSignalMessage := Sample.codec.decodeSignalMessage
  decodeWsRequest := Sample.codec.decodeWsRequest
  decodeBase64 := Sample.codec.decodeBase64

/-- The state a run of the server with these bundles leads to. -/
def bundleFinal (ms : Moves) : Option State :=
  (server bundleCodec (verify prekeySigned)).run (.start (.initial 0 0)) ms

/-- User 2 registers a bundle with the one-time pre-key 5, and user 1 fetches it twice: up to the
moment in which the second fetch looks for a pre-key. -/
def baseRunLook : Moves :=
  registers 0 1 ++ .spawn (.request (.register ⟨word 2, [1], key 2, [1], [5, 7], 0⟩)) :: steps 1 1 ++
  .spawn (.request (.fetchPrekeyBundle bundleFetch)) :: steps 2 4 ++
  .spawn (.request (.fetchPrekeyBundle bundleFetch)) :: steps 3 3

def baseRun : Moves := baseRunLook ++ steps 3 1

def baseBundle : PreKeyBundle := ⟨5, [7], [], none, []⟩

def baseReply : Reply := ⟨true, .fetchPrekeyBundle { success := true, bundle := some baseBundle }, ""⟩

theorem returns_baseBundle {c : State} {t : Nat}
    (h : c.answered t = some (.request (.fetchPrekeyBundle bundleFetch), baseReply)) :
    Returns c t bundleFetch baseBundle := ⟨baseReply, _, h, rfl, rfl, rfl⟩

/-- The one-time pre-key in the bundle that a user has in the table. -/
theorem inBase_of_row {ms : Moves} {c : State} {u bundle : Bytes} {base : PreKeyBundle}
    (hc : bundleFinal ms = some c)
    (hrow : (u, bundle) ∈ c.world.db.users.map fun x ↦ (x.userHashId, x.preKeyBundle))
    (hbase : bundleCodec.decodePreKeyBundle bundle = some base) (hsome : base.oneTime ≠ noPrekey) :
    InBase bundleCodec c u base.oneTime := by
  obtain ⟨x, hx, hrow⟩ := List.mem_map.mp hrow
  obtain ⟨rfl, rfl⟩ := Prod.mk.inj hrow
  exact ⟨hsome, x.preKeyBundle, base, base_stored ⟨0, 0, ms, hc⟩ hx Machine.run_nil, hbase, rfl⟩

theorem baseRun_view : ∃ c, bundleFinal baseRun = some c ∧ Returns c 2 bundleFetch baseBundle ∧
    Returns c 3 bundleFetch baseBundle ∧ InBase bundleCodec c (word 2) baseBundle.oneTime := by
  have hrun : ((bundleFinal baseRun).map fun c ↦ (c.answered 2, c.answered 3)) =
      some (some (.request (.fetchPrekeyBundle bundleFetch), baseReply),
        some (.request (.fetchPrekeyBundle bundleFetch), baseReply)) := by decide +kernel
  have husers : ((bundleFinal baseRun).map fun c ↦
      c.world.db.users.map fun x ↦ (x.userHashId, x.preKeyBundle)) =
        some [(word 1, [1]), (word 2, [5, 7])] := by decide +kernel
  obtain ⟨c, hc, hview⟩ := Option.map_eq_some_iff.mp hrun
  obtain ⟨hfirst, hsecond⟩ := Prod.mk.inj hview
  rw [hc, Option.map_some, Option.some.injEq] at husers
  have hrow : (word 2, [5, 7]) ∈ c.world.db.users.map fun x ↦ (x.userHashId, x.preKeyBundle) := by
    rw [husers]
    exact List.mem_cons_of_mem _ List.mem_cons_self
  exact ⟨c, hc, returns_baseBundle hfirst, returns_baseBundle hsecond,
    inBase_of_row hc hrow rfl (by decide)⟩

/-- User 2 registers a bundle without a one-time pre-key and uploads one, and user 1 fetches twice:
the second fetch finds no pre-key. -/
def apartRun : Moves :=
  registers 0 1 ++ .spawn (.request (.register ⟨word 2, [1], key 2, [1], [0], 0⟩)) :: steps 1 1 ++
  .spawn (.request (.uploadPrekeys ⟨word 2, [⟨7, [7]⟩], signature, 0⟩)) :: steps 2 4 ++
  .spawn (.request (.fetchPrekeyBundle bundleFetch)) :: steps 3 5 ++
  .spawn (.request (.fetchPrekeyBundle bundleFetch)) :: steps 4 4

def apartReply (prekeyId : UInt32) (publicKey : Bytes) : Reply :=
  ⟨true, .fetchPrekeyBundle
    { success := true, bundle := some ⟨prekeyId, publicKey, [], none, []⟩ }, ""⟩

theorem baseRunLook_view : ∃ d, bundleFinal baseRunLook = some d ∧ Looks d 3 bundleFetch ∧
    d.world.db.nextPrekey (word 2) = none ∧ ¬ d.world.db.ReportedBy (word 2) baseBundle := by
  have hrun : ((bundleFinal baseRunLook).map fun d ↦
      (d.performs 3, d.world.db.nextPrekey (word 2))) =
        some (some (.request (.fetchPrekeyBundle bundleFetch), .sql (.selectUnusedPrekey (word 2))),
          none) := by decide +kernel
  obtain ⟨d, hd, hview⟩ := Option.map_eq_some_iff.mp hrun
  obtain ⟨hperforms, hnone⟩ := Prod.mk.inj hview
  refine ⟨d, hd, hperforms, hnone, ?_⟩
  unfold Db.ReportedBy
  rw [hnone]
  rintro ⟨hid, -⟩
  exact absurd hid (by decide)

end Sample

open Sample in
/-- No one-time pre-key was ever uploaded, and both fetches return the one of the base bundle. -/
theorem base_prekey_served_twice : ∃ c d, bundleFinal baseRun = some c ∧
    bundleFinal baseRunLook = some d ∧ Looks d 3 bundleFetch ∧
    d.world.db.nextPrekey (word 2) = none ∧ ¬ d.world.db.ReportedBy (word 2) baseBundle ∧
    Returns c 3 bundleFetch baseBundle ∧ ¬ BaseServedOnce bundleCodec c := by
  obtain ⟨c, hc, hfirst, hsecond, hbase⟩ := baseRun_view
  obtain ⟨d, hd, hlooks, hnone, hunreported⟩ := baseRunLook_view
  exact ⟨c, d, hc, hd, hlooks, hnone, hunreported, hsecond, fun honce ↦
    honce 2 3 _ _ _ _ hfirst hsecond (by decide) rfl hbase rfl⟩

open Sample in
/-- One fetch finds the uploaded pre-key and the other a bundle without one, and no pre-key was
uploaded that is in a bundle. -/
theorem prekey_sentinel_apartRun : ∃ c, bundleFinal apartRun = some c ∧
    (∃ b, Returns c 3 bundleFetch b ∧ b.oneTime = (7, [7])) ∧
    (∃ b, Returns c 4 bundleFetch b ∧ b.oneTime = noPrekey) ∧
    EveryFetch (server bundleCodec (Sample.verify prekeySigned)) (.initial 0 0) apartRun c
      (fun d t req _ ↦ Tells bundleCodec d t req) ∧
    KeptApart bundleCodec c ∧ InBase bundleCodec c (word 1) (1, []) ∧
    BaseServedOnce bundleCodec c := by
  have hbundles : ((bundleFinal apartRun).map fun c ↦ (c.answered 3, c.answered 4)) =
      some (some (.request (.fetchPrekeyBundle bundleFetch), apartReply 7 [7]),
        some (.request (.fetchPrekeyBundle bundleFetch), apartReply 0 [])) := by decide +kernel
  have hreports : ∀ c ∈ bundleFinal apartRun,
      Machine.check (server bundleCodec (Sample.verify prekeySigned))
        (fun d m ↦ decide (WillReport c d m)) (.start (.initial 0 0)) apartRun = true := by
    decide +kernel
  have hstored : ∀ c ∈ bundleFinal apartRun, c.StoredApart bundleCodec := by decide +kernel
  have husers : ((bundleFinal apartRun).map fun c ↦
      c.world.db.users.map fun x ↦ (x.userHashId, x.preKeyBundle)) =
        some [(word 1, [1]), (word 2, [0])] := by decide +kernel
  obtain ⟨c, hc, hbundles⟩ := Option.map_eq_some_iff.mp hbundles
  obtain ⟨hfirst, hsecond⟩ := Prod.mk.inj hbundles
  rw [hc, Option.map_some, Option.some.injEq] at husers
  have hapart : KeptApart bundleCodec c := (hstored c hc).keptApart
  have hsentinel := prekey_sentinel hc
  have htells := hsentinel.1.mp (everyFetch_of_along (Machine.along_of_check (hreports c hc)))
  refine ⟨c, hc, ⟨_, ⟨_, _, hfirst, rfl, rfl, rfl⟩, rfl⟩, ⟨_, ⟨_, _, hsecond, rfl, rfl, rfl⟩, rfl⟩,
    htells, hapart, ?_, hsentinel.2 htells hapart⟩
  have hrow : (word 1, [1]) ∈ c.world.db.users.map fun x ↦ (x.userHashId, x.preKeyBundle) := by
    rw [husers]
    exact List.mem_cons_self
  exact inBase_of_row hc hrow rfl (by decide)

end ZenthDht
