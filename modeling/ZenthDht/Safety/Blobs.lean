import ZenthDht.Safety.Durability

/-!
# Sync blobs

A device has at most one blob.  A push for the device stores or replaces it, a delete removes it,
and both are verified under a key that the request itself names: the server asks the sender to
show that it holds some key, and that is all.  So any key holder can replace or remove the blob
of any device (`blob_replaced_by_third_key`).

What the server does keep is in `blobs_kept`: a blob goes away only by a push or delete for its
device that is fresh and signed under the key it names, or by a purge after its expiry; and until
then a fetch for the device returns what the latest push has stored.
-/

namespace ZenthDht

open Conc

variable {codec : Codec} {verifyDetached : Bytes → Bytes → Bytes → Bool}
variable {c c' : State} {ms ms' : Moves}

/-- Why the blob `x` was replaced or removed: a fresh push for its device signed under the sender
key of the push, a fresh delete for its device signed under the requester key of the delete (the
device's own key if it has none), or the purge at a clock after its expiry. -/
def BlobRemoved (c : State) (tr : History) (t : Nat) (s : Stmt) (x : SyncBlob) : Prop :=
  (∃ req b, Runs c t (.request (.syncPushBlob req)) ∧
    req.forDeviceDilithiumPubkey = x.forDeviceDilithiumPubkey ∧ s = .upsertBlob b ∧
    FreshFor tr t req.timestamp ∧
    (t, ⟨.verify req.senderDilithiumPubkey
      (x.forDeviceDilithiumPubkey ++ req.ciphertext ++ le64 req.timestamp)
      req.authSignature, true⟩) ∈ tr) ∨
  (∃ req, Runs c t (.request (.syncDeleteBlob req)) ∧
    req.forDeviceDilithiumPubkey = x.forDeviceDilithiumPubkey ∧
    s = .deleteBlob x.forDeviceDilithiumPubkey ∧ FreshFor tr t req.timestamp ∧
    (t, ⟨.verify req.verifyKey (x.forDeviceDilithiumPubkey ++ le64 req.timestamp)
      req.signature, true⟩) ∈ tr) ∨
  (∃ tick now, Runs c t (.cleanup tick) ∧ tick % 12 = 0 ∧ (t, ⟨.clock, now⟩) ∈ tr ∧
    s = .purgeBlobs (now : Nat) ∧ x.expiresAt < (now : Nat))

/-- The statements that replace or remove the blob `b`. -/
def Stmt.Replaces (b : SyncBlob) (s : Stmt) : Prop :=
  (∃ b', s = .upsertBlob b' ∧ b'.forDeviceDilithiumPubkey = b.forDeviceDilithiumPubkey) ∨
  s = .deleteBlob b.forDeviceDilithiumPubkey ∨ ∃ now, s = .purgeBlobs now ∧ b.expiresAt < now

/-- A statement that replaces or removes a blob is one of a request that was entitled to it. -/
theorem Stmt.Replaces.removed {tr : History} {t : Nat} {job : Job} {s : Stmt} {x : SyncBlob}
    (hs : s.Replaces x) (hjob : Runs c t job) (hguard : s.Guard codec job (past t tr)) :
    BlobRemoved c tr t s x := by
  obtain ⟨b, rfl, hd⟩ | rfl | ⟨now, rfl, hexp⟩ := hs
  · obtain ⟨req, now, rfl, -, rfl, key, message, signature, ⟨-, -, hfresh, rfl, rfl, rfl⟩, hv⟩ :=
      hguard
    refine .inl ⟨req, _, hjob, hd, rfl, hfresh.freshFor, ?_⟩
    rw [← hd]
    exact did_past.mp hv
  · obtain ⟨req, rfl, hd, key, message, signature, ⟨-, hfresh, rfl, rfl, rfl⟩, hv⟩ := hguard
    refine .inr (.inl ⟨req, hjob, hd.symm, rfl, hfresh.freshFor, ?_⟩)
    rw [hd]
    exact did_past.mp hv
  · obtain ⟨tick, now, rfl, htick, hnow, rfl⟩ := hguard
    exact .inr (.inr ⟨tick, now, hjob, htick, did_past.mp hnow, rfl, hexp⟩)

theorem blob_removed (h : Reachable codec verifyDetached c)
    (hrun : (server codec verifyDetached).run c ms = some c') {x : SyncBlob}
    (hx : x ∈ c.world.db.syncBlobs) (hx' : x ∉ c'.world.db.syncBlobs) :
    ∃ before t s, Since c c' before t s ∧ BlobRemoved c' before t s x := by
  obtain ⟨ms₁, c₁, m, t, job, s, c₂, ms₂, h₁, -, he, hin, hout, h₂⟩ :=
    db_crossing (P := fun db ↦ x ∈ db.syncBlobs) (fun hsame ↦ hsame.syncBlobs.mem_iff.mp) hrun
      hx hx'
  rw [he.db] at hout
  have hs : s.Replaces x := (syncBlobs_exec hin).resolve_left hout
  exact ⟨c₁.trace, t, s, he.since h₁ h₂, hs.removed (he.runs.run h₂) ((h.run h₁).executes he)⟩

/-! ## Fetches -/

/-- A fetch that has read a blob of its device answers with it. -/
def BlobAnswer (job : Job) (past : Past) (reply : Option Reply) : Prop :=
  ∀ req, job = .request (.syncFetchBlob req) → ∀ device now ciphertext signature,
    Did past (.sql (.selectBlob device now)) (.ok (ciphertext, signature)) →
    device = req.forDeviceDilithiumPubkey ∧ reply = some ⟨true,
      .syncFetchBlob { success := true, ciphertext, signature }, ""⟩

theorem fetchBlob_answer (req : SyncBlobRequest) :
    (fetchBlob req).Obeys (fun _ _ ↦ True) (fun past r ↦ ∀ device now ciphertext signature,
      Did past (.sql (.selectBlob device now)) (.ok (ciphertext, signature)) →
      device = req.forDeviceDilithiumPubkey ∧
        r = .ok { success := true, ciphertext, signature }) [] := by
  unfold fetchBlob
  iterate 2
    split
    · exact fun _ _ _ _ hread ↦ absurd hread (by simp [Did])
  refine obeys_fresh trivial (fun t _ ↦ ?_) fun t _ ↦ obeys_call (o := .verify _ _ _) trivial
    fun valid ↦ ?_
  · exact fun _ _ _ _ hread ↦ absurd hread (by simp [Did])
  split
  · exact fun _ _ _ _ hread ↦ absurd hread (by simp [Did])
  refine obeys_utcNow trivial fun now ↦ obeys_sql trivial (fun e ↦ ?_) fun row ↦ ?_
  · cases e <;> exact fun _ _ _ _ hread ↦ absurd hread (by simp [Did])
  · intro device now' ciphertext signature hread
    obtain ⟨⟨rfl, rfl⟩, rfl⟩ : (device = req.forDeviceDilithiumPubkey ∧ now' = now) ∧
        (ciphertext, signature) = row := by simpa [Did] using hread
    exact ⟨rfl, rfl⟩

theorem code_blobAnswer (codec : Codec) (job : Job) :
    (code codec job).Obeys (fun _ _ ↦ True) (BlobAnswer job) [] := by
  by_cases hfetch : ∃ req, job = .request (.syncFetchBlob req)
  · obtain ⟨req, rfl⟩ := hfetch
    have hcall : (processCall codec (.syncFetchBlob req)).Obeys (fun _ _ ↦ True)
        (fun past r ↦ BlobAnswer (.request (.syncFetchBlob req)) past (some r)) [] := by
      refine (fetchBlob_answer req).bind fun past r hr ↦ ?_
      rintro _ ⟨⟩ device now ciphertext signature hread
      obtain ⟨rfl, rfl⟩ := hr device now ciphertext signature hread
      exact ⟨rfl, rfl⟩
    exact hcall.bind fun _ _ h ↦ h
  · exact Program.obeys_of_forall _ (fun _ _ ↦ trivial) fun _ _ req hjob ↦ absurd ⟨req, hjob⟩ hfetch

/-! ## The latest push -/

/-- The one blob of its device. -/
def Db.HasBlob (db : Db) (b : SyncBlob) : Prop :=
  b ∈ db.syncBlobs ∧ ∀ x ∈ db.syncBlobs,
    x.forDeviceDilithiumPubkey = b.forDeviceDilithiumPubkey → x = b

theorem Db.HasBlob.same {db db' : Db} {b : SyncBlob} (h : db.HasBlob b) (hs : db.Same db') :
    db'.HasBlob b :=
  ⟨hs.syncBlobs.mem_iff.mp h.1, fun x hx ↦ h.2 x (hs.syncBlobs.mem_iff.mpr hx)⟩

theorem hasBlob_upsert (now : NaiveDateTime) (db : Db) (b : SyncBlob) :
    ((Stmt.upsertBlob b).exec now db).2.HasBlob b := by
  refine ⟨upsertBlob_mem now db b, fun x hx heq ↦ ?_⟩
  rcases mem_syncBlobs_exec hx with ⟨-, hne⟩ | hnew
  · exact absurd heq.symm (hne b rfl)
  · exact (Stmt.upsertBlob.inj hnew).symm

theorem Db.HasBlob.exec {now : NaiveDateTime} {db : Db} {b : SyncBlob} {s : Stmt}
    (h : db.HasBlob b) :
    (s.exec now db).2.HasBlob b ∨ s.Replaces b ∧ ∃ a, (s.exec now db).1 = .ok a := by
  by_cases hs : s.Replaces b
  · refine .inr ⟨hs, ?_⟩
    obtain ⟨b', rfl, -⟩ | rfl | ⟨t, rfl, -⟩ := hs <;> exact ⟨_, rfl⟩
  refine .inl ⟨(syncBlobs_exec h.1).resolve_right hs, fun x hx heq ↦ ?_⟩
  rcases mem_syncBlobs_exec hx with ⟨hx, -⟩ | rfl
  · exact h.2 x hx heq
  · exact absurd (.inl ⟨x, rfl, heq⟩) hs

theorem Db.HasBlob.select {clock now : NaiveDateTime} {db : Db} {b : SyncBlob}
    (h : db.HasBlob b) (hlive : now < b.expiresAt) :
    ((Stmt.selectBlob b.forDeviceDilithiumPubkey now).exec clock db).1 =
      .ok (b.ciphertext, b.signature) := by
  refine first_of_unique (List.mem_map_of_mem (List.mem_filter.mpr ⟨h.1, by simp [hlive]⟩))
    fun row hrow ↦ ?_
  obtain ⟨x, hx, rfl⟩ := List.mem_map.mp hrow
  obtain ⟨hx, hsel⟩ := List.mem_filter.mp hx
  simp only [Bool.and_eq_true, decide_eq_true_eq] at hsel
  rw [h.2 x hx hsel.1]

/-- In the part `mid` of the history after `pre`, nothing replaces or removes the blob `b`. -/
def Unreplaced (c : State) (pre mid : History) (b : SyncBlob) : Prop :=
  ∀ mid₁ t s a mid₂, mid = mid₁ ++ (t, ⟨.sql s, .ok a⟩) :: mid₂ → ¬ BlobRemoved c (pre ++ mid₁) t s b

/-- Thread `t` runs a push that stores `b`, and has verified its signature. -/
def Pushed (c : State) (tr : History) (t : Nat) (b : SyncBlob) : Prop :=
  ∃ req, Runs c t (.request (.syncPushBlob req)) ∧
    req.forDeviceDilithiumPubkey = b.forDeviceDilithiumPubkey ∧ req.ciphertext = b.ciphertext ∧
    req.signature = b.signature ∧
    (t, ⟨.verify req.senderDilithiumPubkey req.signedData req.authSignature, true⟩) ∈ tr

/-- A blob selected before its expiry is that of the latest push. -/
theorem latest_push (h : Reachable codec verifyDetached c) {pre mid post : History} {t t' n : Nat}
    {b : SyncBlob} {now : NaiveDateTime} {r : _}
    (htr : c.trace = pre ++ (t, ⟨.sql (.upsertBlob b), .ok n⟩) ::
      (mid ++ (t', ⟨.sql (.selectBlob b.forDeviceDilithiumPubkey now), r⟩) :: post))
    (hun : Unreplaced c (pre ++ [(t, ⟨.sql (.upsertBlob b), .ok n⟩)]) mid b)
    (hlive : now < b.expiresAt) :
    Pushed c pre t b ∧ ((∃ e, r = .error (.other e)) ∨ r = .ok (b.ciphertext, b.signature)) := by
  obtain ⟨c₁, c₂, job, hc₁, rfl, he, hr, m, ms, hs, hms⟩ := h.executed htr
  refine ⟨?_, ?_⟩
  · obtain ⟨req, now, rfl, -, rfl, key, message, signature, ⟨-, -, -, rfl, rfl, rfl⟩, hv⟩ :=
      hc₁.executes he
    exact ⟨req, he.runs.run hms, rfl, rfl, rfl, did_past.mp hv⟩
  have hc₂ := he.trace
  rw [hr] at hc₂
  rw [← List.singleton_append, ← List.append_assoc, ← List.append_assoc, ← hc₂] at htr
  rw [← hc₂] at hun
  obtain ⟨ms₁, ω, ms₂, d, job', k, w, -, h₁, hd, ht, hp, h₂⟩ :=
    Machine.event_moment hms htr (by simp)
  -- the blob is there from the push to the fetch
  have hblob : d.world.db.HasBlob b := by
    refine db_undisturbed (D := Stmt.Replaces b) (fun hsame hdb ↦ Db.HasBlob.same hdb hsame)
      Db.HasBlob.exec h₁ hd (fun u s a hmem hs ↦ ?_) (he.db ▸ hasBlob_upsert _ _ b)
    obtain ⟨mid₁, mid₂, rfl⟩ := List.append_of_mem hmem
    refine hun mid₁ u s a mid₂ rfl ?_
    have hsplit : c.trace = (c₂.trace ++ mid₁) ++ (u, ⟨.sql s, .ok a⟩) :: (mid₂ ++
        (t', ⟨.sql (.selectBlob b.forDeviceDilithiumPubkey now), r⟩) :: post) := by
      rw [htr]
      simp
    obtain ⟨e₁, e₂, job₁, hreach, htrace, hexec, -, m', ms', hs', hrun'⟩ := h.executed hsplit
    rw [← htrace]
    exact hs.removed (hexec.runs.run hrun') (hreach.executes hexec)
  rcases perform_sql hp with ⟨-, e, rfl⟩ | ⟨rfl, -⟩
  · exact .inl ⟨e, rfl⟩
  · exact .inr (hblob.select hlive)

/-- **Sync blobs.**  From any state of any run on: a blob that is no longer there was replaced or
removed for one of the reasons `BlobRemoved`; and a fetch that comes after a push for the device,
with none of these in between, at a time before the expiry the push has set, returns the ciphertext
and the signature of the push unless the database fails. -/
theorem blobs_kept {clock instant : Nat}
    (h : (server codec verifyDetached).run (.start (.initial clock instant)) ms = some c)
    (hrun : (server codec verifyDetached).run c ms' = some c') :
    (∀ x ∈ c.world.db.syncBlobs, x ∉ c'.world.db.syncBlobs →
      ∃ before t s, Since c c' before t s ∧ BlobRemoved c' before t s x) ∧
    ∀ pre mid post t t' b n now r,
      c'.trace = pre ++ (t, ⟨.sql (.upsertBlob b), .ok n⟩) ::
        (mid ++ (t', ⟨.sql (.selectBlob b.forDeviceDilithiumPubkey now), r⟩) :: post) →
      Unreplaced c' (pre ++ [(t, ⟨.sql (.upsertBlob b), .ok n⟩)]) mid b → now < b.expiresAt →
      Pushed c' pre t b ∧ ((∃ e, r = .error (.other e)) ∨
        r = .ok (b.ciphertext, b.signature) ∧ ∀ req reply,
          c'.answered t' = some (.request (.syncFetchBlob req), reply) →
          reply = ⟨true, .syncFetchBlob ⟨true, b.ciphertext, b.signature, ""⟩, ""⟩) := by
  have hc : Reachable codec verifyDetached c := ⟨clock, instant, ms, h⟩
  refine ⟨fun x hx hx' ↦ blob_removed hc hrun hx hx', ?_⟩
  intro pre mid post t t' b n now r htr hun hlive
  obtain ⟨hpushed, hread⟩ := latest_push (hc.run hrun) htr hun hlive
  refine ⟨hpushed, hread.imp_right fun hr ↦ ⟨hr, fun req reply hans ↦ ?_⟩⟩
  subst hr
  have hdid : Did (past t' c'.trace) (.sql (.selectBlob b.forDeviceDilithiumPubkey now))
      (.ok (b.ciphertext, b.signature)) := did_past.mpr (by simp [htr])
  have hanswer := Machine.post_of_run (code_blobAnswer codec)
    (Machine.run_append.mpr ⟨c, h, hrun⟩) (answered_iff.mp hans)
  exact Option.some.inj (hanswer req rfl _ _ _ _ hdid).2

namespace Sample

/-- Key `i` pushes the blob `i` for the device of key 5. -/
def blobPush (i : UInt8) : SyncPushBlobRequest := ⟨key 5, [i], [i], key i, signature, 0, 60⟩

/-- The device of key 5 asks for its blob. -/
def blobFetch : SyncBlobRequest := ⟨key 5, [], signature, 0⟩

def blobSigned : List (Bytes × Bytes) :=
  [(key 1, (blobPush 1).signedData), (key 3, (blobPush 3).signedData),
   (key 5, blobFetch.signedData)]

/-- Thread `t` pushes with key `i`. -/
def pushes (t : Nat) (i : UInt8) : Moves :=
  .spawn (.request (.syncPushBlob (blobPush i))) :: steps t 5

/-- Thread `t` fetches for the device. -/
def fetches (t : Nat) : Moves := .spawn (.request (.syncFetchBlob blobFetch)) :: steps t 4

def blobReply (i : UInt8) : Reply := ⟨true, .syncFetchBlob ⟨true, [i], [i], ""⟩, ""⟩

/-- The row of a push at time 0. -/
def blobRow (i : UInt8) : SyncBlob := ⟨key 5, [i], [i], seconds 60⟩

end Sample

open Sample in
/-- The blob that key 1 has pushed for key 5 is replaced, long before its expiry, by a push that
only key 3 has signed, and the device gets that one. -/
theorem blob_replaced_by_third_key : ∃ c c' : State, final blobSigned (pushes 0 1) = some c ∧
    (system blobSigned).run c (pushes 1 3 ++ fetches 2) = some c' ∧
    blobRow 1 ∈ c.world.db.syncBlobs ∧ blobRow 1 ∉ c'.world.db.syncBlobs ∧
    (c'.world.clock : Int) < (blobRow 1).expiresAt ∧
    c.trace.filterMap (verifiedBytes ·.2) = [(key 1, (blobPush 1).signedData)] ∧
    c'.trace.filterMap (verifiedBytes ·.2) = [(key 1, (blobPush 1).signedData),
      (key 3, (blobPush 3).signedData), (key 5, blobFetch.signedData)] ∧
    c'.answered 2 = some (.request (.syncFetchBlob blobFetch), blobReply 3) := by
  have hbefore : ((final blobSigned (pushes 0 1)).map fun c ↦ (c.world.db.syncBlobs,
      c.trace.filterMap (verifiedBytes ·.2))) =
      some ([blobRow 1], [(key 1, (blobPush 1).signedData)]) := by decide +kernel
  have hafter : ((final blobSigned (pushes 0 1 ++ (pushes 1 3 ++ fetches 2))).map fun c ↦
      (c.world.db.syncBlobs, c.world.clock, c.trace.filterMap (verifiedBytes ·.2))) =
      some ([blobRow 3], 0, [(key 1, (blobPush 1).signedData),
        (key 3, (blobPush 3).signedData), (key 5, blobFetch.signedData)]) := by decide +kernel
  have hanswer : ((final blobSigned (pushes 0 1 ++ (pushes 1 3 ++ fetches 2))).bind fun c ↦
      c.answered 2) = some (.request (.syncFetchBlob blobFetch), blobReply 3) := by decide +kernel
  obtain ⟨c', hrun, hview'⟩ := Option.map_eq_some_iff.mp hafter
  rw [hrun, Option.bind_some] at hanswer
  obtain ⟨c, hc, hc'⟩ := Machine.run_append.mp hrun
  obtain ⟨d, hd, hview⟩ := Option.map_eq_some_iff.mp hbefore
  obtain rfl : d = c := Option.some.inj (hd.symm.trans hc)
  obtain ⟨hblobs, hsigned⟩ := Prod.mk.inj hview
  obtain ⟨hblobs', hview'⟩ := Prod.mk.inj hview'
  obtain ⟨hclock, hsigned'⟩ := Prod.mk.inj hview'
  refine ⟨d, c', hc, hc', by simp [hblobs], ?_, by simp [hclock, blobRow, seconds], hsigned,
    hsigned', hanswer⟩
  simp [hblobs', blobRow]

open Sample in
theorem blobs_kept_fetch : ∃ c : State, final blobSigned (pushes 0 1 ++ fetches 1) = some c ∧
    Pushed c (c.trace.take 4) 0 (blobRow 1) ∧
    c.answered 1 = some (.request (.syncFetchBlob blobFetch), blobReply 1) := by
  have hrun : ((final blobSigned (pushes 0 1 ++ fetches 1)).map fun c ↦
      (c.trace.map fun e ↦ (e.1, okStmt e.2))) = some
      ([(0, none), (0, none), (0, none), (0, none)] ++ (0, some (.upsertBlob (blobRow 1))) ::
        ([(1, none), (1, none), (1, none)] ++ [(1, some (.selectBlob (key 5) 0))])) := by
    decide +kernel
  have hanswered : ((final blobSigned (pushes 0 1 ++ fetches 1)).bind fun c ↦
      (c.answered 1).map Prod.fst) = some (.request (.syncFetchBlob blobFetch)) := by
    decide +kernel
  obtain ⟨c', hrun, htrace⟩ := Option.map_eq_some_iff.mp hrun
  rw [hrun, Option.bind_some] at hanswered
  obtain ⟨⟨_, reply⟩, hans, rfl⟩ := Option.map_eq_some_iff.mp hanswered
  obtain ⟨c, hc, hc'⟩ := Machine.run_append.mp hrun
  obtain ⟨pre, rest, htrace, hpre, hrest⟩ := List.map_eq_append_iff.mp htrace
  obtain ⟨⟨t, e⟩, rest, rfl, hpush, hrest⟩ := List.map_eq_cons_iff.mp hrest
  obtain ⟨mid, rest, rfl, hmid, hrest⟩ := List.map_eq_append_iff.mp hrest
  obtain ⟨⟨t', e'⟩, rest, rfl, hread, -⟩ := List.map_eq_cons_iff.mp hrest
  obtain ⟨rfl, hstmt⟩ : t = 0 ∧ okStmt e = some _ := Prod.mk.inj hpush
  obtain ⟨rfl, hstmt'⟩ : t' = 1 ∧ okStmt e' = some _ := Prod.mk.inj hread
  obtain ⟨n, rfl⟩ := ok_of_okStmt hstmt
  obtain ⟨r, rfl⟩ := ok_of_okStmt hstmt'
  have hun : Unreplaced c' (pre ++ [(0, ⟨.sql (.upsertBlob (blobRow 1)), .ok n⟩)]) mid
      (blobRow 1) := by
    rintro mid₁ t s a mid₂ rfl
    have hmem : (t, some s) ∈ (mid₁ ++ (t, ⟨.sql s, .ok a⟩) :: mid₂).map fun e ↦
        (e.1, okStmt e.2) := by simp [okStmt]
    rw [hmid] at hmem
    simp at hmem
  obtain ⟨hpushed, hread⟩ := (blobs_kept hc hc').2 pre mid rest 0 1 (blobRow 1) n 0 (.ok r) htrace
    hun (by decide)
  obtain ⟨-, hreply⟩ := hread.resolve_left (by nofun)
  refine ⟨c', hrun, ?_, ?_⟩
  · have hlen : pre.length = 4 := by simpa using congrArg List.length hpre
    rwa [htrace, ← hlen, List.take_left]
  · rw [hans, hreply _ _ hans]
    rfl

end ZenthDht
