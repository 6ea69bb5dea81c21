import ZenthDht.Spec.Blind
import ZenthDht.Spec.Fetch
import ZenthDht.Safety.Durability
import ZenthDht.Safety.Mailboxes

/-!
# The cleanup is not noticed

A run of the server is compared with the run in which the cleanup task takes no step.  What the
cleanup removes has expired, so nobody is to notice: the limiters, the registry of transfers and all
requests answer alike in both runs (`cleanup_unnoticed`).

There is one exception.  A request that loads rows that expire reads the clock and executes its
query later.  When a purge that names a later time comes between, the query does not find rows that
had not expired at the time the request has read: the purge has *overtaken* the request.
-/

namespace ZenthDht

open Conc

variable {codec : Codec} {verifyDetached : Bytes → Bytes → Bytes → Bool}
variable {c c' c₁ : State} {ms : Moves} {t : Nat}

/-- The job is a round of the cleanup. -/
def Job.isCleanup : Job → Bool
  | .cleanup _ => true
  | _ => false

/-! ## Purges and queries of a run -/

/-- A query of rows that expire, with its table and the time it names. -/
def queried : Event Res → Option (Store × NaiveDateTime)
  | ⟨.sql (.countMessages _ _ n), _⟩ | ⟨.sql (.loadMessages _ _ n _), _⟩ => some (.messages, n)
  | ⟨.sql (.loadRelay _ _ n _), _⟩ => some (.relayMessages, n)
  | ⟨.sql (.selectBlob _ n), _⟩ => some (.syncBlobs, n)
  | _ => none

/-- Rows of the table have been purged that had expired before some time after `n`. -/
def PurgedAfter (tr : History) (table : Store) (n : NaiveDateTime) : Prop :=
  ∃ u e n', (u, e) ∈ tr ∧ purged e = some (table, n') ∧ n < n'

/-- A query of the thread `t` names a time before that of a purge that has come first and has
removed rows of its table. -/
def Late (tr : History) (t : Nat) : Prop :=
  ∃ pre e post table n, tr = pre ++ (t, e) :: post ∧ queried e = some (table, n) ∧
    PurgedAfter pre table n

/-- Between a reading of the clock by the thread `t` and its query, which names that reading, a purge
with a later reading has removed rows of the table. -/
def Overtaken (tr : History) (t : Nat) : Prop :=
  ∃ pre mid post e table, ∃ n : Nat, tr = pre ++ (t, ⟨.clock, n⟩) :: (mid ++ (t, e) :: post) ∧
    queried e = some (table, (n : NaiveDateTime)) ∧ PurgedAfter mid table n

/-- The thread makes its first step after all purges. -/
def AfterPurges (tr : History) (t : Nat) : Prop :=
  ∀ e ∈ tr.dropWhile fun e ↦ e.1 ≠ t, purged e.2 = none

/-- A thread that comes after all purges has not been overtaken. -/
theorem AfterPurges.not_overtaken {tr : History} (h : AfterPurges tr t) : ¬ Overtaken tr t := by
  rintro ⟨pre, mid, post, e, table, n, rfl, -, u, e', n', hmid, hp, -⟩
  have hmem : (u, e') ∈ (pre ++ (t, ⟨.clock, n⟩) :: (mid ++ (t, e) :: post)).dropWhile
      fun e ↦ e.1 ≠ t := by
    clear h
    induction pre with
    | nil =>
        rw [List.nil_append, List.dropWhile_cons_of_neg (by simp)]
        exact List.mem_cons_of_mem _ (List.mem_append_left _ hmid)
    | cons x pre ih =>
        rw [List.cons_append, List.dropWhile_cons]
        split
        · exact ih
        · exact List.mem_cons_of_mem _
            (List.mem_append_right _ (List.mem_cons_of_mem _ (List.mem_append_left _ hmid)))
  exact nomatch hp.symm.trans (h _ hmem)

theorem PurgedAfter.mono {tr tr' : History} {table : Store} {n : NaiveDateTime}
    (h : PurgedAfter tr table n) (hsub : ∀ e ∈ tr, e ∈ tr') : PurgedAfter tr' table n := by
  obtain ⟨u, e, n', he, hrest⟩ := h
  exact ⟨u, e, n', hsub _ he, hrest⟩

theorem Late.append {tr : History} (h : Late tr t) (ext : History) :
    Late (tr ++ ext) t := by
  obtain ⟨pre, e, post, table, n, rfl, hrest⟩ := h
  exact ⟨pre, e, post ++ ext, table, n, by simp, hrest⟩

/-- The message ids that a move purges. -/
def purgedIds (c : State) : Move Job Oracle Act → Option (List Bytes)
  | .step t ω =>
    match c.performs t with
    | some (_, .sql (.purgeMessages n)) =>
      if ω.fails then none
      else some ((c.world.db.messages.filter fun x ↦ x.expiresAt < n).map MessageModel.messageId)
    | _ => none
  | _ => none

/-- The message ids that have been purged in a run. -/
def allPurgedIds (codec : Codec) (verifyDetached : Bytes → Bytes → Bytes → Bool) (c : State)
    (ms : Moves) : List Bytes :=
  ((server codec verifyDetached).seen purgedIds c ms).flatten

/-- No message is inserted under an id of a message that was purged before. -/
def NoReuse (codec : Codec) (verifyDetached : Bytes → Bytes → Bytes → Bool) (c₀ : State)
    (ms : Moves) : Prop :=
  ∀ pre t ω post (c : State) job m, ms = pre ++ .step t ω :: post →
    (server codec verifyDetached).run c₀ pre = some c →
    c.performs t = some (job, .sql (.insertMessage m)) →
    m.messageId ∉ allPurgedIds codec verifyDetached c₀ pre

/-- `NoReuse`, computed: `ids` have been purged before. -/
def checkReuse (codec : Codec) (verifyDetached : Bytes → Bytes → Bytes → Bool) :
    List Bytes → State → Moves → Bool
  | _, _, [] => true
  | ids, c, m :: ms =>
    (match m with
      | .step t _ =>
        match c.performs t with
        | some (_, .sql (.insertMessage msg)) => !ids.contains msg.messageId
        | _ => true
      | _ => true) &&
    match (server codec verifyDetached).next c m with
    | some c' => checkReuse codec verifyDetached (ids ++ (purgedIds c m).getD []) c' ms
    | none => true

theorem unused_of_check {ids : List Bytes}
    (h : checkReuse codec verifyDetached ids c ms = true) {pre post : Moves} {ω : Oracle}
    {d : State} {job : Job} {msg : NewMessage} (hms : ms = pre ++ .step t ω :: post)
    (hpre : (server codec verifyDetached).run c pre = some d)
    (hperf : d.performs t = some (job, .sql (.insertMessage msg))) :
    msg.messageId ∉ ids ++ allPurgedIds codec verifyDetached c pre := by
  induction pre generalizing ids c ms with
  | nil =>
      obtain rfl := Option.some.inj hpre
      subst hms
      simp only [List.nil_append, checkReuse, hperf, Bool.and_eq_true, Bool.not_eq_true'] at h
      simp only [allPurgedIds, Machine.seen, List.flatten_nil, List.append_nil]
      intro hmem
      exact absurd (List.contains_iff_mem.mpr hmem) (by rw [h.1]; exact Bool.false_ne_true)
  | cons m pre ih =>
      obtain ⟨c₁, hnext, hpre⟩ := Machine.run_cons.mp hpre
      subst hms
      simp only [List.cons_append, checkReuse, hnext, Bool.and_eq_true] at h
      have hrest := ih h.2 rfl hpre
      simp only [allPurgedIds, Machine.seen, hnext, List.flatten_append, ← List.append_assoc]
        at hrest ⊢
      cases hids : purgedIds c m with
      | none => simpa [hids] using hrest
      | some ids' => simpa [hids] using hrest

theorem noReuse_of_check (h : checkReuse codec verifyDetached [] c ms = true) :
    NoReuse codec verifyDetached c ms := by
  intro pre t ω post d job msg hms hpre hperf
  simpa only [List.nil_append] using unused_of_check h hms hpre hperf

/-- The answers of the limiters and of the registry of transfers. -/
def fromMemory : Event Res → Bool
  | ⟨.limiter _ _, _⟩ | ⟨.relayGetSender _, _⟩ => true
  | _ => false

/-! ## What is gone -/

/-- What the purges of a run have removed, by the ids they have removed and their events. -/
def goneBy (ids : List Bytes) (tr : History) : Gone where
  messages x := x.messageId ∈ ids ∧ PurgedAfter tr .messages x.expiresAt
  relayMessages x := PurgedAfter tr .relayMessages x.expiresAt
  syncBlobs x := PurgedAfter tr .syncBlobs x.expiresAt

/-- A query that is not late does not ask for what is gone. -/
theorem current_of_not_late {ids : List Bytes} {tr : History} {s : Stmt} {r : Res (.sql s)}
    (h : ¬ Late (tr ++ [(t, ⟨.sql s, r⟩)]) t) : s.Current (goneBy ids tr) := by
  have hlate {table : Store} {n e : NaiveDateTime}
      (hq : queried ⟨.sql s, r⟩ = some (table, n)) (hp : PurgedAfter tr table e) : e ≤ n := by
    obtain ⟨u, ev, n', hmem, hev, hlt⟩ := hp
    by_contra hgt
    exact h ⟨tr, _, [], table, n, rfl, hq, u, ev, n', hmem, hev, (not_le.mp hgt).trans hlt⟩
  cases s with
  | countMessages u since n => exact fun x hx ↦ hlate rfl hx.2
  | loadMessages u since n limit => exact fun x hx ↦ hlate rfl hx.2
  | loadRelay d since n limit => exact fun x hx ↦ hlate rfl hx
  | selectBlob d n => exact fun x hx ↦ hlate rfl hx
  | _ => trivial

theorem allPurgedIds_append {c₀ : State} {pre : Moves} {m : Move Job Oracle Act}
    (hpre : (server codec verifyDetached).run c₀ pre = some c) :
    allPurgedIds codec verifyDetached c₀ (pre ++ [m]) =
      allPurgedIds codec verifyDetached c₀ pre ++ ((purgedIds c m).getD []) := by
  rw [allPurgedIds, Machine.seen_append hpre, List.flatten_append]
  congr 1
  simp only [Machine.seen]
  cases purgedIds c m <;> cases (server codec verifyDetached).next c m <;> simp

/-- What a purge removes is gone after it. -/
theorem goneBy_has {ids : List Bytes} {tr : History} {ω : Oracle} {job : Job} {o : Op} {r : Res o}
    {k : Res o → Handler (Option Reply)} {w : World}
    (ht : c.pool[t]? = some ⟨job, .perform o k⟩)
    (hp : perform verifyDetached o ω c.world = some (r, w)) :
    (goneBy (ids ++ (purgedIds c (.step t ω)).getD []) (tr ++ [(t, ⟨o, r⟩)])).Has c.world.db
      ⟨o, r⟩ := by
  have hevent {table : Store} {n : NaiveDateTime} (hpurge : purged ⟨o, r⟩ = some (table, n))
      {e : NaiveDateTime} (he : e < n) : PurgedAfter (tr ++ [(t, ⟨o, r⟩)]) table e :=
    ⟨t, _, n, by simp, hpurge, he⟩
  refine ⟨fun n hpurge x hx hexp ↦ ⟨?_, hevent hpurge hexp⟩, fun n hpurge x _ ↦ hevent hpurge,
    fun n hpurge x _ ↦ hevent hpurge⟩
  refine List.mem_append_right _ ?_
  obtain ⟨deleted, he⟩ := eq_of_purged hpurge
  cases he
  have hω : ω.fails = false := by
    cases ω with
    | fail e => exact nomatch hp
    | _ => rfl
  simp only [purgedIds, performs_iff.mpr ⟨k, ht⟩, hω]
  exact List.mem_map_of_mem (List.mem_filter.mpr ⟨hx, decide_eq_true hexp⟩)

theorem goneBy_mono {ids ids' : List Bytes} {tr tr' : History} (hids : ∀ i ∈ ids, i ∈ ids')
    (htr : ∀ e ∈ tr, e ∈ tr') {w w' : World} (h : w.Cleaned (goneBy ids tr) w') :
    w.Cleaned (goneBy ids' tr') w' :=
  { h with
    db := h.db.mono (fun _ hx ↦ ⟨hids _ hx.1, hx.2.mono htr⟩) (fun _ hx ↦ hx.mono htr)
      (fun _ hx ↦ hx.mono htr) }

/-! ## One move -/

theorem cleanup_cleans (tick : Nat) :
    (code codec (.cleanup tick)).Obeys (fun _ o ↦ o.Cleans) (fun _ _ ↦ True) [] := by
  refine Program.Obeys.bind_any ?_ fun _ _ ↦ trivial
  unfold cleanup
  refine obeys_call trivial fun _ ↦ obeys_call trivial fun _ ↦ ?_
  split
  · refine obeys_utcNow trivial fun now ↦ ?_
    exact ⟨trivial, fun _ ↦ ⟨trivial, fun _ ↦ ⟨trivial, fun _ ↦ trivial⟩⟩⟩
  · trivial

/-- The server without the cleanup, after a run of the server with it. -/
def Behind (codec : Codec) (verifyDetached : Bytes → Bytes → Bytes → Bool) (w₀ : World)
    (ms : Moves) (c : State) (w' : World) : Prop :=
  c.world.Cleaned (goneBy (allPurgedIds codec verifyDetached (.start w₀) ms) c.trace) w'

theorem Behind.step {w₀ w' : World} {m : Move Job Oracle Act}
    (hrun : (server codec verifyDetached).run (.start w₀) ms = some c)
    (hs : (server codec verifyDetached).Step c m c₁)
    (h : c₁.world.Cleaned (goneBy (allPurgedIds codec verifyDetached (.start w₀) ms) c.trace) w') :
    Behind codec verifyDetached w₀ (ms ++ [m]) c₁ w' := by
  refine goneBy_mono (fun i hi ↦ ?_) (fun e he ↦ ?_) h
  · rw [allPurgedIds_append hrun]
    exact List.mem_append_left _ hi
  · obtain ⟨ext, hext⟩ := Machine.trace_of_run (hs.run_cons Machine.run_nil)
    rw [hext]
    exact List.mem_append_left _ he

/-- A job that is not a round of the cleanup performs none of its operations. -/
theorem not_cleans {job : Job} {past : Past} {o : Op} (hg : Guard codec job past o)
    (hr : Reaching job o) (hj : ¬ job.isCleanup = true) :
    o ≠ .cleanupLimiters ∧ o ≠ .relayCleanup ∧ ∀ s, o = .sql s → ¬ s.Purges := by
  refine ⟨?_, ?_, ?_⟩
  · rintro rfl
    obtain ⟨tick, rfl⟩ := hr
    exact hj rfl
  · rintro rfl
    obtain ⟨tick, rfl⟩ := hr
    exact hj rfl
  · rintro s rfl hs
    cases s with
    | purgeMessages n => obtain ⟨tick, -, rfl, -⟩ := hg; exact hj rfl
    | purgeRelay n => obtain ⟨tick, -, rfl, -⟩ := hg; exact hj rfl
    | purgeBlobs n => obtain ⟨tick, -, rfl, -⟩ := hg; exact hj rfl
    | _ => exact hs

theorem hidden_of_behind {w₀ w' : World} {m : Move Job Oracle Act}
    (hrun : (server codec verifyDetached).run (.start w₀) ms = some c)
    (hno : ∀ t ω job msg, m = .step t ω → c.performs t = some (job, .sql (.insertMessage msg)) →
      msg.messageId ∉ allPurgedIds codec verifyDetached (.start w₀) ms)
    (h : Behind codec verifyDetached w₀ ms c w')
    (hs : (server codec verifyDetached).Step c m c₁) :
    (server codec verifyDetached).Hidden (fun j ↦ j.isCleanup = true) SameResult SimilarResult
      (fun c t ↦ Late c.trace t) SameAct (Behind codec verifyDetached w₀) ms c w' c₁ m := by
  have htraced := Machine.traced_of_run hrun
  cases m with
  | spawn j =>
      have hstep := hs
      cases hs with
      | spawn => exact .spawn j (Behind.step hrun hstep h)
  | act a =>
      have hstep := hs
      cases hs with
      | act ha =>
          obtain ⟨a', w₁', hsame, ha', hclean⟩ := World.Cleaned.act h ha
          exact .act hsame ha' (Behind.step hrun hstep hclean)
  | step t ω =>
      have hstep := hs
      cases hs with
      | @step _ _ j o k r w ht hp =>
      by_cases hj : j.isCleanup = true
      · refine .skip ht hj ?_
        obtain ⟨tick, rfl⟩ : ∃ tick, j = .cleanup tick := by
          cases j with
          | cleanup tick => exact ⟨tick, rfl⟩
          | _ => exact nomatch hj
        have hcleans := ((htraced.1 t _ ht).obeys (@cleanup_cleans codec tick)).1
        show World.Cleaned _ _ _
        rw [allPurgedIds_append hrun]
        refine World.Cleaned.purge ?_ hcleans (goneBy_has ht hp) hp
        exact goneBy_mono (fun i hi ↦ List.mem_append_left _ hi)
          (fun e he ↦ List.mem_append_left _ he) h
      · obtain ⟨hl, hr, hpurges⟩ := not_cleans ((htraced.1 t _ ht).obeys (code_obeys codec j)).1
          ((htraced.1 t _ ht).obeys (code_reaches codec j)).1 hj
        have hunused (s : Stmt) (hs : o = .sql s) :
            s.Unused (goneBy (allPurgedIds codec verifyDetached (.start w₀) ms) c.trace) := by
          subst hs
          cases s with
          | insertMessage msg =>
              intro x hx heq
              exact hno t ω j msg rfl (performs_iff.mpr ⟨k, ht⟩) (heq ▸ hx.1)
          | _ => trivial
        obtain ⟨r', w₁', hfollow⟩ := World.Cleaned.perform h hl hr
          (fun s hs ↦ ⟨hpurges s hs, hunused s hs⟩) hp
        refine .step ht hj hp hfollow.perform hfollow.similar (fun hfresh ↦ ?_)
          (Behind.step hrun hstep hfollow.world)
        refine hfollow.same fun s hs ↦ ?_
        subst hs
        exact current_of_not_late hfresh

/-! ## Runs -/

theorem server_omittable : (server codec verifyDetached).Omittable (fun j ↦ j.isCleanup = true)
    SameResult SimilarResult (fun c t ↦ Late c.trace t) where
  blind j _ := code_blind j
  similar j _ := code_similar j
  stays {c m c₁ t} hs h := by
    obtain ⟨ext, hext⟩ := Machine.trace_of_run (hs.run_cons Machine.run_nil)
    rw [hext]
    exact h.append ext

/-- The answers from memory do not depend on rows. -/
theorem fromMemory_eq {past past' : Past} (h : List.Forall₂ (Alike SimilarResult) past past') :
    past'.filter fromMemory = past.filter fromMemory := by
  induction h with
  | nil => rfl
  | @cons e e' past past' he _ ih =>
      obtain ⟨o, r, r', rfl, rfl, hr⟩ := he
      by_cases hmem : fromMemory ⟨o, r⟩ = true
      · have hrr : r = r' := by
          refine hr.eq ?_
          rintro s rfl
          exact nomatch hmem
        rw [← hrr, List.filter_cons_of_pos hmem, List.filter_cons_of_pos hmem, ih]
      · have hmem' : ¬ fromMemory ⟨o, r'⟩ = true := by
          cases o with
          | limiter l key => exact absurd rfl hmem
          | relayGetSender tid => exact absurd rfl hmem
          | _ => exact nofun
        rw [List.filter_cons_of_neg hmem, List.filter_cons_of_neg hmem', ih]

/-! ## The clock -/

/-- The clock is not set back. -/
def Forward (c : State) : Move Job Oracle Act → Prop
  | .act (.tick clock _) => c.world.clock ≤ clock
  | _ => True

/-- The event is the reading `n` of the clock. -/
def IsReading (e : Nat × Event Res) (n : Nat) : Prop := e.2 = ⟨.clock, n⟩

/-- Readings of the clock do not decrease, and none is later than the clock. -/
structure Clocked (c : State) : Prop where
  sorted : c.trace.Pairwise fun e e' ↦ ∀ n n', IsReading e n → IsReading e' n' → n ≤ n'
  past : ∀ e ∈ c.trace, ∀ n, IsReading e n → n ≤ c.world.clock

theorem Clocked.step {m : Move Job Oracle Act} (h : Clocked c) (hm : Forward c m)
    (hs : (server codec verifyDetached).Step c m c₁) : Clocked c₁ := by
  cases hs with
  | spawn j => exact ⟨h.sorted, h.past⟩
  | @step t ω j o k r w ht hp =>
      have hclock : w.clock = c.world.clock := perform_clock hp
      have hread (n : Nat) (hn : IsReading (t, ⟨o, r⟩) n) : n = c.world.clock := by
        cases hn
        obtain ⟨rfl, -⟩ := Prod.mk.inj (Option.some.inj hp)
        rfl
      refine ⟨List.pairwise_append.mpr ⟨h.sorted, List.pairwise_singleton _ _, ?_⟩, ?_⟩
      · intro e he e' he' n n' hn hn'
        obtain rfl := List.mem_singleton.mp he'
        rw [hread n' hn']
        exact h.past e he n hn
      · intro e he n hn
        show n ≤ w.clock
        rw [hclock]
        rcases List.mem_append.mp he with he | he
        · exact h.past e he n hn
        · obtain rfl := List.mem_singleton.mp he
          exact (hread n hn).le
  | @act a w ha =>
      refine ⟨h.sorted, fun e he n hn ↦ (h.past e he n hn).trans ?_⟩
      show c.world.clock ≤ w.clock
      cases a with
      | tick clock instant =>
          simp only [server, ZenthDht.act] at ha
          split at ha
          · obtain rfl := Option.some.inj ha
            exact hm
          · cases ha
      | setConfig config =>
          obtain rfl := Option.some.inj ha
          exact le_rfl
      | reorder db =>
          simp only [server, ZenthDht.act] at ha
          split at ha
          · obtain rfl := Option.some.inj ha
            exact le_rfl
          · cases ha
      | runSpawned i =>
          obtain ⟨_, _, rfl⟩ := Option.map_eq_some_iff.mp ha
          exact le_rfl

theorem clocked_of_run {w : World}
    (hrun : (server codec verifyDetached).run (.start w) ms = some c)
    (hforward : (server codec verifyDetached).Along Forward (.start w) ms) : Clocked c :=
  hforward.invariant (fun h hm hs ↦ h.step hm hs) hrun ⟨.nil, nofun⟩

/-- What a SYNC_FETCH_BLOB has done when it comes to its query. -/
def BlobOrder (job : Job) (past : Past) (o : Op) : Prop :=
  ∀ req, job = .request (.syncFetchBlob req) → ∀ d n, o = .sql (.selectBlob d n) →
    ∃ now : Nat, n = now ∧ Did past .clock now

theorem code_blobOrder (job : Job) :
    (code codec job).Obeys (BlobOrder job) (fun _ _ ↦ True) [] := by
  by_cases hfetch : ∃ req, job = .request (.syncFetchBlob req)
  · obtain ⟨req, rfl⟩ := hfetch
    refine Program.Obeys.bind_any (Program.Obeys.bind_any ?_ fun _ _ ↦ trivial) fun _ _ ↦ trivial
    unfold fetchBlob
    iterate 2
      split
      · trivial
    refine obeys_fresh (fun _ _ _ _ ↦ nofun) (fun _ _ ↦ trivial) fun _ _ ↦ ?_
    refine obeys_call (o := .verify _ _ _) (fun _ _ _ _ ↦ nofun) fun valid ↦ ?_
    split
    · trivial
    refine obeys_utcNow (fun _ _ _ _ ↦ nofun) fun now ↦ ?_
    refine obeys_sql ?_ (fun e ↦ by cases e <;> trivial) fun _ ↦ trivial
    rintro _ ⟨⟩ _ _ ⟨⟩
    exact ⟨now, rfl, List.mem_append_right _ List.mem_cons_self⟩
  · exact Program.obeys_of_forall _ (fun _ _ req hjob ↦ absurd ⟨req, hjob⟩ hfetch)
      fun _ _ ↦ trivial

/-- A query names a reading of the clock by its thread. -/
theorem Reachable.query_time (h : Reachable codec verifyDetached c) {job : Job} {o : Op}
    {k : Res o → Handler (Option Reply)} (ht : c.pool[t]? = some ⟨job, .perform o k⟩) {r : Res o}
    {table : Store} {n : NaiveDateTime} (hq : queried ⟨o, r⟩ = some (table, n)) :
    ∃ now : Nat, n = now ∧ (t, ⟨.clock, now⟩) ∈ c.trace := by
  obtain ⟨clock, instant, ms, hrun⟩ := h
  have hreach := Machine.guard_of_run (code_reaches codec) hrun ht
  cases o with
  | sql s =>
      cases s with
      | countMessages u since n' =>
          obtain ⟨-, rfl⟩ := Prod.mk.inj (Option.some.inj hq)
          obtain ⟨req, rfl⟩ := hreach
          obtain ⟨user, now, hpast, -, -, rfl⟩ :=
            Machine.guard_of_run (code_fetchOrder codec) hrun ht req rfl
          exact ⟨now, rfl, did_past.mp (hpast ▸ by simp [Did, FetchMessagesRequest.timedPast])⟩
      | loadMessages u since n' limit =>
          obtain ⟨-, rfl⟩ := Prod.mk.inj (Option.some.inj hq)
          obtain ⟨req, rfl⟩ := hreach
          obtain ⟨user, now, total, hpast, -, -, rfl, -⟩ :=
            Machine.guard_of_run (code_fetchOrder codec) hrun ht req rfl
          exact ⟨now, rfl, did_past.mp (hpast ▸ by
            simp [Did, FetchMessagesRequest.countedPast, FetchMessagesRequest.timedPast])⟩
      | loadRelay d since n' limit =>
          obtain ⟨-, rfl⟩ := Prod.mk.inj (Option.some.inj hq)
          obtain ⟨req, rfl⟩ := hreach
          obtain ⟨now, hdid, hs⟩ :=
            (Machine.guard_of_run (code_relayOrder codec) hrun ht req rfl).2 _ rfl
          obtain ⟨-, -, rfl, -⟩ := Stmt.loadRelay.inj hs
          exact ⟨now, rfl, did_past.mp hdid⟩
      | selectBlob d n' =>
          obtain ⟨-, rfl⟩ := Prod.mk.inj (Option.some.inj hq)
          obtain ⟨req, rfl⟩ := hreach
          obtain ⟨now, rfl, hdid⟩ :=
            Machine.guard_of_run (@code_blobOrder codec) hrun ht req rfl _ _ rfl
          exact ⟨now, rfl, did_past.mp hdid⟩
      | _ => cases hq
  | _ => cases hq

/-- A purge names a reading of the clock by its thread. -/
theorem Reachable.purge_time (h : Reachable codec verifyDetached c) {job : Job} {o : Op}
    {k : Res o → Handler (Option Reply)} (ht : c.pool[t]? = some ⟨job, .perform o k⟩) {r : Res o}
    {table : Store} {n : NaiveDateTime} (hp : purged ⟨o, r⟩ = some (table, n)) :
    ∃ now : Nat, n = now ∧ (t, ⟨.clock, now⟩) ∈ c.trace := by
  have hguard := h.guard ht
  obtain ⟨a, he⟩ := eq_of_purged hp
  cases he
  cases table with
  | _ =>
      obtain ⟨tick, now, -, -, hdid, rfl⟩ := hguard
      exact ⟨now, rfl, did_past.mp hdid⟩

/-- While the clock is not set back, a thread is late only if it has been overtaken. -/
theorem Late.overtaken (h : Late c.trace t) (hreach : Reachable codec verifyDetached c)
    (hclock : Clocked c) : Overtaken c.trace t := by
  obtain ⟨pre, ⟨o, r⟩, post, table, n, htr, hq, u, ⟨o', r'⟩, n', hpurge, hp, hlt⟩ := h
  obtain ⟨c₁, -, job, k, -, hc₁, rfl, ht, -⟩ := hreach.moment htr
  obtain ⟨now, rfl, hnow⟩ := hc₁.query_time ht hq
  obtain ⟨before, mid, hpre⟩ := List.append_of_mem hnow
  refine ⟨before, mid, post, _, table, now, by rw [htr, hpre]; simp, hq, u, _, n', ?_, hp, hlt⟩
  rw [hpre] at hpurge
  rcases List.mem_append.mp hpurge with hbefore | hafter
  · -- a purge before the reading names a time that is not later
    obtain ⟨early, rest, rfl⟩ := List.append_of_mem hbefore
    have hsplit : c₁.trace =
        early ++ (u, ⟨o', r'⟩) :: (rest ++ (t, ⟨.clock, now⟩) :: mid) := by
      rw [hpre, List.append_assoc, List.cons_append]
    obtain ⟨c₂, -, _, _, -, hc₂, rfl, hu, -⟩ := hc₁.moment hsplit
    obtain ⟨now', rfl, hnow'⟩ := hc₂.purge_time hu hp
    have hsorted := hclock.sorted
    rw [htr, hpre, List.append_assoc, List.append_assoc] at hsorted
    have hle := (List.pairwise_append.mp hsorted).2.2 _ hnow' (t, ⟨.clock, now⟩) (by simp) now' now
      rfl rfl
    exact absurd hle (Nat.not_le.mpr (Int.ofNat_lt.mp hlt))
  · rcases List.mem_cons.mp hafter with heq | hmid
    · cases heq
      exact nomatch hp
    · exact hmid

/-- **Cleanup.**  To every run in which no message is stored under a purged id there is the run
without the steps of the cleanup.  In it the limiters and the registry of transfers answer every
thread alike, and every thread that no purge has overtaken gets the same results, but for numbers of
deleted rows, and gives the same answer.  A thread that starts after the purges is never
overtaken. -/
theorem cleanup_unnoticed {clock instant : Nat}
    (hrun : (server codec verifyDetached).run (.start (.initial clock instant)) ms = some c)
    (hforward : (server codec verifyDetached).Along Forward (.start (.initial clock instant)) ms)
    (hno : NoReuse codec verifyDetached (.start (.initial clock instant)) ms) :
    ∃ (ms' : Moves) (c' : State), (server codec verifyDetached).Omits (fun j ↦ j.isCleanup = true) SameAct
        (.start (.initial clock instant)) ms ms' ∧
      (server codec verifyDetached).run (.start (.initial clock instant)) ms' = some c' ∧
      ∀ t job, Runs c t job → job.isCleanup = false → Runs c' t job ∧
        (past t c'.trace).filter fromMemory = (past t c.trace).filter fromMemory ∧
        (¬ Overtaken c.trace t → c'.answered t = c.answered t ∧
          List.Forall₂ (Alike SameResult) (past t c.trace) (past t c'.trace)) ∧
        (AfterPurges c.trace t → ¬ Overtaken c.trace t) := by
  have hstart : Behind codec verifyDetached (.initial clock instant) []
      (.start (.initial clock instant)) (.initial clock instant) :=
    World.cleaned_initial _ clock instant
  obtain ⟨ms', c', homits, hrun', hshadows, -⟩ := Machine.omits_of_hidden
    (A := SameAct) (R := Behind codec verifyDetached (.initial clock instant)) server_omittable
    hstart (fun pre m post d w' d₁ hms hpre hR hs ↦ hidden_of_behind hpre
      (fun t ω job msg hm hperf ↦ hno pre t ω post d job msg (hm ▸ hms) hpre hperf) hR hs) hrun
  refine ⟨ms', c', homits, hrun', ?_⟩
  rintro t job ⟨rest, ht⟩ hjob
  have hloud : ¬ job.isCleanup = true := Bool.eq_false_iff.mp hjob
  obtain ⟨rest', ht', -, hpast⟩ := hshadows.kept t _ ht hloud
  refine ⟨⟨rest', ht'⟩, fromMemory_eq hpast, fun hfresh ↦ ?_, AfterPurges.not_overtaken⟩
  obtain ⟨hsame, -, hsamePast⟩ := hshadows.heard t _ ht hloud fun hlate ↦
    hfresh (hlate.overtaken ⟨clock, instant, ms, hrun⟩ (clocked_of_run hrun hforward))
  refine ⟨?_, hsamePast⟩
  simp only [State.answered, hsame, ht]

namespace Sample

/-- A message that expires after an hour. -/
def shortLived : ZenthSignalEnvelope := { envelope with sequenceNumber := 1 }

/-- Another one, which does not expire. -/
def longLived : ZenthSignalEnvelope := { envelope with messageId := [8] }

def fetchBoth : FetchMessagesRequest := ⟨word 2, 0, 0, 4, signature⟩

def cleanupSigned : List (Bytes × Bytes) :=
  [(key 1, shortLived.signedData Sample.codec), (key 1, longLived.signedData Sample.codec),
   (key 2, fetchBoth.signedData)]

/-- The first message is purged, the second one is sent, and user 2 fetches. -/
def purgeRun : Moves :=
  registers 0 1 ++ registers 1 2 ++ .spawn (.request (.sendMessage shortLived)) :: steps 2 8 ++
    .act (.tick 3600000001 0) :: .spawn (.cleanup 12) :: steps 3 6 ++
    .spawn (.request (.sendMessage longLived)) :: steps 4 7 ++
    .spawn (.request (.fetchMessages fetchBoth)) :: steps 5 6

/-- An entry expires between the reading of the clock of a RELAY_FETCH and its query, and so does a
purge. -/
def overtakenRun : Moves :=
  .spawn (relayPush 1) :: steps 0 5 ++ .spawn (.cleanup 12) :: steps 1 6 ++
    .act (.tick 59999999 0) :: .spawn (relayFetch 0) :: steps 2 3 ++
    .act (.tick 60000001 0) :: .spawn (.cleanup 24) :: steps 3 6 ++ steps 2 1

end Sample

instance (c : State) : (m : Move Job Oracle Act) → Decidable (Forward c m)
  | .act (.tick clock _) => inferInstanceAs (Decidable (c.world.clock ≤ clock))
  | .act (.setConfig _) | .act (.reorder _) | .act (.runSpawned _) | .spawn _ | .step _ _ =>
    inferInstanceAs (Decidable True)

open Sample in
theorem cleanup_unnoticed_purgeRun : ∃ c, final cleanupSigned purgeRun = some c ∧
    c.world.db.messages.map MessageModel.messageId = [[8]] ∧
    c.answered 5 = some (.request (.fetchMessages fetchBoth), ⟨true, .fetchMessages
      { messages := [longLived], timestamp := 3600000 }, ""⟩) ∧
    ∃ (ms' : Moves) (c' : State), (system cleanupSigned).Omits (fun j ↦ j.isCleanup = true) SameAct
        (.start (.initial 0 0)) purgeRun ms' ∧
      (system cleanupSigned).run (.start (.initial 0 0)) ms' = some c' ∧
      c'.answered 5 = c.answered 5 := by
  have hview : (final cleanupSigned purgeRun).map (fun c ↦
      (c.world.db.messages.map MessageModel.messageId, c.answered 5,
        (c.trace.dropWhile fun e ↦ e.1 ≠ 5).all fun e ↦ (purged e.2).isNone)) =
      some ([[8]], some (.request (.fetchMessages fetchBoth), ⟨true, .fetchMessages
        { messages := [longLived], timestamp := 3600000 }, ""⟩), true) := by decide +kernel
  obtain ⟨c, hc, hfacts⟩ := Option.map_eq_some_iff.mp hview
  obtain ⟨hrows, hans, hlater⟩ : _ ∧ _ ∧ _ := by simpa only [Prod.mk.injEq] using hfacts
  obtain ⟨ms', c', homits, hrun', hsame⟩ := cleanup_unnoticed hc
    (Machine.along_of_check (by decide +kernel)) (noReuse_of_check (by decide +kernel))
  have hafter : AfterPurges c.trace 5 := fun e he ↦
    Option.isNone_iff_eq_none.mp (List.all_eq_true.mp hlater e he)
  obtain ⟨-, -, hanswer, hlast⟩ := hsame 5 _ ⟨_, answered_iff.mp hans⟩ rfl
  exact ⟨c, hc, hrows, hans, ms', c', homits, hrun', (hanswer (hlast hafter)).1⟩

open Sample in
/-- A RELAY_FETCH that is overtaken by a purge misses an entry, which it returns when the cleanup
takes no step. -/
theorem overtaken_fetch_notices : ∃ (ms' : Moves) (c c' : State),
    final relaySigned overtakenRun = some c ∧
    (system relaySigned).Along Forward (.start (.initial 0 0)) overtakenRun ∧
    NoReuse Sample.codec (Sample.verify relaySigned) (.start (.initial 0 0)) overtakenRun ∧
    (system relaySigned).Omits (fun j ↦ j.isCleanup = true) SameAct (.start (.initial 0 0))
      overtakenRun ms' ∧
    (system relaySigned).run (.start (.initial 0 0)) ms' = some c' ∧
    c.answered 2 = some (relayFetch 0, relayAnswer []) ∧
    c'.answered 2 = some (relayFetch 0, relayAnswer [(1, [1], List.replicate 12 1)]) := by
  have hans : (final relaySigned overtakenRun).map (fun c ↦ c.answered 2) =
      some (some (relayFetch 0, relayAnswer [])) := by decide +kernel
  have hans' : (final relaySigned ((system relaySigned).without Job.isCleanup
        (.start (.initial 0 0)) overtakenRun)).map (fun c ↦ c.answered 2) =
      some (some (relayFetch 0, relayAnswer [(1, [1], List.replicate 12 1)])) := by decide +kernel
  obtain ⟨c, hc, hans⟩ := Option.map_eq_some_iff.mp hans
  obtain ⟨c', hc', hans'⟩ := Option.map_eq_some_iff.mp hans'
  exact ⟨_, c, c', hc, Machine.along_of_check (by decide +kernel),
    noReuse_of_check (by decide +kernel), Machine.omits_without (fun _ ↦ .inl rfl) hc, hc', hans,
    hans'⟩

end ZenthDht
