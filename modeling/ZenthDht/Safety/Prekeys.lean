import ZenthDht.Spec.Run

/-!
# One-time pre-keys

FETCH_PREKEY_BUNDLE selects the first unused pre-key of the target and marks it in a second
statement.  Two requests that both select before either marks put the same row into their
bundles (`prekey_race`).

This is the only way: in a run where no request selects a row that another request has
selected and not yet marked, no row is put into two bundles (`prekey_handed_out_once`).
-/

namespace ZenthDht

open Conc

/-- The response of thread `t` is a success whose bundle has the one-time pre-key of row `id`. -/
def HandedOut (c : State) (t id : Nat) : Prop :=
  ∃ req reply resp bundle prekeyId publicKey,
    c.answered t = some (.request (.fetchPrekeyBundle req), reply) ∧
    reply.success = true ∧ reply.payload = .fetchPrekeyBundle resp ∧
    resp.bundle = some bundle ∧ bundle.preKeyId = prekeyId.toUInt32 ∧
    bundle.preKeyPublic = publicKey ∧
    (t, ⟨.sql (.selectUnusedPrekey req.targetHash), .ok (id, prekeyId, publicKey)⟩) ∈ c.trace

theorem HandedOut.selected {c : State} {t id : Nat} (h : HandedOut c t id) :
    ∃ (q : Nat) (u : Bytes) (prekeyId : Int32) (publicKey : Bytes), c.trace[q]? =
      some (t, ⟨.sql (.selectUnusedPrekey u), .ok (id, prekeyId, publicKey)⟩) := by
  obtain ⟨req, reply, resp, bundle, prekeyId, publicKey, -, -, -, -, -, -, hsel⟩ := h
  obtain ⟨q, hq⟩ := List.mem_iff_getElem?.mp hsel
  exact ⟨q, req.targetHash, prekeyId, publicKey, hq⟩

/-- A selection: the user it was made for, and the row it gave. -/
structure PrekeySelection where
  target : Bytes
  id : Nat
  prekeyId : Int32
  publicKey : Bytes
deriving DecidableEq

def selectedPrekey : Event Res → Option PrekeySelection
  | ⟨.sql (.selectUnusedPrekey u), .ok (id, prekeyId, publicKey)⟩ =>
    some ⟨u, id, prekeyId, publicKey⟩
  | _ => none

theorem selected_of_selectedPrekey {e : Event Res} {x : PrekeySelection}
    (h : selectedPrekey e = some x) :
    e = ⟨.sql (.selectUnusedPrekey x.target), .ok (x.id, x.prekeyId, x.publicKey)⟩ := by
  unfold selectedPrekey at h
  split at h
  · obtain rfl := Option.some.inj h
    rfl
  · exact nomatch h

/-- The row of `one_time_prekeys` an update marked. -/
def markedRow : Event Res → Option Nat
  | ⟨.sql (.markPrekeyUsed id), .ok _⟩ => some id
  | _ => none

theorem marked_of_markedRow {e : Event Res} {id : Nat} (h : markedRow e = some id) :
    ∃ n : Nat, e = ⟨.sql (.markPrekeyUsed id), .ok n⟩ := by
  unfold markedRow at h
  split at h
  · obtain rfl := Option.some.inj h
    exact ⟨_, rfl⟩
  · exact nomatch h

/-! ## The condition -/

/-- Thread `t` has selected the row `id`, has not marked it and has not answered. -/
def HoldsPrekey (c : State) (t id : Nat) : Prop :=
  (∃ e ∈ c.trace, e.1 = t ∧ (selectedPrekey e.2).any (·.id = id) = true) ∧
  (∀ e ∈ c.trace, e.1 = t → markedRow e.2 ≠ some id) ∧ c.running t = true

instance (c : State) (t id : Nat) : Decidable (HoldsPrekey c t id) :=
  inferInstanceAs (Decidable (_ ∧ _ ∧ _))

/-- The first unused pre-key of `u`. -/
def Db.nextPrekey (db : Db) (u : Bytes) : Option OneTimePrekey :=
  ((db.oneTimePrekeys.filter fun x ↦ x.userHashId = u && !x.used).insertionSort
    fun x y ↦ x.id ≤ y.id).head?

/-- What has to hold of a move: a pre-key is not selected while another thread holds it. -/
def Unshared (c : State) : Move Job Oracle Act → Prop
  | .step t _ =>
    match c.pool[t]? with
    | some ⟨_, .perform (.sql (.selectUnusedPrekey u)) _⟩ =>
      ∀ x ∈ c.world.db.nextPrekey u, ∀ t' < c.pool.length, t' ≠ t → ¬ HoldsPrekey c t' x.id
    | _ => True
  | _ => True

/-- The owner of the pre-key that an operation selects. -/
def Op.selectsPrekeyOf : Op → Option Bytes
  | .sql (.selectUnusedPrekey u) => some u
  | _ => none

theorem unshared_step {c : State} {t : Nat} {ω : Oracle} : Unshared c (.step t ω) ↔
    ∀ u ∈ c.about Op.selectsPrekeyOf t, ∀ x ∈ c.world.db.nextPrekey u,
      ∀ t' < c.pool.length, t' ≠ t → ¬ HoldsPrekey c t' x.id := by
  dsimp only [Unshared]
  split
  next hp => simp [State.about, State.performs, hp, Op.selectsPrekeyOf]
  next hno =>
    refine iff_of_true trivial fun u h ↦ ?_
    obtain ⟨job, o, k, hp, ho⟩ := about_iff.mp h
    unfold Op.selectsPrekeyOf at ho
    split at ho
    · exact (hno _ _ _ hp).elim
    · cases ho

instance (c : State) : (m : Move Job Oracle Act) → Decidable (Unshared c m)
  | .step _ _ => decidable_of_iff _ unshared_step.symm
  | .spawn _ | .act _ => inferInstanceAs (Decidable True)

/-- The selection gives the first unused pre-key. -/
theorem nextPrekey_of_select {now : NaiveDateTime} {db : Db} {u : Bytes} {id : Nat}
    {prekeyId : Int32} {publicKey : Bytes}
    (h : ((Stmt.selectUnusedPrekey u).exec now db).1 = .ok (id, prekeyId, publicKey)) :
    ∃ x ∈ db.nextPrekey u, x.id = id ∧ x ∈ db.oneTimePrekeys ∧ x.used = false := by
  simp only [Stmt.exec] at h
  unfold Db.nextPrekey
  cases hl : (db.oneTimePrekeys.filter fun x ↦ x.userHashId = u && !x.used).insertionSort
      (fun x y ↦ x.id ≤ y.id) with
  | nil =>
      rw [hl] at h
      exact nomatch h
  | cons x l =>
      rw [hl] at h
      have hid : x.id = id := congrArg Prod.fst (Except.ok.inj h)
      have hx : x ∈ db.oneTimePrekeys.filter fun x ↦ x.userHashId = u && !x.used := by
        rw [← (List.perm_insertionSort (fun x y : OneTimePrekey ↦ x.id ≤ y.id) _).mem_iff, hl]
        exact List.mem_cons_self
      obtain ⟨hx, hu⟩ := List.mem_filter.mp hx
      simp only [Bool.and_eq_true, Bool.not_eq_true'] at hu
      exact ⟨x, rfl, hid, hx, hu.2⟩

/-! ## Marked rows stay marked -/

/-- The row `id` is not going to be selected any more. -/
def Spent (db : Db) (id : Nat) : Prop :=
  (∀ x ∈ db.oneTimePrekeys, x.id = id → x.used = true) ∧ id < db.seq.oneTimePrekeys

theorem Spent.exec {now : NaiveDateTime} {db : Db} {s : Stmt} {id : Nat} (h : Spent db id) :
    Spent (s.exec now db).2 id := by
  refine ⟨fun x hx hid ↦ ?_, h.2.trans_le seq_oneTimePrekeys_exec⟩
  rcases mem_oneTimePrekeys_exec hx with ⟨hx, -⟩ | ⟨y, hy, -, rfl⟩ | ⟨ps, -, p, -, n, hn, rfl⟩
  · exact h.1 x hx hid
  · rfl
  · exact absurd hid (Nat.ne_of_gt (h.2.trans_le hn))

theorem spent_mark (now : NaiveDateTime) {db : Db} {id : Nat} (h : id < db.seq.oneTimePrekeys) :
    Spent ((Stmt.markPrekeyUsed id).exec now db).2 id := by
  refine ⟨fun x hx hid ↦ ?_, h⟩
  rcases mem_oneTimePrekeys_exec hx with ⟨-, hne⟩ | ⟨y, -, -, rfl⟩ | ⟨ps, hs, -⟩
  · exact absurd (by rw [hid]) hne
  · rfl
  · exact nomatch hs

section Run

variable {codec : Codec} {verifyDetached : Bytes → Bytes → Bytes → Bool}
variable {c c' : State} {ms : Moves} {clock instant : Nat}

theorem Spent.run {id : Nat} (h : Spent c.world.db id)
    (hrun : (server codec verifyDetached).run c ms = some c') : Spent c'.world.db id := by
  refine Machine.run_invariant (I := fun d ↦ Spent d.world.db id) ?_ hrun h
  rintro d m d' hd hs
  rcases Step.db hs with hsame | ⟨t, job, s, he⟩
  · exact ⟨fun x hx ↦ hd.1 x (hsame.oneTimePrekeys.mem_iff.mpr hx), hsame.seq ▸ hd.2⟩
  · rw [he.db]
    exact hd.exec

variable (h : (server codec verifyDetached).run (.start (.initial clock instant)) ms = some c)
include h

/-- A request selects once. -/
theorem select_once {t q q' : Nat} {u u' : Bytes} {r r' : _}
    (hq : c.trace[q]? = some (t, ⟨.sql (.selectUnusedPrekey u), r⟩))
    (hq' : c.trace[q']? = some (t, ⟨.sql (.selectUnusedPrekey u'), r'⟩)) : q = q' := by
  obtain ⟨-, -, hnone, -⟩ := guard_at (code_obeys codec) h hq
  obtain ⟨-, -, hnone', -⟩ := guard_at (code_obeys codec) h hq'
  rcases lt_trichotomy q q' with hlt | heq | hlt
  · exact absurd (did_take.mpr ⟨q, hlt, hq⟩) (hnone' u r)
  · exact heq
  · exact absurd (did_take.mpr ⟨q', hlt, hq'⟩) (hnone u' r')

/-- A request that handed a row out has marked it. -/
theorem mark_of_handedOut {t id : Nat} (hout : HandedOut c t id) :
    ∃ n : Nat, (t, ⟨.sql (.markPrekeyUsed id), .ok n⟩) ∈ c.trace := by
  obtain ⟨req, reply, resp, bundle, prekeyId, publicKey, hpool, -, hpay, hbundle, -, -, hsel⟩ := hout
  have hc : Reachable codec verifyDetached c := ⟨clock, instant, ms, h⟩
  obtain ⟨q, hq⟩ := List.mem_iff_getElem?.mp hsel
  obtain ⟨row, base, -, -, ⟨-, hnone⟩ | ⟨id', pid, pk, n, hsel', hmark, -⟩⟩ :=
    hc.answer (answered_iff.mp hpool) reply rfl resp bundle hpay hbundle
  · obtain ⟨q', hq'⟩ := List.mem_iff_getElem?.mp (did_past.mp hnone)
    rw [select_once h hq' hq, hq] at hq'
    exact nomatch hq'
  · obtain ⟨q', hq'⟩ := List.mem_iff_getElem?.mp (did_past.mp hsel')
    rw [select_once h hq' hq, hq] at hq'
    obtain rfl : id = id' := by
      simp only [Option.some.injEq, Prod.mk.injEq, Sigma.mk.injEq, heq_eq_eq, Except.ok.injEq,
        true_and] at hq'
      exact hq'.1
    exact ⟨n, did_past.mp hmark⟩

/-- A row that was selected has been inserted, and ids are not given out again. -/
theorem selected_below {t id : Nat} {u : Bytes} {prekeyId : Int32} {publicKey : Bytes}
    (he : (t, ⟨.sql (.selectUnusedPrekey u), .ok (id, prekeyId, publicKey)⟩) ∈ c.trace) :
    id < c.world.db.seq.oneTimePrekeys := by
  have hc : Reachable codec verifyDetached c := ⟨clock, instant, ms, h⟩
  obtain ⟨pre, post, htr⟩ := List.append_of_mem he
  obtain ⟨c₁, c₂, job, h₁, -, hexec, hr, m, ms', hs, hrun⟩ := hc.executed htr
  obtain ⟨x, -, rfl, hx, -⟩ := nextPrekey_of_select hr
  refine Machine.run_invariant (I := fun d ↦ x.id < d.world.db.seq.oneTimePrekeys) ?_ hrun ?_
  · rintro d m d' hd hs
    rcases Step.db hs with hsame | ⟨t, job, s, he⟩
    · exact hsame.seq ▸ hd
    · rw [he.db]
      exact hd.trans_le seq_oneTimePrekeys_exec
  · rw [hexec.db]
    exact (h₁.keyed.oneTimePrekeys.below x hx).trans_le seq_oneTimePrekeys_exec

/-- After a mark was executed the row is spent for the rest of the run. -/
theorem spent_of_mark {t d n id : Nat}
    (hd : c.trace[d]? = some (t, ⟨.sql (.markPrekeyUsed id), .ok n⟩)) : Spent c.world.db id := by
  obtain ⟨-, -, req, prekeyId, publicKey, -, hsel, -⟩ := guard_at (code_obeys codec) h hd
  obtain ⟨ms₁, ω, ms₂, c₁, job, k, w, rfl, h₁, hpre, hpool, hperf, h₂⟩ :=
    Machine.event_at h hd (Nat.zero_le _)
  refine Spent.run ?_ h₂
  rcases perform_sql hperf with ⟨-, e, he⟩ | ⟨-, rfl⟩
  · exact nomatch he
  · rw [← hpre] at hsel
    exact spent_mark c₁.world.clock (selected_below h₁ (did_past.mp hsel))

/-- By the time another thread selects a row, the thread that selected it before and hands it
out has marked it. -/
theorem mark_before_select (hun : (server codec verifyDetached).Along Unshared
      (.start (.initial clock instant)) ms) {q q' t t' id : Nat} {u u' : Bytes}
    {prekeyId prekeyId' : Int32} {publicKey publicKey' : Bytes} (hout : HandedOut c t id)
    (hq : c.trace[q]? = some (t, ⟨.sql (.selectUnusedPrekey u), .ok (id, prekeyId, publicKey)⟩))
    (hq' : c.trace[q']? =
      some (t', ⟨.sql (.selectUnusedPrekey u'), .ok (id, prekeyId', publicKey')⟩))
    (ht : t ≠ t') (hlt : q < q') :
    ∃ d n, d < q' ∧ c.trace[d]? = some (t, ⟨.sql (.markPrekeyUsed id), .ok n⟩) := by
  obtain ⟨ms₁, ω, ms₂, c₁, job, k, w, rfl, h₁, hpre, hpool, hperf, h₂⟩ :=
    Machine.event_at h hq' (Nat.zero_le _)
  have hnot : ¬ HoldsPrekey c₁ t id := by
    intro hholds
    rcases perform_sql hperf with ⟨-, e, he⟩ | ⟨hr, -⟩
    · exact nomatch he
    obtain ⟨x, hx, rfl, -⟩ := nextPrekey_of_select hr.symm
    have hfree := hun.at h₁
    simp only [Unshared, hpool] at hfree
    obtain ⟨⟨t₀, e⟩, he, rfl, -⟩ := hholds.1
    obtain ⟨th, hth⟩ := Machine.pool_of_mem h₁ he
    exact hfree x hx _ (List.getElem?_eq_some_iff.mp hth).1 ht hholds
  have hseen : (t, ⟨.sql (.selectUnusedPrekey u), .ok (id, prekeyId, publicKey)⟩) ∈ c₁.trace := by
    rw [hpre]
    exact mem_take_iff.mpr ⟨q, hlt, hq⟩
  obtain ⟨⟨job', rest⟩, hpool'⟩ := Machine.pool_of_mem h₁ hseen
  by_contra hnone
  have hunmarked : ∀ n : Nat, (t, ⟨.sql (.markPrekeyUsed id), .ok n⟩) ∉ c₁.trace := by
    intro n hn
    rw [hpre] at hn
    obtain ⟨d, hd, hmark⟩ := mem_take_iff.mp hn
    exact hnone ⟨d, n, hd, hmark⟩
  cases rest with
  | perform o k =>
      refine hnot ⟨⟨_, hseen, rfl, by simp [selectedPrekey]⟩, ?_, by simp only [Config.running, hpool']⟩
      rintro ⟨t₀, e⟩ he rfl hmark
      obtain ⟨n, rfl⟩ := marked_of_markedRow hmark
      exact hunmarked n he
  | ret a =>
      -- the thread has answered, so its mark is in the history already
      obtain ⟨n, hmark⟩ := mark_of_handedOut h hout
      rw [← hpre] at h₂
      have hpast := Machine.past_of_ret (Machine.Step.run_cons (.step hpool hperf) h₂) hpool'
      have hmem : (⟨.sql (.markPrekeyUsed id), .ok n⟩ : Event Res) ∈ past t c.trace :=
        mem_past.mpr hmark
      rw [hpast] at hmem
      exact hunmarked n (mem_past.mp hmem)

/-- A row is not selected again by another thread than the one that handed it out. -/
theorem not_selected_later (hun : (server codec verifyDetached).Along Unshared
      (.start (.initial clock instant)) ms) {q q' t t' id : Nat} {u u' : Bytes}
    {prekeyId prekeyId' : Int32} {publicKey publicKey' : Bytes} (hout : HandedOut c t id)
    (hq : c.trace[q]? = some (t, ⟨.sql (.selectUnusedPrekey u), .ok (id, prekeyId, publicKey)⟩))
    (hq' : c.trace[q']? =
      some (t', ⟨.sql (.selectUnusedPrekey u'), .ok (id, prekeyId', publicKey')⟩))
    (ht : t ≠ t') : ¬ q < q' := by
  intro hlt
  obtain ⟨d, n, hdlt, hd⟩ := mark_before_select h hun hout hq hq' ht hlt
  obtain ⟨ms₁, ω, ms₂, c₁, job, k, w, rfl, h₁, hpre, -, hperf, -⟩ :=
    Machine.event_at h hq' (Nat.zero_le _)
  have hspent : Spent c₁.world.db id := by
    refine spent_of_mark h₁ (t := t) (d := d) (n := n) ?_
    rw [hpre, List.getElem?_take_of_lt hdlt]
    exact hd
  rcases perform_sql hperf with ⟨-, e, he⟩ | ⟨hr, -⟩
  · exact nomatch he
  · obtain ⟨x, -, hid, hx, hunused⟩ := nextPrekey_of_select hr.symm
    rw [hspent.1 x hx hid] at hunused
    exact nomatch hunused

/-- **One-time pre-keys are one-time** in every run whose moves are `Unshared`: two requests
that handed out the same row are one request. -/
theorem prekey_handed_out_once (hun : (server codec verifyDetached).Along Unshared
      (.start (.initial clock instant)) ms) {t t' id : Nat} (hout : HandedOut c t id)
    (hout' : HandedOut c t' id) : t = t' := by
  by_contra ht
  obtain ⟨q, u, prekeyId, publicKey, hq⟩ := hout.selected
  obtain ⟨q', u', prekeyId', publicKey', hq'⟩ := hout'.selected
  rcases lt_trichotomy q q' with hlt | rfl | hlt
  · exact not_selected_later h hun hout hq hq' ht hlt
  · rw [hq] at hq'
    exact ht (congrArg Prod.fst (Option.some.inj hq'))
  · exact not_selected_later h hun hout' hq' hq (Ne.symm ht) hlt

end Run

namespace Sample

/-- The upload of user 2 and the fetch of user 1. -/
def prekeySigned : List (Bytes × Bytes) :=
  [(key 2, prekeyMessage (word 2) 0), (key 1, lookupMessage (word 1) (word 2) 5)]

/-- Users 1 and 2 register and user 2 uploads one pre-key. -/
def prekeyRun : Moves :=
  registers 0 1 ++ registers 1 2 ++
  .spawn (.request (.uploadPrekeys ⟨word 2, [⟨7, [7]⟩], signature, 0⟩)) :: steps 2 4

def bundleFetch : FetchPreKeyBundleRequest := ⟨word 1, word 2, signature, 5⟩

/-- User 1 fetches the bundle of user 2 twice, one fetch after the other. -/
def fetchRun : Moves :=
  prekeyRun ++ .spawn (.request (.fetchPrekeyBundle bundleFetch)) :: steps 3 5 ++
  .spawn (.request (.fetchPrekeyBundle bundleFetch)) :: steps 4 4

/-- Both fetches select before either marks. -/
def fetchRace : Moves :=
  prekeyRun ++ [.spawn (.request (.fetchPrekeyBundle bundleFetch)),
    .spawn (.request (.fetchPrekeyBundle bundleFetch))] ++ steps 3 4 ++ steps 4 4 ++
  steps 3 1 ++ steps 4 1

/-- The answer with the pre-key of user 2. -/
def bundleReply : Reply :=
  ⟨true, .fetchPrekeyBundle { success := true, bundle := some ⟨7, [7], [2], none, []⟩ }, ""⟩

theorem handedOut_of_answer {c : State} {t : Nat}
    (ha : c.answered t = some (.request (.fetchPrekeyBundle bundleFetch), bundleReply))
    (hs : (t, some ⟨word 2, 1, 7, [7]⟩) ∈ c.trace.map fun e ↦ (e.1, selectedPrekey e.2)) :
    HandedOut c t 1 := by
  obtain ⟨⟨t', e⟩, he, hview⟩ := List.mem_map.mp hs
  obtain ⟨rfl, hsel⟩ : t' = t ∧ selectedPrekey e = some _ := Prod.mk.inj hview
  rw [selected_of_selectedPrekey hsel] at he
  exact ⟨bundleFetch, bundleReply, _, _, 7, [7], ha, rfl, rfl, rfl, rfl, rfl, he⟩

end Sample

open Sample in
/-- Two requests are answered with the one pre-key of user 2. -/
theorem prekey_race : ∃ c, final prekeySigned fetchRace = some c ∧
    HandedOut c 3 1 ∧ HandedOut c 4 1 := by
  have hrun : ((final prekeySigned fetchRace).map fun c ↦
      (c.answered 3, c.answered 4, c.trace.map fun e ↦ (e.1, selectedPrekey e.2))) = some
      (some (.request (.fetchPrekeyBundle bundleFetch), bundleReply),
       some (.request (.fetchPrekeyBundle bundleFetch), bundleReply),
       [(0, none), (1, none), (2, none), (2, none), (2, none), (2, none),
        (3, none), (3, none), (3, none), (3, some ⟨word 2, 1, 7, [7]⟩),
        (4, none), (4, none), (4, none), (4, some ⟨word 2, 1, 7, [7]⟩), (3, none), (4, none)]) := by
    decide +kernel
  obtain ⟨c, hc, hview⟩ := Option.map_eq_some_iff.mp hrun
  obtain ⟨ha, hview⟩ := Prod.mk.inj hview
  obtain ⟨ha', hsel⟩ := Prod.mk.inj hview
  refine ⟨c, hc, handedOut_of_answer ha ?_, handedOut_of_answer ha' ?_⟩
  · rw [hsel]
    decide
  · rw [hsel]
    decide

open Sample in
theorem prekey_handed_out_once_fetchRun : ∃ c, final prekeySigned fetchRun = some c ∧
    HandedOut c 3 1 ∧ ∀ t, HandedOut c t 1 → t = 3 := by
  have hrun : ((final prekeySigned fetchRun).map fun c ↦
      (c.answered 3, c.trace.map fun e ↦ (e.1, selectedPrekey e.2))) = some
      (some (.request (.fetchPrekeyBundle bundleFetch), bundleReply),
       [(0, none), (1, none), (2, none), (2, none), (2, none), (2, none),
        (3, none), (3, none), (3, none), (3, some ⟨word 2, 1, 7, [7]⟩), (3, none),
        (4, none), (4, none), (4, none), (4, none)]) := by
    decide +kernel
  have hun : (system prekeySigned).Along Unshared (.start (.initial 0 0)) fetchRun :=
    Machine.along_of_check (by decide +kernel)
  obtain ⟨c, hc, hview⟩ := Option.map_eq_some_iff.mp hrun
  obtain ⟨ha, hsel⟩ := Prod.mk.inj hview
  have hout : HandedOut c 3 1 := handedOut_of_answer ha (by rw [hsel]; decide)
  exact ⟨c, hc, hout, fun t ht ↦ prekey_handed_out_once hc hun ht hout⟩

end ZenthDht
