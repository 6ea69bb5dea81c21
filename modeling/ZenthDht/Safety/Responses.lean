import ZenthDht.Safety.Friendships

/-!
# One response to a request

RESPOND_FRIEND_REQUEST looks for a response with a count and writes in a later statement, and the
schema has no key that keeps two responses to one request apart.  So two of them that both count
before either inserts leave two responses, and so does one whose count fails
(`responses_duplicated`).

`Db.Unanswered` is what an INSERT needs, `stillUnanswered` what a thread knows of it from its own
count and from what happened since (`Reachable.unanswered`).
-/

namespace ZenthDht

open Conc Stmt

variable {codec : Codec} {verifyDetached : Bytes → Bytes → Bytes → Bool}
variable {c c' : State} {t : Nat} {now : NaiveDateTime} {db : Db} {s : Stmt}

/-! ## Counting -/

/-- No response to the request `i` is stored. -/
def Db.Unanswered (db : Db) (i : Nat) : Prop := ∀ x ∈ db.friendResponses, x.requestId ≠ i

/-- The effect of one event on what thread `t` knows of the request `i`. -/
def unansweredStep (i t : Nat) (known : Bool) : Nat × Event Res → Bool
  | (u, ⟨.sql (.countFriendResponses j), .ok n⟩) =>
    if u = t ∧ j = i then decide (n = (0 : Nat)) else known
  | (_, ⟨.sql (.insertFriendResponse n), .ok _⟩) => if n.requestId = i then false else known
  | (_, ⟨.sql (.deleteFriendResponses ids), .ok _⟩) => if i ∈ ids then true else known
  | _ => known

/-- Thread `t` has counted no response to the request `i` and none has been inserted since, or
those have been deleted again. -/
def stillUnanswered (i t : Nat) (tr : History) : Bool := tr.foldl (unansweredStep i t) false

/-- Thread `t` has counted the responses to the request `i`. -/
def counted (i t : Nat) (tr : History) : Bool :=
  tr.any fun
    | (u, ⟨.sql (.countFriendResponses j), .ok _⟩) => u = t && j = i
    | _ => false

theorem stillUnanswered_snoc {i : Nat} {tr : History} {e : Nat × Event Res} :
    stillUnanswered i t (tr ++ [e]) = unansweredStep i t (stillUnanswered i t tr) e := by
  rw [stillUnanswered, List.foldl_append]
  rfl

theorem unanswered_exec {i u : Nat} {known : Bool} (h : known = true → db.Unanswered i)
    (hstep : unansweredStep i t known (u, ⟨.sql s, (s.exec now db).1⟩) = true) :
    (s.exec now db).2.Unanswered i := by
  cases s with
  | countFriendResponses j =>
      simp only [Stmt.exec, unansweredStep] at hstep ⊢
      split at hstep
      next hi =>
        simp only [decide_eq_true_eq, List.countP_eq_zero] at hstep
        exact fun x hx heq ↦ hstep x hx (heq.trans hi.2.symm)
      · exact h hstep
  | insertFriendResponse n =>
      simp only [Stmt.exec] at hstep ⊢
      split at hstep
      next hreq =>
        rw [if_pos hreq]
        exact h hstep
      next hreq =>
        rw [if_neg hreq]
        simp only [unansweredStep] at hstep
        split at hstep
        · exact nomatch hstep
        next hi =>
          intro x hx
          rcases List.mem_append.mp hx with hx | hx
          · exact h hstep x hx
          · obtain rfl := List.mem_singleton.mp hx
            exact hi
  | updateFriendResponses j a b g =>
      intro x hx
      obtain ⟨y, hy, rfl⟩ := List.mem_map.mp hx
      have hne := h hstep y hy
      split
      · exact hne
      · exact hne
  | deleteFriendResponses ids =>
      intro x hx
      obtain ⟨hx, hids⟩ := List.mem_filter.mp hx
      simp only [Stmt.exec, unansweredStep] at hstep
      split at hstep
      next hi =>
        rintro rfl
        simp [hi] at hids
      · exact h hstep x hx
  | deleteFriendRequestsOf u => exact fun x hx ↦ h hstep x (List.mem_of_mem_filter hx)
  | deleteUser u =>
      simp only [Stmt.exec] at hstep ⊢
      split at hstep
      next hu =>
        rw [if_pos hu]
        exact fun x hx ↦ h hstep x (List.mem_of_mem_filter hx)
      next hu =>
        rw [if_neg hu]
        exact h hstep
  | _ =>
      simp only [Stmt.exec]
      repeat' split
      all_goals exact h hstep

/-- Only statements that succeed say anything of the responses. -/
theorem stillUnanswered_quiet {i : Nat} {tr ext : History}
    (hext : ∀ u s a, (u, ⟨.sql s, .ok a⟩) ∉ ext) :
    stillUnanswered i t (tr ++ ext) = stillUnanswered i t tr := by
  induction ext generalizing tr with
  | nil => rw [List.append_nil]
  | cons e ext ih =>
      have hstep (known : Bool) : unansweredStep i t known e = known := by
        unfold unansweredStep
        split
        · exact absurd List.mem_cons_self (hext _ _ _)
        · exact absurd List.mem_cons_self (hext _ _ _)
        · exact absurd List.mem_cons_self (hext _ _ _)
        · rfl
      have hrest : ∀ u s a, (u, ⟨.sql s, .ok a⟩) ∉ ext := fun u s a hmem ↦
        hext u s a (List.mem_cons_of_mem _ hmem)
      rw [List.append_cons, ih hrest, stillUnanswered_snoc, hstep]

/-- What a thread knows of a request is so. -/
theorem Reachable.unanswered (h : Reachable codec verifyDetached c) {i : Nat}
    (hknown : stillUnanswered i t c.trace = true) : c.world.db.Unanswered i := by
  refine h.induction (I := fun d ↦ stillUnanswered i t d.trace = true → d.world.db.Unanswered i)
    ?_ ?_ hknown
  · exact fun _ _ _ ↦ nofun
  · intro d m d' hd hI hs hknown
    rcases Step.quiet_or_executes hs with hq | ⟨u, job, s, he⟩
    · obtain ⟨ext, htrace, hext⟩ := hq.trace
      rw [htrace, stillUnanswered_quiet hext] at hknown
      exact fun x hx ↦ hI hknown x (hq.db.friendResponses.mem_iff.mpr hx)
    · rw [he.trace, stillUnanswered_snoc] at hknown
      rw [he.db]
      exact unanswered_exec hI hknown

/-! ## Inserting -/

/-- The move does not insert a response next to another one: if it is the INSERT of a thread that
has counted, no response has been inserted since, and if the count failed, none is stored. -/
def insertsFirst (c : State) : Move Job Oracle Act → Bool
  | .step t ω =>
    match c.pool[t]? with
    | some ⟨_, .perform (.sql (.insertFriendResponse n)) _⟩ =>
      ω.fails || !c.world.db.hasFriendRequest n.requestId ||
        if counted n.requestId t c.trace then stillUnanswered n.requestId t c.trace
        else !c.world.db.friendResponses.any fun x ↦ x.requestId = n.requestId
    | _ => true
  | _ => true

/-- There is one response to a request at most. -/
def Db.AnsweredOnce (db : Db) : Prop :=
  (db.friendResponses.map FriendResponseModel.requestId).Nodup

theorem Db.AnsweredOnce.same {db' : Db} (h : db.AnsweredOnce) (hs : db.Same db') :
    db'.AnsweredOnce := (hs.friendResponses.map _).nodup_iff.mp h

/-- An INSERT keeps this when there was no response to the request, and other statements always
do. -/
theorem Db.AnsweredOnce.exec (h : db.AnsweredOnce)
    (hs : ∀ n, s = .insertFriendResponse n → db.hasFriendRequest n.requestId = true →
      db.Unanswered n.requestId) : (s.exec now db).2.AnsweredOnce := by
  cases s with
  | insertFriendResponse n =>
      simp only [Stmt.exec]
      split
      · exact h
      next hreq =>
        simp only [Bool.not_eq_true', Bool.not_eq_false] at hreq
        rw [Db.AnsweredOnce, List.map_append, List.nodup_append]
        refine ⟨h, by simp, fun i hi j hj hij ↦ ?_⟩
        obtain ⟨x, hx, rfl⟩ := List.mem_map.mp hi
        obtain rfl := List.mem_singleton.mp hj
        exact hs n rfl hreq x hx hij
  | updateFriendResponses i a b g =>
      have hmap : ((updateFriendResponses i a b g).exec now db).2.friendResponses.map
          FriendResponseModel.requestId = db.friendResponses.map FriendResponseModel.requestId := by
        simp only [Stmt.exec, List.map_map]
        refine List.map_congr_left fun x _ ↦ ?_
        simp only [Function.comp_apply]
        split <;> rfl
      rw [Db.AnsweredOnce, hmap]
      exact h
  | deleteFriendResponses ids => exact h.sublist (List.filter_sublist.map _)
  | deleteFriendRequestsOf u => exact h.sublist (List.filter_sublist.map _)
  | deleteUser u =>
      simp only [Stmt.exec]
      split
      · exact h.sublist (List.filter_sublist.map _)
      · exact h
  | _ =>
      simp only [Stmt.exec]
      repeat' split
      all_goals exact h

theorem Executes.answeredOnce (h : Reachable codec verifyDetached c) {m : Move Job Oracle Act}
    (hs : (server codec verifyDetached).Step c m c') {job : Job} (he : Executes c t job s c')
    (hfirst : insertsFirst c m = true) (hn : c.world.db.AnsweredOnce) :
    c'.world.db.AnsweredOnce := by
  rw [he.db]
  refine hn.exec fun n hsn hreq ↦ ?_
  subst hsn
  obtain ⟨k, ht, -⟩ := he.pool
  have hok : ((insertFriendResponse n).exec c.world.clock c.world.db).1 = .ok 1 := by
    have hreq' (seq : Sequences) :
        ({ c.world.db with seq } : Db).hasFriendRequest n.requestId = true := hreq
    simp [Stmt.exec, hreq']
  obtain ⟨ω, rfl, hω⟩ := he.move hs hok
  simp only [insertsFirst, ht, hω, hreq, Bool.not_true, Bool.or_self, Bool.false_or] at hfirst
  split at hfirst
  · exact h.unanswered hfirst
  · simpa [Db.Unanswered] using hfirst

/-! ## Listing -/

/-- Two responses with the parties in common are responses to one request. -/
theorem requestId_eq (hg : db.FriendGraph) {x y : FriendResponseModel}
    (hx : x ∈ db.friendResponses) (hy : y ∈ db.friendResponses)
    (hr : x.requesterHashId = y.requesterHashId) (hu : x.responderHashId = y.responderHashId) :
    x.requestId = y.requestId := by
  obtain ⟨x', hx', hxid, hxr, hxu⟩ := hg.linked x hx
  obtain ⟨y', hy', hyid, hyr, hyu⟩ := hg.linked y hy
  have hpair : x'.pair = y'.pair := by
    simp only [FriendRequestModel.pair, hxr, hxu, hyr, hyu, hr, hu]
  obtain rfl := List.inj_on_of_nodup_map hg.pairs hx' hy' hpair
  exact hxid.symm.trans hyid

/-- Nobody is listed twice among the responses to the requests of `u`. -/
theorem responders_nodup (hg : db.FriendGraph) (hn : db.AnsweredOnce) {u : Bytes}
    {since : Option NaiveDateTime} :
    ((db.responsesTo u since).map FriendResponse.responderHashId).Nodup := by
  rw [Db.responsesTo, List.map_map]
  refine List.Nodup.map_on (fun x hx y hy hxy ↦ ?_) (List.Nodup.of_map _ hn |>.filter _)
  simp only [List.mem_filter, Bool.and_eq_true, decide_eq_true_eq] at hx hy
  refine List.inj_on_of_nodup_map hn hx.1 hy.1 ?_
  exact requestId_eq hg hx.1 hy.1 (hx.2.1.trans hy.2.1.symm) hxy

/-- Nobody is listed twice among the acceptances by `u`. -/
theorem requesters_nodup (hk : db.Keyed) (hg : db.FriendGraph) (hn : db.AnsweredOnce) {u : Bytes}
    {since : Option NaiveDateTime} :
    ((db.acceptancesBy u since).map FriendResponse.requesterHashId).Nodup := by
  rw [acceptancesBy_eq hk hg, List.map_map]
  refine List.Nodup.map_on (fun x hx y hy hxy ↦ ?_) (List.Nodup.of_map _ hn |>.filter _)
  simp only [List.mem_filter, Bool.and_eq_true, decide_eq_true_eq] at hx hy
  refine List.inj_on_of_nodup_map hn hx.1 hy.1 ?_
  exact requestId_eq hg hx.1 hy.1 hxy (hx.2.1.1.trans hy.2.1.1.symm)

/-- **One response to a request.**  In a run in which no response is inserted next to another one,
every request has at most one response at any time, and neither of the two fetches lists anybody
twice. -/
theorem one_response_to_a_request {clock instant : Nat} {ms : Moves}
    (h : (server codec verifyDetached).run (.start (.initial clock instant)) ms = some c)
    (hfirst : (server codec verifyDetached).Along (fun d m ↦ insertsFirst d m = true)
      (.start (.initial clock instant)) ms) :
    c.world.db.AnsweredOnce ∧
    (∀ t req reply resp, c.answered t = some (.request (.fetchFriendResponses req), reply) →
      reply.payload = .fetchFriendResponses resp →
      (resp.responses.map FriendResponse.responderHashId).Nodup) ∧
    ∀ t req reply resp, c.answered t = some (.request (.fetchMyAccepted req), reply) →
      reply.payload = .fetchFriendResponses resp →
      (resp.responses.map FriendResponse.requesterHashId).Nodup := by
  -- at every state of the run
  have hrows {ms₁ ms₂ : Moves} {d : State} (hms : ms = ms₁ ++ ms₂)
      (h₁ : (server codec verifyDetached).run (.start (.initial clock instant)) ms₁ = some d) :
      d.world.db.AnsweredOnce := by
    refine (Machine.Along.invariant (S := fun d m ↦ insertsFirst d m = true)
      (I := fun d ↦ Reachable codec verifyDetached d ∧ d.world.db.AnsweredOnce) ?_
      (hms ▸ hfirst).left h₁ ⟨⟨clock, instant, [], rfl⟩, List.nodup_nil⟩).2
    rintro d m d' ⟨hd, hn⟩ hm hs
    refine ⟨hd.run (hs.run_cons Machine.run_nil), ?_⟩
    rcases Step.db hs with hsame | ⟨t, job, s, he⟩
    · exact hn.same hsame
    · exact he.answeredOnce hd hs hm hn
  -- also where a fetch has read
  have hread {t : Nat} {s : Stmt} {a : s.Out} (hmem : (t, ⟨.sql s, .ok a⟩) ∈ c.trace) :
      ∃ d, Reachable codec verifyDetached d ∧ d.world.db.AnsweredOnce ∧
        (s.exec d.world.clock d.world.db).1 = .ok a := by
    obtain ⟨pre, post, htr⟩ := List.append_of_mem hmem
    obtain ⟨ms₁, m, ms₂, d, hms, h₁, -, hr⟩ := state_of_read h htr (Nat.zero_le _)
    exact ⟨d, ⟨clock, instant, ms₁, h₁⟩, hrows hms h₁, hr⟩
  have hc : Reachable codec verifyDetached c := ⟨clock, instant, ms, h⟩
  refine ⟨hrows (List.append_nil ms).symm h, fun t req reply resp hans hresp ↦ ?_,
    fun t req reply resp hans hresp ↦ ?_⟩
  · obtain ⟨since, rows, hload, hresponses⟩ :=
      hc.answer (answered_iff.mp hans) reply rfl resp hresp
    obtain ⟨d, hd, hn, hr⟩ := hread (did_past.mp hload)
    rw [hresponses, (loadFriendResponses_ok hr).2]
    exact responders_nodup hd.friendGraph hn
  · obtain ⟨since, rows, hload, hresponses⟩ :=
      hc.answer (answered_iff.mp hans) reply rfl resp hresp
    obtain ⟨d, hd, hn, hr⟩ := hread (did_past.mp hload)
    rw [hresponses, loadAccepted_ok hr]
    exact requesters_nodup hd.keyed hd.friendGraph hn

namespace Sample

/-- User 1 asks for the friendship of user 2. -/
def askRun : Moves :=
  registers 0 1 ++ registers 1 2 ++
  .spawn (.request (.contact ⟨word 1, word 2, [3], signature, [], 1⟩)) :: steps 2 6

/-- User 2 accepts and rejects at once: both requests count before either inserts. -/
def bothRun : Moves := askRun ++
  .spawn (.request (.respondFriendRequest acceptance)) :: steps 3 4 ++
  .spawn (.request (.respondFriendRequest rejection)) :: steps 4 6 ++ steps 3 2

/-- User 2 accepts, and then rejects in a request whose count fails. -/
def failedCountRun : Moves := acceptRun ++
  .spawn (.request (.respondFriendRequest rejection)) :: steps 4 3 ++
  .step 4 (.fail "timeout") :: steps 4 2

/-- User 1 asks for the responses, in thread `t`. -/
def listRun (t : Nat) : Moves := .spawn (.request (.fetchFriendResponses (listing 1))) :: steps t 4

/-- What user 1 is told of the rejection. -/
def toldRejected : FriendResponse := ⟨word 2, word 1, false, [], signature, 0⟩

end Sample

open Sample in
/-- Two responses to the request of user 1 are stored, and the list of user 1 has both. -/
theorem responses_duplicated :
    (∃ c, final listingSigned (bothRun ++ listRun 5) = some c ∧ ¬ c.world.db.AnsweredOnce ∧
      c.answered 5 = some (.request (.fetchFriendResponses (listing 1)),
        ⟨true, .fetchFriendResponses ⟨[toldRejected, toldRequester], 0⟩, ""⟩)) ∧
    ∃ c, final listingSigned (failedCountRun ++ listRun 5) = some c ∧ ¬ c.world.db.AnsweredOnce ∧
      c.answered 5 = some (.request (.fetchFriendResponses (listing 1)),
        ⟨true, .fetchFriendResponses ⟨[toldRequester, toldRejected], 0⟩, ""⟩) := by
  have hboth : ((final listingSigned (bothRun ++ listRun 5)).map fun c ↦
      (c.world.db.friendResponses.map FriendResponseModel.requestId, c.answered 5)) =
      some ([1, 1], some (.request (.fetchFriendResponses (listing 1)),
        ⟨true, .fetchFriendResponses ⟨[toldRejected, toldRequester], 0⟩, ""⟩)) := by
    decide +kernel
  have hfailed : ((final listingSigned (failedCountRun ++ listRun 5)).map fun c ↦
      (c.world.db.friendResponses.map FriendResponseModel.requestId, c.answered 5)) =
      some ([1, 1], some (.request (.fetchFriendResponses (listing 1)),
        ⟨true, .fetchFriendResponses ⟨[toldRequester, toldRejected], 0⟩, ""⟩)) := by
    decide +kernel
  obtain ⟨c, hc, hview⟩ := Option.map_eq_some_iff.mp hboth
  obtain ⟨hids, hans⟩ := Prod.mk.inj hview
  obtain ⟨c', hc', hview'⟩ := Option.map_eq_some_iff.mp hfailed
  obtain ⟨hids', hans'⟩ := Prod.mk.inj hview'
  refine ⟨⟨c, hc, ?_, hans⟩, c', hc', ?_, hans'⟩
  · rw [Db.AnsweredOnce, hids]
    decide
  · rw [Db.AnsweredOnce, hids']
    decide

open Sample in
/-- User 2 accepts and then rejects: there is one response, which is listed once. -/
theorem one_response_to_a_request_friendRun : ∃ c,
    final listingSigned (friendRun ++ listRun 5) = some c ∧
    c.world.db.friendResponses.map FriendResponseModel.accepted = [false] ∧
    c.world.db.AnsweredOnce := by
  have hrun : ((final listingSigned (friendRun ++ listRun 5)).map fun c ↦
      c.world.db.friendResponses.map FriendResponseModel.accepted) = some [false] := by
    decide +kernel
  obtain ⟨c, hc, hview⟩ := Option.map_eq_some_iff.mp hrun
  have hfirst : (system listingSigned).Along (fun d m ↦ insertsFirst d m = true)
      (.start (.initial 0 0)) (friendRun ++ listRun 5) :=
    Machine.along_of_check (by decide +kernel)
  obtain ⟨hn, -, -⟩ := one_response_to_a_request hc hfirst
  exact ⟨c, hc, hview, hn⟩

end ZenthDht
