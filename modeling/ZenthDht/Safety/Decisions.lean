import ZenthDht.Safety.Connections
import ZenthDht.Safety.FriendPolls
import ZenthDht.Safety.Friendships

/-!
# Learning of a decision

The requester learns of a response from the notification or from a poll.  RESPOND_FRIEND_REQUEST
notifies only when it inserts; when it updates a stored response it leaves the time of creation
alone, by which FETCH_FRIEND_RESPONSES filters.  So a decision that replaces one the requester
has already polled reaches nobody (`changed_decision_lost`).  A decision that replaces one created
after the cursor does reach the requester, as long as it is neither replaced nor deleted before the
poll reads (`decision_reaches`).
-/

namespace ZenthDht

open Conc Stmt

variable {codec : Codec} {verifyDetached : Bytes → Bytes → Bytes → Bool}
variable {c c₀ d : State} {ms ms₀ ms₁ ms₂ : Moves} {t : Nat}

/-! ## Being online -/

/-- The user is in the map and the channel has a receiver. -/
def ConnectionManager.online (cm : ConnectionManager) (u : Bytes) : Bool :=
  match cm.connections u with
  | some ch => 0 < cm.receiversOf ch
  | none => false

theorem ConnectionManager.sendToUser_online {cm : ConnectionManager} {u : Bytes}
    {n : WsNotification} (h : cm.online u = true) : (cm.sendToUser u n).1 = true := by
  unfold ConnectionManager.online at h
  unfold ConnectionManager.sendToUser
  cases hu : cm.connections u with
  | some ch =>
      rw [hu] at h
      have hpos : ¬ (cm.channels[ch]?.map Channel.receivers).getD 0 = 0 :=
        Nat.pos_iff_ne_zero.mp (of_decide_eq_true h)
      simp only [if_neg hpos]
  | none =>
      rw [hu] at h
      cases h

/-- The moment of an event of a thread that has been started since `c₀`. -/
theorem moment_since {o : Op} {r : Res o} (h₀ : Reachable codec verifyDetached c₀)
    (h₁ : (server codec verifyDetached).run c₀ ms₁ = some d) (ht : c₀.pool.length ≤ t)
    (he : (t, ⟨o, r⟩) ∈ d.trace) :
    ∃ ms ω ms' w j k v later, ms₁ = ms ++ .step t ω :: ms' ∧
      (server codec verifyDetached).run c₀ ms = some w ∧
      d.trace = w.trace ++ (t, ⟨o, r⟩) :: later ∧ w.pool[t]? = some ⟨j, .perform o k⟩ ∧
      perform verifyDetached o ω w.world = some (r, v) ∧
      (server codec verifyDetached).run
        ⟨v, w.pool.set t ⟨j, k r⟩, w.trace ++ [(t, ⟨o, r⟩)]⟩ ms' = some d := by
  obtain ⟨ext, hext⟩ := Machine.trace_of_run h₁
  obtain ⟨clock, instant, ms₀, h₀⟩ := h₀
  have hnew : (t, ⟨o, r⟩) ∉ c₀.trace := by
    rw [← mem_past, (Machine.traced_of_run h₀).2 t ht]
    exact List.not_mem_nil
  rw [hext] at he
  obtain ⟨before, later, rfl⟩ := List.append_of_mem ((List.mem_append.mp he).resolve_left hnew)
  rw [← List.append_assoc] at hext
  obtain ⟨ms, ω, ms', w, j, k, v, rfl, hrun, htr, hpool, hp, hrest⟩ :=
    Machine.event_moment h₁ hext (by simp)
  rw [← htr] at hext hrest
  exact ⟨ms, ω, ms', w, j, k, v, later, rfl, hrun, hext, hpool, hp, hrest⟩

/-- The same for a statement that succeeded. -/
theorem executed_since {s : Stmt} {a : s.Out} (h₀ : Reachable codec verifyDetached c₀)
    (h₁ : (server codec verifyDetached).run c₀ ms₁ = some d) (ht : c₀.pool.length ≤ t)
    (he : (t, ⟨.sql s, .ok a⟩) ∈ d.trace) :
    ∃ ms ω ms' w j w' later, ms₁ = ms ++ .step t ω :: ms' ∧
      (server codec verifyDetached).run c₀ ms = some w ∧ Executes w t j s w' ∧
      Reachable codec verifyDetached w' ∧ (server codec verifyDetached).run w' ms' = some d ∧
      d.trace = w.trace ++ (t, ⟨.sql s, .ok a⟩) :: later ∧ d.trace = w'.trace ++ later := by
  obtain ⟨ms, ω, ms', w, j, k, v, later, rfl, hw, htr, hpool, hp, hrest⟩ :=
    moment_since h₀ h₁ ht he
  have hstep := Machine.Step.run_cons (M := server codec verifyDetached) (.step hpool hp)
    Machine.run_nil
  rcases perform_sql hp with ⟨-, e, hr⟩ | ⟨hr, rfl⟩
  · exact nomatch hr
  refine ⟨ms, ω, ms', w, j, _, later, rfl, hw, ⟨⟨k, hpool, ?_⟩, rfl, ?_⟩,
    (h₀.run hw).run hstep, hrest, htr, ?_⟩
  · rw [hr]
  · rw [hr]
  · rw [htr, List.append_assoc, List.singleton_append]

/-- Whatever is sent to a user who is online is put into the channel. -/
theorem sent_of_online {u : Bytes} {n : WsNotification} {sent : Bool}
    (h₀ : Reachable codec verifyDetached c₀)
    (h₁ : (server codec verifyDetached).run c₀ ms₁ = some d)
    (honline : (server codec verifyDetached).Along
      (fun e _ ↦ e.world.connections.online u = true) c₀ ms₁)
    (ht : c₀.pool.length ≤ t) (he : (t, ⟨.sendToUser u n, sent⟩) ∈ d.trace) : sent = true := by
  obtain ⟨ms, ω, ms', w, j, k, v, later, rfl, hrun, -, -, hp, -⟩ := moment_since h₀ h₁ ht he
  obtain ⟨hsent, -⟩ := Prod.mk.inj (Option.some.inj hp)
  rw [← hsent]
  exact ConnectionManager.sendToUser_online (honline.at hrun)

/-! ## Decisions -/

/-- Thread `t` has sent the requester the notification of its decision, and it has been put into
the channel of the requester. -/
def Notified (tr : History) (t : Nat) (req : FriendResponse) : Prop :=
  (t, ⟨req.notify, true⟩) ∈ tr

/-- The notifications of a history: by whom and to whom, and whether there was a receiver. -/
def notifications (tr : History) : List (Nat × Bytes × WsNotification × Bool) :=
  tr.filterMap fun
    | (t, ⟨.sendToUser u n, sent⟩) => some (t, u, n, sent)
    | _ => none

theorem notified_iff_mem {tr : History} {req : FriendResponse} :
    Notified tr t req ↔ (t, req.requesterHashId, req.notification, true) ∈ notifications tr := by
  simp only [notifications, List.mem_filterMap]
  constructor
  · intro h
    exact ⟨_, h, rfl⟩
  · rintro ⟨⟨t', o, r⟩, he, heq⟩
    split at heq
    next hev =>
      obtain ⟨rfl, rfl, rfl, rfl⟩ : _ ∧ _ ∧ _ ∧ _ := by simpa using heq
      rw [hev] at he
      exact he
    · exact nomatch heq

/-- Thread `t` has counted no response, or its count has failed. -/
def FoundNone (tr : History) (t : Nat) : Prop :=
  ∃ i r, (t, ⟨.sql (.countFriendResponses i), r⟩) ∈ tr ∧ r.toOption.getD 0 = 0

/-- The list has an entry with all of the decision. -/
def FetchFriendResponsesResponse.Has (resp : FetchFriendResponsesResponse)
    (req : FriendResponse) : Prop :=
  ∃ e ∈ resp.responses, e = { req with timestamp := e.timestamp }

/-- A RESPOND that has succeeded has inserted its decision and notified the requester, as long as
the requester is online, or it has updated the stored responses and not notified. -/
theorem respond_stores {req : FriendResponse} {reply : Reply}
    (h₀ : Reachable codec verifyDetached c₀)
    (h₁ : (server codec verifyDetached).run c₀ ms₁ = some d)
    (honline : (server codec verifyDetached).Along
      (fun e _ ↦ e.world.connections.online req.requesterHashId = true) c₀ ms₁)
    (ht : c₀.pool.length ≤ t)
    (hans : d.answered t = some (.request (.respondFriendRequest req), reply))
    (hs : reply.success = true) :
    (Notified d.trace t req ∧
      (∃ i n, (t, ⟨.sql (.insertFriendResponse (req.newResponse i)), .ok n⟩) ∈ d.trace) ∧
      ∀ i n, (t, ⟨.sql (req.update i), .ok n⟩) ∉ d.trace) ∨
    (¬ Notified d.trace t req ∧ (∃ i n, (t, ⟨.sql (req.update i), .ok n⟩) ∈ d.trace) ∧
      ∀ i n, (t, ⟨.sql (.insertFriendResponse (req.newResponse i)), .ok n⟩) ∉ d.trace) := by
  obtain ⟨user, fr, r, ⟨hr, n, hpast⟩ | ⟨hr, n, sent, hpast⟩⟩ :=
    (h₀.run h₁).respond_stored hans hs
  · refine .inr ⟨fun hnotified ↦ ?_, ⟨fr.id, n, ?_⟩, fun i n hinsert ↦ ?_⟩
    · have hmem := mem_past.mpr hnotified
      simp [hpast, FriendResponse.updatedPast, FriendResponse.countedPast,
        FriendResponse.foundPast, FriendResponse.notify] at hmem
    · rw [← mem_past, hpast]
      exact List.mem_append_right _ (List.mem_singleton.mpr rfl)
    · have hmem := mem_past.mpr hinsert
      simp [hpast, FriendResponse.updatedPast, FriendResponse.countedPast,
        FriendResponse.foundPast, FriendResponse.update] at hmem
  · have hsent : (t, ⟨req.notify, sent⟩) ∈ d.trace := by
      rw [← mem_past, hpast]
      exact List.mem_append_right _ (List.mem_singleton.mpr rfl)
    obtain rfl := sent_of_online h₀ h₁ honline ht hsent
    refine .inl ⟨hsent, ⟨fr.id, n, ?_⟩, fun i n hupdate ↦ ?_⟩
    · rw [← mem_past, hpast]
      exact List.mem_append_left _ (List.mem_append_right _ (List.mem_singleton.mpr rfl))
    · have hmem := mem_past.mpr hupdate
      simp [hpast, FriendResponse.insertedPast, FriendResponse.countedPast,
        FriendResponse.foundPast, FriendResponse.update, FriendResponse.notify] at hmem

/-- The entries of a poll that reads in the state `d`. -/
theorem poll_reads {poll : FetchFriendsRequest} {resp : FetchFriendResponsesResponse}
    {reply : Reply} {ω : Oracle} (hd : Reachable codec verifyDetached d)
    (hread : d.performs t = some (.request (.fetchFriendResponses poll),
      .sql (.loadFriendResponses poll.userHash poll.since)))
    (h₂ : (server codec verifyDetached).run d (.step t ω :: ms₂) = some c)
    (hans : c.answered t = some (.request (.fetchFriendResponses poll), reply))
    (hresp : reply.payload = .fetchFriendResponses resp) :
    resp.responses = d.world.db.responsesTo poll.userHash poll.since := by
  have hc := hd.run h₂
  obtain ⟨k, hread⟩ := performs_iff.mp hread
  obtain ⟨user, ts, rows, hpast, rfl⟩ := hc.responses_loaded hans hresp
  obtain ⟨d', hstep, hrest⟩ := Machine.run_cons.mp h₂
  cases Machine.step_of_next hstep with
  | @step _ _ j o k' r w ht hp =>
      obtain ⟨rfl, heq⟩ := Thread.mk.inj (Option.some.inj (hread.symm.trans ht))
      obtain ⟨rfl, hk⟩ := Program.perform.inj heq
      obtain ⟨ext, hext⟩ := Machine.trace_of_run hrest
      -- the load of the poll is its only one
      have hmem : (⟨.sql (.loadFriendResponses poll.userHash poll.since), r⟩ : Event Res) ∈
          past t c.trace := by
        rw [mem_past, hext]
        simp
      rw [hpast] at hmem
      obtain rfl : r = .ok rows := by
        simpa [FetchFriendsRequest.loadedPast, FetchFriendsRequest.signedPast] using hmem
      rcases perform_sql hp with ⟨-, e, he⟩ | ⟨hr, -⟩
      · cases he
      · obtain ⟨-, rfl⟩ := loadFriendResponses_ok hr.symm
        rfl

/-! ## What becomes of a decision -/

/-- What an event leaves of the content `v` of the responses to the friend request `i`. -/
def written (i : Nat) (v : ResponseWrite) : Nat × Event Res → ResponseWrite
  | (_, ⟨.sql (.updateFriendResponses j a b g), .ok _⟩) => if j = i then ⟨j, a, b, g⟩ else v
  | _ => v

/-- What a history leaves of it. -/
def lastWritten (i : Nat) (v : ResponseWrite) (tr : History) : ResponseWrite :=
  tr.foldl (written i) v

/-- The event deletes the responses to the friend request `i`, which this decision answers: by the
id, or with one of the two accounts. -/
def FriendResponse.DeletedBy (req : FriendResponse) (i : Nat) (e : Event Res) : Prop :=
  (∃ (ids : List Nat) (n : Nat), e = ⟨.sql (.deleteFriendResponses ids), .ok n⟩ ∧ i ∈ ids) ∨
    DeletesRequests req.requesterHashId e ∨ DeletesRequests req.responderHashId e

/-- The event inserts a response between the two accounts. -/
def FriendResponse.InsertedBy (req : FriendResponse) (e : Event Res) : Prop :=
  ∃ (n : NewFriendResponse) (a : Nat), e = ⟨.sql (.insertFriendResponse n), .ok a⟩ ∧
    n.requesterHashId = req.requesterHashId ∧ n.responderHashId = req.responderHashId

/-- Thread `t` stores its decision on the friend request `i` in the state `w` of the run `ms` from
`c₀` to `d`: by an INSERT or an UPDATE with all of it.  `later` is what has happened since then. -/
structure DecidedAt (codec : Codec) (verifyDetached : Bytes → Bytes → Bytes → Bool) (c₀ : State)
    (ms : Moves) (d : State) (t : Nat) (req : FriendResponse) (i : Nat) (w : State)
    (later : History) : Prop where
  moment : ∃ ms₁ ω ms₂, ms = ms₁ ++ .step t ω :: ms₂ ∧
    (server codec verifyDetached).run c₀ ms₁ = some w
  statement : w.performs t = some (.request (.respondFriendRequest req),
      .sql (.insertFriendResponse (req.newResponse i))) ∨
    w.performs t = some (.request (.respondFriendRequest req), .sql (req.update i))
  stored : ∃ e, d.trace = w.trace ++ (t, e) :: later ∧ responseWrite e = some (req.write i)

/-- The decision that is stored in the state `w` is there to be read after `later`, by a poll with
the cursor `since`. -/
structure Stands (w : State) (later : History) (req : FriendResponse) (i : Nat)
    (since : Option NaiveDateTime) : Prop where
  /-- A response to the request had been stored, and it was created after the cursor. -/
  created : ∃ x ∈ w.world.db.friendResponses, x.requestId = i ∧ after since x.createdAt = true
  /-- What has been written into it since then is the decision again, in the end. -/
  unreplaced : lastWritten i (req.write i) later = req.write i
  /-- It has not been deleted. -/
  kept : ∀ u e, (u, e) ∈ later → ¬ req.DeletedBy i e

section

variable {req : FriendResponse} {i : Nat} {v : ResponseWrite} {later tr : History} {w : State}

theorem lastWritten_snoc (e : Nat × Event Res) :
    lastWritten i v (tr ++ [e]) = written i (lastWritten i v tr) e := by
  rw [lastWritten, List.foldl_append]
  rfl

/-- Only updates that succeed write. -/
theorem lastWritten_quiet {ext : History} (hext : ∀ u s a, (u, ⟨.sql s, .ok a⟩) ∉ ext) :
    lastWritten i v (tr ++ ext) = lastWritten i v tr := by
  induction ext generalizing tr with
  | nil => rw [List.append_nil]
  | cons e ext ih =>
      have hstep (v : ResponseWrite) : written i v e = v := by
        unfold written
        split
        · exact absurd List.mem_cons_self (hext _ _ _)
        · rfl
      have hrest : ∀ u s a, (u, ⟨.sql s, .ok a⟩) ∉ ext := fun u s a hmem ↦
        hext u s a (List.mem_cons_of_mem _ hmem)
      rw [List.append_cons, ih hrest, lastWritten_snoc, hstep]

/-- Other statements leave the content. -/
theorem written_of_ne {s : Stmt} {r : Res (.sql s)}
    (hs : ∀ a b g, s ≠ .updateFriendResponses i a b g) : written i v (t, ⟨.sql s, r⟩) = v := by
  unfold written
  split
  next j a b g _ heq =>
    obtain ⟨hop, -⟩ := Sigma.mk.inj (Prod.mk.inj heq).2
    obtain rfl := Op.sql.inj hop
    exact if_neg fun hj ↦ hs a b g (by rw [hj])
  · rfl

theorem FriendResponse.DeletedBy.sql {e : Event Res} (h : req.DeletedBy i e) :
    ∃ s a, e = ⟨.sql s, .ok a⟩ := by
  rcases h with ⟨ids, n, rfl, -⟩ | h | h
  · exact ⟨_, _, rfl⟩
  · exact h.sql
  · exact h.sql

/-- A response that is there after a statement has not been deleted by it. -/
theorem Executes.not_deletedBy {e e' : State} {job : Job} {s : Stmt} {u : Nat}
    (hexec : Executes e u job s e') (he : Reachable codec verifyDetached e)
    {x : FriendResponseModel} (hx : x ∈ e'.world.db.friendResponses)
    (hr : x.requesterHashId = req.requesterHashId)
    (hu : x.responderHashId = req.responderHashId) :
    ¬ req.DeletedBy x.requestId ⟨.sql s, (s.exec e.world.clock e.world.db).1⟩ := by
  have hlinked : e'.world.db.Linked := hexec.linked he he.linked
  -- without a friend request of the pair there is no response
  have hgone {v : Bytes} (hv : req.requesterHashId = v ∨ req.responderHashId = v)
      (hdel : DeletesRequests v ⟨.sql s, (s.exec e.world.clock e.world.db).1⟩) : False := by
    obtain ⟨s', a, heq⟩ := hdel.sql
    obtain ⟨hop, hres⟩ := Sigma.mk.inj heq
    obtain rfl := Op.sql.inj hop
    rw [eq_of_heq hres] at hdel
    obtain ⟨y, hy, -, hyr, hyu⟩ := hlinked x hx
    rw [hexec.db] at hy
    exact unrequested_of_delete he.friendGraph hdel hv y hy
      (Prod.ext (hyr.trans hr) (hyu.trans hu))
  rintro (⟨ids, n, heq, hid⟩ | hdel | hdel)
  · obtain ⟨hop, -⟩ := Sigma.mk.inj heq
    obtain rfl := Op.sql.inj hop
    rw [hexec.db] at hx
    have hnot := (List.mem_filter.mp hx).2
    simp [hid] at hnot
  · exact hgone (.inl rfl) hdel
  · exact hgone (.inr rfl) hdel

/-- A response between the parties of a decision, with the content `v`. -/
structure FriendResponse.Row (req : FriendResponse) (i : Nat) (v : ResponseWrite)
    (createdAt : NaiveDateTime) (x : FriendResponseModel) : Prop where
  requestId : x.requestId = i
  requester : x.requesterHashId = req.requesterHashId
  responder : x.responderHashId = req.responderHashId
  createdAt : x.createdAt = createdAt
  write : x.write = v

/-- The response to a friend request that is not deleted stays, with what is written last. -/
theorem row_since {fr : FriendRequestModel} {createdAt : NaiveDateTime}
    (h : Reachable codec verifyDetached w)
    (hread : (t, ⟨.sql (.selectFriendRequest req.requesterHashId req.responderHashId), .ok fr⟩) ∈
      w.trace)
    (hrun : (server codec verifyDetached).run w ms = some d) (hext : d.trace = w.trace ++ later)
    (hrow : ∃ x ∈ w.world.db.friendResponses, req.Row fr.id v createdAt x)
    (hkept : ∀ u e, (u, e) ∈ later → ¬ req.DeletedBy fr.id e) :
    ∃ x ∈ d.world.db.friendResponses, req.Row fr.id (lastWritten fr.id v later) createdAt x := by
  refine h.since (I := fun ext e ↦ (∀ u a, (u, a) ∈ ext → ¬ req.DeletedBy fr.id a) →
    ∃ x ∈ e.world.db.friendResponses, req.Row fr.id (lastWritten fr.id v ext) createdAt x)
    ?_ ?_ hrun hext (fun _ ↦ hrow) hkept
  · intro ext ext' e e' hI hsame hno hkept
    obtain ⟨x, hx, hrow⟩ := hI fun u a ha ↦ hkept u a (List.mem_append_left _ ha)
    rw [lastWritten_quiet hno]
    exact ⟨x, hsame.friendResponses.mem_iff.mp hx, hrow⟩
  · intro ext e e' u job s he hsub hI hexec hkept
    obtain ⟨x, hx, hrow⟩ := hI fun u a ha ↦ hkept u a (List.mem_append_left _ ha)
    have hnot : ¬ req.DeletedBy fr.id ⟨.sql s, (s.exec e.world.clock e.world.db).1⟩ :=
      hkept u _ (List.mem_append_right _ (List.mem_singleton.mpr rfl))
    rw [lastWritten_snoc, hexec.db]
    by_cases hupdate : ∃ a b g, s = .updateFriendResponses fr.id a b g
    · obtain ⟨a, b, g, rfl⟩ := hupdate
      refine ⟨x.withResponse a b g, List.mem_map.mpr ⟨x, hx, if_pos hrow.requestId⟩, ?_⟩
      refine ⟨hrow.requestId, hrow.requester, hrow.responder, hrow.createdAt, ?_⟩
      rw [← hrow.requestId]
      exact (if_pos rfl).symm
    rw [written_of_ne fun a b g hs ↦ hupdate ⟨a, b, g, hs⟩]
    -- the account of a party is not deleted, and was there to be deleted
    rcases friendResponses_stay e.world.clock s hx with hstay | ⟨a, b, g, rfl⟩ |
      ⟨ids, rfl, hid⟩ | ⟨y, hy, hid, p, hp, hs⟩
    · exact ⟨x, hstay, hrow⟩
    · exact absurd ⟨a, b, g, by rw [hrow.requestId]⟩ hupdate
    · exact absurd (.inl ⟨ids, _, rfl, hrow.requestId ▸ hid⟩) hnot
    · obtain ⟨hr, hu⟩ := he.parties_of_read (hsub _ hread) hy (hid.trans hrow.requestId)
      have hparty : DeletesRequests p ⟨.sql s, (s.exec e.world.clock e.world.db).1⟩ := by
        rcases hs with rfl | rfl
        · rfl
        · simp only [Stmt.exec]
          split
          · rfl
          · rfl
      rcases hp with rfl | rfl
      · exact absurd (.inr (.inl (hr ▸ hparty))) hnot
      · exact absurd (.inr (.inr (hu ▸ hparty))) hnot

/-- A response between the parties of a decision that is there is one that was there, with what has
been written last, and has not been deleted in between, as long as none has been inserted. -/
theorem row_before {fr : FriendRequestModel} (h : Reachable codec verifyDetached w)
    (hrun : (server codec verifyDetached).run w ms = some d) (hext : d.trace = w.trace ++ later)
    (hrows : ∀ x ∈ w.world.db.friendResponses, x.requesterHashId = req.requesterHashId →
      x.responderHashId = req.responderHashId → x.requestId = fr.id ∧ x.write = v)
    (hnew : ∀ u e, (u, e) ∈ later → ¬ req.InsertedBy e) {x : FriendResponseModel}
    (hx : x ∈ d.world.db.friendResponses) (hr : x.requesterHashId = req.requesterHashId)
    (hu : x.responderHashId = req.responderHashId) :
    (∃ y ∈ w.world.db.friendResponses, y.requestId = fr.id ∧ y.createdAt = x.createdAt) ∧
      x.requestId = fr.id ∧ x.write = lastWritten fr.id v later ∧
      ∀ u e, (u, e) ∈ later → ¬ req.DeletedBy fr.id e := by
  refine h.since (I := fun ext e ↦ (∀ u a, (u, a) ∈ ext → ¬ req.InsertedBy a) →
    ∀ x ∈ e.world.db.friendResponses, x.requesterHashId = req.requesterHashId →
      x.responderHashId = req.responderHashId →
      (∃ y ∈ w.world.db.friendResponses, y.requestId = fr.id ∧ y.createdAt = x.createdAt) ∧
        x.requestId = fr.id ∧ x.write = lastWritten fr.id v ext ∧
        ∀ u a, (u, a) ∈ ext → ¬ req.DeletedBy fr.id a) ?_ ?_ hrun hext ?_ hnew x hx hr hu
  · intro ext ext' e e' hI hsame hno hnew x hx hr hu
    obtain ⟨hy, hid, hwrite, hkept⟩ := hI (fun u a ha ↦ hnew u a (List.mem_append_left _ ha)) x
      (hsame.friendResponses.mem_iff.mpr hx) hr hu
    rw [lastWritten_quiet hno]
    refine ⟨hy, hid, hwrite, fun u a ha hdel ↦ ?_⟩
    rcases List.mem_append.mp ha with ha | ha
    · exact hkept u a ha hdel
    · obtain ⟨s, b, rfl⟩ := hdel.sql
      exact hno u s b ha
  · intro ext e e' u job s he hsub hI hexec hnew x hx hr hu
    have hI := hI fun u a ha ↦ hnew u a (List.mem_append_left _ ha)
    have hnot : ¬ req.InsertedBy ⟨.sql s, (s.exec e.world.clock e.world.db).1⟩ :=
      hnew u _ (List.mem_append_right _ (List.mem_singleton.mpr rfl))
    have hkeep : ¬ req.DeletedBy x.requestId ⟨.sql s, (s.exec e.world.clock e.world.db).1⟩ :=
      hexec.not_deletedBy he hx hr hu
    have hdeleted (hid : x.requestId = fr.id)
        (hkept : ∀ u a, (u, a) ∈ ext → ¬ req.DeletedBy fr.id a) : ∀ v a, (v, a) ∈ ext ++
          [(u, ⟨.sql s, (s.exec e.world.clock e.world.db).1⟩)] → ¬ req.DeletedBy fr.id a := by
      intro v a ha
      rcases List.mem_append.mp ha with ha | ha
      · exact hkept v a ha
      · obtain ⟨-, rfl⟩ := Prod.mk.inj (List.mem_singleton.mp ha)
        rwa [← hid]
    rw [lastWritten_snoc]
    rw [hexec.db] at hx
    rcases mem_friendResponses_exec hx with ⟨hx, hne⟩ | ⟨n, id, rfl, rfl, -, hok⟩ |
      ⟨z, hz, a, b, g, rfl, rfl⟩
    · obtain ⟨hy, hid, hwrite, hkept⟩ := hI x hx hr hu
      rw [written_of_ne fun a b g hs ↦ hne a b g (hid ▸ hs)]
      exact ⟨hy, hid, hwrite, hdeleted hid hkept⟩
    · exact absurd ⟨n, 1, by rw [hok], hr, hu⟩ hnot
    · obtain ⟨hy, hid, hwrite, hkept⟩ := hI z hz hr hu
      refine ⟨hy, hid, ?_, hdeleted hid hkept⟩
      rw [← hid]
      exact (if_pos rfl).symm
  · intro _ x hx hr hu
    obtain ⟨hid, hwrite⟩ := hrows x hx hr hu
    exact ⟨⟨x, hx, hid, rfl⟩, hid, hwrite, fun _ _ ↦ nofun⟩

/-- The entry of a row is its decision. -/
theorem dto_iff {x : FriendResponseModel} (hx : x.preKeyBundle ≠ some []) :
    x.dto = { req with timestamp := x.dto.timestamp } ↔
      x.requesterHashId = req.requesterHashId ∧ x.responderHashId = req.responderHashId ∧
        x.write = req.write x.requestId := by
  have hbundle : x.preKeyBundle.getD [] = req.preKeyBundle ↔
      x.preKeyBundle = nonEmpty req.preKeyBundle := by
    unfold nonEmpty
    cases hb : x.preKeyBundle with
    | none => grind
    | some b => grind
  simp only [FriendResponseModel.dto, FriendResponse.mk.injEq, FriendResponseModel.write,
    FriendResponse.write, ResponseWrite.mk.injEq, true_and, and_true, hbundle]
  exact and_left_comm

/-- No stored response has an empty bundle. -/
theorem Reachable.bundle_ne (h : Reachable codec verifyDetached d) {x : FriendResponseModel}
    (hx : x ∈ d.world.db.friendResponses) : x.preKeyBundle ≠ some [] := by
  obtain ⟨p, t, req, hsub⟩ := h.submitted x hx
  have hbundle := congrArg ResponseWrite.preKeyBundle hsub.content
  intro hempty
  rw [FriendResponseModel.write, hempty] at hbundle
  simp only [FriendResponse.write, nonEmpty] at hbundle
  split at hbundle
  · cases hbundle
  next hne => exact hne (Option.some.inj hbundle)

/-- A poll has the decision if it is stored, in a response created after the cursor. -/
theorem has_iff {poll : FetchFriendsRequest} {resp : FetchFriendResponsesResponse}
    (h : Reachable codec verifyDetached d) (hpoll : poll.userHash = req.requesterHashId)
    (hresp : resp.responses = d.world.db.responsesTo poll.userHash poll.since) :
    resp.Has req ↔ ∃ x ∈ d.world.db.friendResponses, x.requesterHashId = req.requesterHashId ∧
      x.responderHashId = req.responderHashId ∧ x.write = req.write x.requestId ∧
      after poll.since x.createdAt = true := by
  rw [FetchFriendResponsesResponse.Has, hresp, hpoll, Db.responsesTo]
  constructor
  · rintro ⟨e, he, heq⟩
    obtain ⟨x, hx, rfl⟩ := List.mem_map.mp he
    obtain ⟨hx, hsel⟩ := List.mem_filter.mp hx
    simp only [Bool.and_eq_true, decide_eq_true_eq] at hsel
    obtain ⟨hr, hu, hwrite⟩ := (dto_iff (h.bundle_ne hx)).mp heq
    exact ⟨x, hx, hr, hu, hwrite, hsel.2⟩
  · rintro ⟨x, hx, hr, hu, hwrite, hafter⟩
    refine ⟨x.dto, List.mem_map_of_mem (List.mem_filter.mpr ⟨hx, ?_⟩),
      (dto_iff (h.bundle_ne hx)).mpr ⟨hr, hu, hwrite⟩⟩
    simp [hr, hafter]

/-- The responses to the request of a decision are those between its parties. -/
theorem requestId_of_read {fr : FriendRequestModel} {x : FriendResponseModel}
    (h : Reachable codec verifyDetached w)
    (hread : (t, ⟨.sql (.selectFriendRequest req.requesterHashId req.responderHashId), .ok fr⟩) ∈
      w.trace) (hx : x ∈ w.world.db.friendResponses) :
    (x.requestId = fr.id →
      x.requesterHashId = req.requesterHashId ∧ x.responderHashId = req.responderHashId) ∧
    (w.world.db.hasFriendRequest fr.id = true → x.requesterHashId = req.requesterHashId →
      x.responderHashId = req.responderHashId → x.requestId = fr.id) := by
  obtain ⟨y, hy, hyid, hyr, hyu⟩ := h.linked x hx
  constructor
  · intro hid
    obtain ⟨hr, hu⟩ := h.parties_of_read hread hy (hyid.trans hid)
    exact ⟨hyr.symm.trans hr, hyu.symm.trans hu⟩
  · intro hreq hr hu
    obtain ⟨z, hz, hzid⟩ := List.any_eq_true.mp hreq
    have hzid : z.id = fr.id := of_decide_eq_true hzid
    obtain ⟨hzr, hzu⟩ := h.parties_of_read hread hz hzid
    have hpair : y.pair = z.pair := by
      simp only [FriendRequestModel.pair, hyr, hyu, hzr, hzu, hr, hu]
    obtain rfl := List.inj_on_of_nodup_map h.friendGraph.pairs hy hz hpair
    exact hyid.symm.trans hzid

section

variable {fr : FriendRequestModel} {w' : State} {since : Option NaiveDateTime}

/-- A decision that an UPDATE stores is there to be read if it stands. -/
theorem read_of_stands (h : Reachable codec verifyDetached w)
    (hread : (t, ⟨.sql (.selectFriendRequest req.requesterHashId req.responderHashId), .ok fr⟩) ∈
      w.trace) (he : Executes w t (.request (.respondFriendRequest req)) (req.update fr.id) w')
    (h' : Reachable codec verifyDetached w')
    (hrun : (server codec verifyDetached).run w' ms = some d) (hext : d.trace = w'.trace ++ later)
    (hstands : Stands w later req fr.id since) :
    ∃ x ∈ d.world.db.friendResponses, x.requesterHashId = req.requesterHashId ∧
      x.responderHashId = req.responderHashId ∧ x.write = req.write x.requestId ∧
      after since x.createdAt = true := by
  obtain ⟨x, hx, hid, hafter⟩ := hstands.created
  obtain ⟨hr, hu⟩ := (requestId_of_read h hread hx).1 hid
  have hrow : ∃ y ∈ w'.world.db.friendResponses,
      req.Row fr.id (req.write fr.id) x.createdAt y := by
    rw [he.db]
    refine ⟨x.withResponse _ _ _, List.mem_map.mpr ⟨x, hx, if_pos hid⟩, hid, hr, hu, rfl, ?_⟩
    rw [← hid]
    rfl
  obtain ⟨z, hz, hrow⟩ := row_since h' (he.subset _ hread) hrun hext hrow hstands.kept
  refine ⟨z, hz, hrow.requester, hrow.responder, ?_, hrow.createdAt ▸ hafter⟩
  rw [hrow.write, hstands.unreplaced, hrow.requestId]

/-- As long as no other response between the two is inserted, it has to stand. -/
theorem stands_of_read (h : Reachable codec verifyDetached w)
    (hread : (t, ⟨.sql (.selectFriendRequest req.requesterHashId req.responderHashId), .ok fr⟩) ∈
      w.trace) (he : Executes w t (.request (.respondFriendRequest req)) (req.update fr.id) w')
    (h' : Reachable codec verifyDetached w')
    (hrun : (server codec verifyDetached).run w' ms = some d) (hext : d.trace = w'.trace ++ later)
    (hreq : w.world.db.hasFriendRequest fr.id = true)
    (hnew : ∀ u e, (u, e) ∈ later → ¬ req.InsertedBy e) {x : FriendResponseModel}
    (hx : x ∈ d.world.db.friendResponses) (hr : x.requesterHashId = req.requesterHashId)
    (hu : x.responderHashId = req.responderHashId) (hwrite : x.write = req.write x.requestId)
    (hafter : after since x.createdAt = true) : Stands w later req fr.id since := by
  have hrows : ∀ x ∈ w'.world.db.friendResponses, x.requesterHashId = req.requesterHashId →
      x.responderHashId = req.responderHashId → x.requestId = fr.id ∧ x.write = req.write fr.id := by
    intro x hx hr hu
    rw [he.db] at hx
    obtain ⟨y, hy, rfl⟩ := List.mem_map.mp hx
    by_cases hid : y.requestId = fr.id
    · rw [if_pos hid, ← hid]
      exact ⟨rfl, rfl⟩
    · rw [if_neg hid] at hr hu
      exact absurd ((requestId_of_read h hread hy).2 hreq hr hu) hid
  obtain ⟨⟨y, hy, hyid, hcreated⟩, hid, hlast, hkept⟩ :=
    row_before h' hrun hext hrows hnew hx hr hu
  refine ⟨?_, by rw [← hlast, hwrite, hid], hkept⟩
  -- the UPDATE has changed neither the request nor the time of creation
  rw [he.db] at hy
  obtain ⟨z, hz, rfl⟩ := List.mem_map.mp hy
  rw [← hcreated] at hafter
  by_cases hzid : z.requestId = fr.id
  · rw [if_pos hzid] at hafter
    exact ⟨z, hz, hzid, hafter⟩
  · rw [if_neg hzid] at hyid
    exact absurd hyid hzid

end

end

/-- A RESPOND whose INSERT or UPDATE has succeeded has stored its decision. -/
theorem decidedAt_of_executed {req : FriendResponse} {i : Nat} {s : Stmt} {a : s.Out}
    (h₀ : Reachable codec verifyDetached c₀)
    (h₁ : (server codec verifyDetached).run c₀ ms₁ = some d) (ht : c₀.pool.length ≤ t)
    (hjob : Runs d t (.request (.respondFriendRequest req)))
    (hs : s = .insertFriendResponse (req.newResponse i) ∨ s = req.update i)
    (he : (t, ⟨.sql s, .ok a⟩) ∈ d.trace) :
    ∃ w later, DecidedAt codec verifyDetached c₀ ms₁ d t req i w later := by
  obtain ⟨ms, ω, ms', w, j, w', later, rfl, hw, hexec, hw', hrest, htr, -⟩ :=
    executed_since h₀ h₁ ht he
  obtain rfl := (hexec.runs.run hrest).unique hjob
  obtain ⟨k, hpool, -⟩ := hexec.pool
  refine ⟨w, later, ⟨ms, ω, ms', rfl, hw⟩, ?_, _, htr, ?_⟩
  · rcases hs with rfl | rfl
    · exact .inl (performs_iff.mpr ⟨k, hpool⟩)
    · exact .inr (performs_iff.mpr ⟨k, hpool⟩)
  · rcases hs with rfl | rfl
    · rfl
    · rfl

/-- The statement that stores the decision is executed, and the run goes on from there. -/
theorem DecidedAt.executes {req : FriendResponse} {i : Nat} {w : State} {later : History}
    (h₀ : Reachable codec verifyDetached c₀)
    (h₁ : (server codec verifyDetached).run c₀ ms₁ = some d)
    (h : DecidedAt codec verifyDetached c₀ ms₁ d t req i w later) :
    Reachable codec verifyDetached w ∧
    ∃ s w' ms n, (s = .insertFriendResponse (req.newResponse i) ∨ s = req.update i) ∧
      (t, ⟨.sql s, .ok n⟩) ∈ d.trace ∧
      Executes w t (.request (.respondFriendRequest req)) s w' ∧
      Reachable codec verifyDetached w' ∧ (server codec verifyDetached).run w' ms = some d ∧
      d.trace = w'.trace ++ later := by
  obtain ⟨ms, ω, ms', rfl, hw⟩ := h.moment
  have hrun : (server codec verifyDetached).run w (.step t ω :: ms') = some d := by
    obtain ⟨w₁, hw₁, hrun⟩ := Machine.run_append.mp h₁
    rwa [Option.some.inj (hw₁.symm.trans hw)] at hrun
  have hreach : Reachable codec verifyDetached w := h₀.run hw
  obtain ⟨s, hs, hp⟩ : ∃ s, (s = .insertFriendResponse (req.newResponse i) ∨ s = req.update i) ∧
      w.performs t = some (.request (.respondFriendRequest req), .sql s) := by
    rcases h.statement with hp | hp
    · exact ⟨_, .inl rfl, hp⟩
    · exact ⟨_, .inr rfl, hp⟩
  obtain ⟨k, hpool⟩ := performs_iff.mp hp
  obtain ⟨e, htr, hwrite⟩ := h.stored
  obtain ⟨w', hnext, hrest⟩ := Machine.run_cons.mp hrun
  have hw' : Reachable codec verifyDetached w' :=
    hreach.run (Machine.Step.run_cons (Machine.step_of_next hnext) Machine.run_nil)
  cases Machine.step_of_next hnext with
  | @step _ _ j o k' r v hpool' hperform =>
      obtain ⟨rfl, heq⟩ := Thread.mk.inj (Option.some.inj (hpool.symm.trans hpool'))
      obtain ⟨rfl, hk⟩ := Program.perform.inj heq
      -- the first event after `w` is that of this step
      obtain ⟨ext, hext⟩ := Machine.trace_of_run hrest
      have hsame : w.trace ++ (t, ⟨.sql s, r⟩) :: ext = w.trace ++ (t, e) :: later := by
        rw [← htr, hext, List.append_assoc, List.singleton_append]
      have hevents := List.append_cancel_left hsame
      obtain ⟨he, rfl⟩ := List.cons.inj hevents
      obtain rfl := (Prod.mk.inj he).2
      rcases perform_sql hperform with ⟨-, e, rfl⟩ | ⟨rfl, rfl⟩
      · rcases hs with rfl | rfl <;> exact nomatch hwrite
      obtain ⟨n, hn⟩ : ∃ n, (s.exec w.world.clock w.world.db).1 = .ok n := by
        cases hn : (s.exec w.world.clock w.world.db).1 with
        | ok n => exact ⟨n, rfl⟩
        | error e =>
            rw [hn] at hwrite
            rcases hs with rfl | rfl <;> exact nomatch hwrite
      refine ⟨hreach, s, _, ms', n, hs, ?_, ⟨⟨_, hpool', rfl⟩, rfl, rfl⟩, hw', hrest, ?_⟩
      · rw [htr, ← hn]
        exact List.mem_append_right _ List.mem_cons_self
      · rw [hext]

/-- **Learning of a decision.**  While the requester is online, let a RESPOND succeed and let a
poll of the requester read after that.  Then the RESPOND has stored its decision at some moment.  If
it has found no response or failed to count them, the requester is notified of the decision.  If it
stores the decision in a response that was created after the cursor of the poll, and until the poll
reads the response is not deleted and no other decision is left in it by further updates, the
requester gets the decision with the poll.  As long as the friend request is there and no other
response between the two is inserted, the requester learns of no other decision. -/
theorem decision_reaches {clock instant : Nat} {req : FriendResponse}
    {poll : FetchFriendsRequest} {resp : FetchFriendResponsesResponse} {reply reply' : Reply}
    {u : Nat} {ω : Oracle}
    (h₀ : (server codec verifyDetached).run (.start (.initial clock instant)) ms₀ = some c₀)
    (h₁ : (server codec verifyDetached).run c₀ ms₁ = some d)
    (honline : (server codec verifyDetached).Along
      (fun e _ ↦ e.world.connections.online req.requesterHashId = true) c₀ ms₁)
    (ht : c₀.pool.length ≤ t)
    (hrespond : d.answered t = some (.request (.respondFriendRequest req), reply))
    (hsuccess : reply.success = true) (hpoll : poll.userHash = req.requesterHashId)
    (hread : d.performs u = some (.request (.fetchFriendResponses poll),
      .sql (.loadFriendResponses poll.userHash poll.since)))
    (h₂ : (server codec verifyDetached).run d (.step u ω :: ms₂) = some c)
    (hans : c.answered u = some (.request (.fetchFriendResponses poll), reply'))
    (hresp : reply'.payload = .fetchFriendResponses resp) :
    (∃ i w later, DecidedAt codec verifyDetached c₀ ms₁ d t req i w later) ∧
    ∀ i w later, DecidedAt codec verifyDetached c₀ ms₁ d t req i w later →
      (FoundNone w.trace t ∨ Stands w later req i poll.since →
        Notified d.trace t req ∨ resp.Has req) ∧
      (w.world.db.hasFriendRequest i = true → (∀ v e, (v, e) ∈ later → ¬ req.InsertedBy e) →
        Notified d.trace t req ∨ resp.Has req →
        FoundNone w.trace t ∨ Stands w later req i poll.since) := by
  have hc₀ : Reachable codec verifyDetached c₀ := ⟨clock, instant, ms₀, h₀⟩
  have hd : Reachable codec verifyDetached d := hc₀.run h₁
  have hjob : Runs d t (.request (.respondFriendRequest req)) := ⟨_, answered_iff.mp hrespond⟩
  have hhas := has_iff hd hpoll (poll_reads hd hread h₂ hans hresp)
  have hstores := respond_stores hc₀ h₁ honline ht hrespond hsuccess
  constructor
  · rcases hstores with ⟨-, ⟨i, n, he⟩, -⟩ | ⟨-, ⟨i, n, he⟩, -⟩
    · exact ⟨i, decidedAt_of_executed hc₀ h₁ ht hjob (.inl rfl) he⟩
    · exact ⟨i, decidedAt_of_executed hc₀ h₁ ht hjob (.inr rfl) he⟩
  · intro i w later hdecided
    obtain ⟨hreach, s, w', ms, n, rfl | rfl, he, hexec, hw', hrest, hext⟩ :=
      hdecided.executes hc₀ h₁
    · -- it inserts: it has counted none, and it notifies
      obtain ⟨k, hpool, -⟩ := hexec.pool
      obtain ⟨user, fr, r, hpast, hr, -⟩ := hreach.respond_order hpool
      have hfound : FoundNone w.trace t := by
        refine ⟨fr.id, r, ?_, hr⟩
        rw [← mem_past, hpast]
        exact List.mem_append_right _ (List.mem_singleton.mpr rfl)
      rcases hstores with ⟨hnotified, -⟩ | ⟨-, -, hno⟩
      · exact ⟨fun _ ↦ .inl hnotified, fun _ _ _ ↦ .inl hfound⟩
      · exact absurd he (hno i n)
    · -- it updates: it has counted some, and it does not notify
      have hnot : ¬ Notified d.trace t req := by
        rcases hstores with ⟨-, -, hno⟩ | ⟨hnot, -⟩
        · exact absurd he (hno i n)
        · exact hnot
      obtain ⟨k, hpool, -⟩ := hexec.pool
      obtain ⟨user, fr, r, hpast, hr, hupdate⟩ := hreach.respond_order hpool
      obtain rfl : i = fr.id := (Stmt.updateFriendResponses.inj hupdate).1
      have hnone : ¬ FoundNone w.trace t := by
        rintro ⟨i', r', hcount, hr'⟩
        have hmem := mem_past.mpr hcount
        simp [hpast, FriendResponse.countedPast, FriendResponse.foundPast] at hmem
        obtain ⟨rfl, rfl⟩ := hmem
        exact absurd hr' (Nat.pos_iff_ne_zero.mp hr)
      have hfr : (t, ⟨.sql (.selectFriendRequest req.requesterHashId req.responderHashId),
          .ok fr⟩) ∈ w.trace := by
        rw [← mem_past, hpast]
        simp [FriendResponse.countedPast, FriendResponse.foundPast]
      constructor
      · intro hcond
        have hstands := hcond.resolve_left hnone
        exact .inr (hhas.mpr (read_of_stands hreach hfr hexec hw' hrest hext hstands))
      · intro hreq hnew hlearns
        obtain ⟨x, hx, hr, hu, hwrite, hafter⟩ := hhas.mp (hlearns.resolve_left hnot)
        exact .inr (stands_of_read hreach hfr hexec hw' hrest hext hreq hnew hx hr hu hwrite hafter)

namespace Sample

/-- User 1 polls for responses. -/
def pollResponses (since timestamp : UInt64) : FetchFriendsRequest :=
  ⟨word 1, since, signature, timestamp⟩

def decisionSigned : List (Bytes × Bytes) :=
  (key 1, word 8 ++ word 1 ++ le64 5) :: (key 1, (pollResponses 0 5).signedData) ::
  (key 1, (pollResponses 5 6).signedData) :: friendSigned

/-- User 1 has a connection (thread 3) and asks for the friendship of user 2 (thread 5). -/
def onlineRun : Moves :=
  loginRun ++ registers 4 2 ++
  .spawn (.request (.contact (contactAt 1))) :: steps 5 6

/-- User 2 rejects (thread 6), and at 5 s user 1 polls (thread 7). -/
def rejectedRun : Moves :=
  .spawn (.request (.respondFriendRequest rejection)) :: steps 6 6 ++ .act (.tick 5000000 0) ::
  .spawn (.request (.fetchFriendResponses (pollResponses 0 5))) :: steps 7 4

/-- Then user 2 accepts (thread 8), and at 6 s user 1 polls from there (thread 9). -/
def changedRun : Moves :=
  .spawn (.request (.respondFriendRequest acceptance)) :: steps 8 5 ++ .act (.tick 6000000 0) ::
  .spawn (.request (.fetchFriendResponses (pollResponses 5 6))) :: steps 9 4

/-- User 2 rejects (thread 6) and accepts (thread 7), up to the UPDATE of the acceptance. -/
def decidesRun : Moves :=
  .spawn (.request (.respondFriendRequest rejection)) :: steps 6 6 ++
  .spawn (.request (.respondFriendRequest acceptance)) :: steps 7 4

/-- The UPDATE, and at 5 s user 1 polls (thread 8), up to the moment when the poll reads. -/
def updatesRun : Moves :=
  .step 7 .none :: .act (.tick 5000000 0) ::
  .spawn (.request (.fetchFriendResponses (pollResponses 0 5))) :: steps 8 2

end Sample

open Sample in
/-- User 1 is online throughout and polls from where the previous poll ended.  It gets the rejection
both ways; of the acceptance that replaces it there is no notification, and the poll is empty. -/
theorem changed_decision_lost : ∃ c₀ c : State, final decisionSigned onlineRun = some c₀ ∧
    (system decisionSigned).run c₀ (rejectedRun ++ changedRun) = some c ∧
    (system decisionSigned).Along (fun e _ ↦ e.world.connections.online (word 1) = true) c₀
      (rejectedRun ++ changedRun) ∧
    Notified c.trace 6 rejection ∧
    c.answered 7 = some (.request (.fetchFriendResponses (pollResponses 0 5)),
      ⟨true, .fetchFriendResponses ⟨[⟨word 2, word 1, false, [], signature, 0⟩], 5⟩, ""⟩) ∧
    c.answered 8 = some (.request (.respondFriendRequest acceptance), ⟨true, .empty, ""⟩) ∧
    ¬ Notified c.trace 8 acceptance ∧
    c.answered 9 = some (.request (.fetchFriendResponses (pollResponses 5 6)),
      ⟨true, .fetchFriendResponses ⟨[], 6⟩, ""⟩) := by
  have hsent : ((final decisionSigned (onlineRun ++ (rejectedRun ++ changedRun))).map fun c ↦
      notifications c.trace) = some [
        (5, word 2, ⟨1, .friendRequestReceived ⟨word 1, [3], [], 1⟩⟩, false),
        (6, word 1, rejection.notification, true)] := by decide +kernel
  have hans : ((final decisionSigned (onlineRun ++ (rejectedRun ++ changedRun))).map fun c ↦
      (c.answered 7, c.answered 8, c.answered 9)) =
      some (some (.request (.fetchFriendResponses (pollResponses 0 5)),
          ⟨true, .fetchFriendResponses ⟨[⟨word 2, word 1, false, [], signature, 0⟩], 5⟩, ""⟩),
        some (.request (.respondFriendRequest acceptance), ⟨true, .empty, ""⟩),
        some (.request (.fetchFriendResponses (pollResponses 5 6)),
          ⟨true, .fetchFriendResponses ⟨[], 6⟩, ""⟩)) := by decide +kernel
  have honline : ((final decisionSigned onlineRun).map fun c₀ ↦ (system decisionSigned).check
      (fun e _ ↦ decide (e.world.connections.online (word 1) = true)) c₀
      (rejectedRun ++ changedRun)) = some true := by decide +kernel
  obtain ⟨c, hc, hview⟩ := Option.map_eq_some_iff.mp hans
  obtain ⟨h₇, h₈, h₉⟩ : _ ∧ _ ∧ _ := by simpa only [Prod.mk.injEq] using hview
  rw [hc, Option.map_some, Option.some.injEq] at hsent
  obtain ⟨c₀, hc₀, hrun⟩ := Machine.run_append.mp hc
  obtain ⟨c₁, hc₁, hcheck⟩ := Option.map_eq_some_iff.mp honline
  obtain rfl : c₀ = c₁ := Option.some.inj (hc₀.symm.trans hc₁)
  refine ⟨c₀, c, hc₀, hrun, Machine.along_of_check hcheck, ?_, h₇, h₈, ?_, h₉⟩
  · rw [notified_iff_mem, hsent]
    exact List.mem_cons_of_mem _ (List.mem_singleton.mpr rfl)
  · rw [notified_iff_mem, hsent]
    decide

theorem FriendResponse.not_deletedBy_of_okStmt {req : FriendResponse} {i : Nat} {e : Event Res}
    (h : okStmt e = none ∨ ∃ v, okStmt e = some (.selectUser v)) : ¬ req.DeletedBy i e := by
  rintro (⟨ids, n, rfl, -⟩ | hdel | hdel)
  · rcases h with h | ⟨v, h⟩
    · exact nomatch h
    · exact nomatch h
  · exact (not_stores_of_okStmt h [] [] _).2 hdel
  · exact (not_stores_of_okStmt h [] [] _).2 hdel

open Sample in
/-- The acceptance replaces a rejection that user 1 has not polled yet.  There is no notification of
it, and it stands: the poll returns it. -/
theorem decision_reaches_updatesRun : ∃ c₀ w d c : State, ∃ later,
    ∃ resp : FetchFriendResponsesResponse, final decisionSigned onlineRun = some c₀ ∧
    (system decisionSigned).run c₀ (decidesRun ++ updatesRun) = some d ∧
    (system decisionSigned).run d (steps 8 2) = some c ∧
    DecidedAt Sample.codec (Sample.verify decisionSigned) c₀ (decidesRun ++ updatesRun) d 7
      acceptance 1 w later ∧
    Stands w later acceptance 1 none ∧ (Notified d.trace 7 acceptance ∨ resp.Has acceptance) := by
  have hstart : ((final decisionSigned onlineRun).map fun c₀ ↦
      (c₀.pool.length, (system decisionSigned).check
        (fun e _ ↦ decide (e.world.connections.online (word 1) = true)) c₀
        (decidesRun ++ updatesRun))) = some (6, true) := by decide +kernel
  have hwrite : ((final decisionSigned (onlineRun ++ decidesRun)).map fun w ↦
      (w.trace.length, w.performs 7, w.world.db.friendResponses.map fun x ↦
        (x.requestId, x.createdAt))) =
      some (39, some (.request (.respondFriendRequest acceptance), .sql (acceptance.update 1)),
        [(1, 0)]) := by decide +kernel
  have hread : ((final decisionSigned (onlineRun ++ decidesRun ++ updatesRun)).map fun d ↦
      (d.answered 7, d.performs 8)) =
      some (some (.request (.respondFriendRequest acceptance), ⟨true, .empty, ""⟩),
        some (.request (.fetchFriendResponses (pollResponses 0 5)),
          .sql (.loadFriendResponses (word 1) none))) := by decide +kernel
  have hlater : ((final decisionSigned (onlineRun ++ decidesRun ++ updatesRun)).map fun d ↦
      (d.trace[39]?.map fun e ↦ (e.1, responseWrite e.2),
        lastWritten 1 (acceptance.write 1) (d.trace.drop 40),
        (d.trace.drop 40).filterMap fun e ↦ okStmt e.2)) =
      some (some (7, some (acceptance.write 1)), acceptance.write 1, [.selectUser (word 1)]) := by
    decide +kernel
  have hend : ((final decisionSigned (onlineRun ++ decidesRun ++ updatesRun ++ steps 8 2)).map
      fun c ↦ c.answered 8) = some (some (.request (.fetchFriendResponses (pollResponses 0 5)),
        ⟨true, .fetchFriendResponses ⟨[⟨word 2, word 1, true, [4], signature, 0⟩], 5⟩, ""⟩)) := by
    decide +kernel
  obtain ⟨c, hc, hans⟩ := Option.map_eq_some_iff.mp hend
  obtain ⟨d, hd, h₂⟩ := Machine.run_append.mp hc
  obtain ⟨w, hw, hupdates⟩ := Machine.run_append.mp hd
  obtain ⟨c₀, hc₀, hdecides⟩ := Machine.run_append.mp hw
  have hd' : final decisionSigned (onlineRun ++ decidesRun ++ updatesRun) = some d := hd
  have hw' : final decisionSigned (onlineRun ++ decidesRun) = some w := hw
  have hc₀' : final decisionSigned onlineRun = some c₀ := hc₀
  rw [hc₀', Option.map_some, Option.some.injEq] at hstart
  rw [hw', Option.map_some, Option.some.injEq] at hwrite
  rw [hd', Option.map_some, Option.some.injEq] at hread hlater
  obtain ⟨hlen, hcheck⟩ := Prod.mk.inj hstart
  obtain ⟨hlenw, hperforms, hrows⟩ : _ ∧ _ ∧ _ := by simpa only [Prod.mk.injEq] using hwrite
  obtain ⟨hans₇, hread⟩ := Prod.mk.inj hread
  obtain ⟨hevent, hlast, hstmts⟩ : _ ∧ _ ∧ _ := by simpa only [Prod.mk.injEq] using hlater
  have h₁ : (system decisionSigned).run c₀ (decidesRun ++ updatesRun) = some d :=
    Machine.run_append.mpr ⟨w, hdecides, hupdates⟩
  -- the event of the UPDATE, and what comes after it
  obtain ⟨ext, hext⟩ := Machine.trace_of_run hupdates
  obtain ⟨⟨u, e⟩, he, heq⟩ := Option.map_eq_some_iff.mp hevent
  obtain ⟨rfl, hstored⟩ := Prod.mk.inj heq
  have htrace : d.trace = w.trace ++ (7, e) :: d.trace.drop 40 := by
    calc d.trace = w.trace ++ d.trace.drop 39 := by rw [hext, ← hlenw, List.drop_left]
      _ = w.trace ++ (d.trace[39]?.toList ++ d.trace.drop 40) := by
          rw [List.drop_eq_getElem?_toList_append]
      _ = w.trace ++ (7, e) :: d.trace.drop 40 := by
          rw [he, Option.toList_some, List.singleton_append]
  have hdecided : DecidedAt Sample.codec (Sample.verify decisionSigned) c₀
      (decidesRun ++ updatesRun) d 7 acceptance 1 w (d.trace.drop 40) :=
    ⟨⟨decidesRun, .none, _, rfl, hdecides⟩, .inr hperforms, e, htrace, hstored⟩
  have hstands : Stands w (d.trace.drop 40) acceptance 1 none := by
    refine ⟨?_, hlast, fun u e he ↦ FriendResponse.not_deletedBy_of_okStmt ?_⟩
    · have hmem : (1, 0) ∈ w.world.db.friendResponses.map fun x ↦ (x.requestId, x.createdAt) := by
        rw [hrows]
        exact List.mem_singleton.mpr rfl
      obtain ⟨x, hx, heq⟩ := List.mem_map.mp hmem
      exact ⟨x, hx, (Prod.mk.inj heq).1, rfl⟩
    · cases hok : okStmt e with
      | none => exact .inl rfl
      | some s =>
          have hs : s ∈ (d.trace.drop 40).filterMap fun e ↦ okStmt e.2 :=
            List.mem_filterMap.mpr ⟨(u, e), he, hok⟩
          rw [hstmts] at hs
          exact .inr ⟨_, congrArg some (List.mem_singleton.mp hs)⟩
  have hreaches := decision_reaches hc₀ h₁ (Machine.along_of_check hcheck)
    (hlen.le.trans (by decide : 6 ≤ 7)) hans₇ rfl rfl hread h₂ hans rfl
  exact ⟨c₀, w, d, c, _, _, hc₀, h₁, h₂, hdecided, hstands,
    (hreaches.2 _ _ _ hdecided).1 (.inr hstands)⟩

end ZenthDht
