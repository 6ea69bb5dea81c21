import ZenthDht.Spec.Run

/-!
# Responses to friend requests

RESPOND_FRIEND_REQUEST is an upsert that anyone may call with a signature of the responder, and
what an acceptance signs has no timestamp.  So a stored response is not the responder's latest
decision: an old acceptance can be submitted again after a rejection (`response_replayed`).

It is the submission that wrote the row last, and that one carried a signature of the responder
over an acceptance or a rejection of this requester (`response_last_submission`).
-/

namespace ZenthDht

open Conc

variable {codec : Codec} {verifyDetached : Bytes → Bytes → Bytes → Bool}
variable {c c' : State} {ms : Moves} {t : Nat}

/-! ## Requests and the responses to them -/

theorem keeps_friendRequests : Keeps Db.friendRequests (fun db ↦ db.seq.friendRequests)
    FriendRequestModel.id fun x ↦ (x.requesterHashId, x.targetHashId) where
  same h := ⟨h.friendRequests, by rw [h.seq]⟩
  row hx := by
    rcases mem_friendRequests_exec hx with hx | ⟨n, rfl, rfl⟩ | ⟨y, hy, b, g, m, ts, -, rfl⟩
    · exact .inl ⟨_, hx, rfl, rfl⟩
    · exact .inr le_rfl
    · exact .inl ⟨y, hy, rfl, rfl⟩
  le := seq_friendRequests_exec

/-- The parties of a friend request do not change. -/
theorem friendRequest_parties (h : Reachable codec verifyDetached c)
    (hrun : (server codec verifyDetached).run c ms = some c') {x y : FriendRequestModel}
    (hx : x ∈ c.world.db.friendRequests) (hy : y ∈ c'.world.db.friendRequests)
    (hid : y.id = x.id) :
    y.requesterHashId = x.requesterHashId ∧ y.targetHashId = x.targetHashId :=
  Prod.mk.inj (keeps_friendRequests.run h.keyed.friendRequests hrun hx hy hid)

/-- A request with the id of one that was read has the parties it was read for. -/
theorem Reachable.parties_of_read (h : Reachable codec verifyDetached c) {r u : Bytes}
    {fr y : FriendRequestModel} (he : (t, ⟨.sql (.selectFriendRequest r u), .ok fr⟩) ∈ c.trace)
    (hy : y ∈ c.world.db.friendRequests) (hid : y.id = fr.id) :
    y.requesterHashId = r ∧ y.targetHashId = u := by
  obtain ⟨d, ms, hd, hr, hrun⟩ := h.read he
  obtain ⟨hfr, rfl, rfl⟩ := selectFriendRequest_sound hr
  exact friendRequest_parties hd hrun hfr hy hid

/-- Every response answers a request with the same parties. -/
def Db.Linked (db : Db) : Prop :=
  ∀ x ∈ db.friendResponses, ∃ y ∈ db.friendRequests, y.id = x.requestId ∧
    y.requesterHashId = x.requesterHashId ∧ y.targetHashId = x.responderHashId

theorem Executes.linked (h : Reachable codec verifyDetached c) {job : Job} {s : Stmt}
    (he : Executes c t job s c') (hl : c.world.db.Linked) : c'.world.db.Linked := by
  have hguard := h.executes he
  intro x hx
  rw [he.db] at hx ⊢
  -- a request that still has a response has not been removed
  have hkeep {y : FriendRequestModel} (hy : y ∈ c.world.db.friendRequests)
      (hid : y.id = x.requestId) (hr : y.requesterHashId = x.requesterHashId)
      (ht : y.targetHashId = x.responderHashId) :
      ∃ y ∈ (s.exec c.world.clock c.world.db).2.friendRequests, y.id = x.requestId ∧
        y.requesterHashId = x.requesterHashId ∧ y.targetHashId = x.responderHashId := by
    rcases friendRequests_exec c.world.clock s hy with ⟨y', hy', hid', hr', ht'⟩ | hgone
    · exact ⟨y', hy', hid'.trans hid, hr'.trans hr, ht'.trans ht⟩
    · exact absurd hid.symm (hgone x hx)
  rcases mem_friendResponses_exec hx with ⟨hx, -⟩ | ⟨n, id, rfl, rfl, ⟨y, hy, hid⟩, -⟩ |
    ⟨z, hz, a, b, g, rfl, rfl⟩
  · obtain ⟨y, hy, hid, hr, ht⟩ := hl x hx
    exact hkeep hy hid hr ht
  · obtain ⟨req, fr, -, hread, rfl, -⟩ := hguard
    obtain ⟨hr, ht⟩ := h.parties_of_read (did_past.mp hread) hy hid
    exact hkeep hy hid hr ht
  · obtain ⟨y, hy, hid, hr, ht⟩ := hl z hz
    exact hkeep hy hid hr ht

theorem Db.Linked.same {db db' : Db} (hl : db.Linked) (hs : db.Same db') : db'.Linked := by
  intro x hx
  obtain ⟨y, hy, hparties⟩ := hl x (hs.friendResponses.mem_iff.mpr hx)
  exact ⟨y, hs.friendRequests.mem_iff.mp hy, hparties⟩

theorem Reachable.linked (h : Reachable codec verifyDetached c) : c.world.db.Linked := by
  refine h.induction (I := fun d ↦ d.world.db.Linked) (fun _ _ x hx ↦ nomatch hx) ?_
  intro d m d' hd hl hs
  rcases Step.db hs with hsame | ⟨t, job, s, he⟩
  · exact hl.same hsame
  · exact he.linked hd hl

/-! ## Submissions -/

/-- What a submission writes into the responses to a request. -/
structure ResponseWrite where
  requestId : Nat
  accepted : Bool
  preKeyBundle : Option Bytes
  dilithiumSignature : Bytes
deriving DecidableEq

def responseWrite : Event Res → Option ResponseWrite
  | ⟨.sql (.insertFriendResponse n), .ok _⟩ =>
    some ⟨n.requestId, n.accepted, n.preKeyBundle, n.dilithiumSignature⟩
  | ⟨.sql (.updateFriendResponses i a b g), .ok _⟩ => some ⟨i, a, b, g⟩
  | _ => none

/-- What is in a row of `friend_responses`. -/
def FriendResponseModel.write (x : FriendResponseModel) : ResponseWrite :=
  ⟨x.requestId, x.accepted, x.preKeyBundle, x.dilithiumSignature⟩

/-- What a RESPOND_FRIEND_REQUEST writes. -/
def FriendResponse.write (req : FriendResponse) (requestId : Nat) : ResponseWrite :=
  ⟨requestId, req.accepted, nonEmpty req.preKeyBundle, req.dilithiumSignature⟩

/-- The event is an UPDATE of the responses to the request `i`. -/
def Updates (i : Nat) (e : Event Res) : Prop :=
  ∃ a b g r, e = ⟨.sql (.updateFriendResponses i a b g), .ok r⟩

/-- Thread `t` had read the row of the responder and verified the submission under its key. -/
def SignedSubmission (tr : History) (t : Nat) (req : FriendResponse) : Prop :=
  ∃ row, (t, ⟨.sql (.selectUser req.responderHashId), .ok row⟩) ∈ tr ∧
    row.userHashId = req.responderHashId ∧
    (t, ⟨.verify row.identityKeyDilithium req.messageToVerify req.dilithiumSignature, true⟩) ∈ tr

/-- Thread `t` wrote the row `x` last: at the place `p` it stored what the row has, and after that
no UPDATE of the responses to the request was executed. -/
structure WroteLast (tr : History) (p t : Nat) (x : FriendResponseModel) : Prop where
  write : ∃ e, tr[p]? = some (t, e) ∧ responseWrite e = some x.write
  last : ∀ q t' e, p < q → tr[q]? = some (t', e) → ¬ Updates x.requestId e

/-- The submission of a row: who it names, what it says, and that it was signed. -/
structure Submitted (c : State) (p t : Nat) (req : FriendResponse) (x : FriendResponseModel) :
    Prop where
  runs : Runs c t (.request (.respondFriendRequest req))
  wrote : WroteLast c.trace p t x
  responder : req.responderHashId = x.responderHashId
  requester : req.requesterHashId = x.requesterHashId
  content : req.write x.requestId = x.write
  signed : SignedSubmission (c.trace.take p) t req

section

variable {p : Nat} {req : FriendResponse} {x : FriendResponseModel} {ext : History}

theorem WroteLast.lt (h : WroteLast c.trace p t x) : p < c.trace.length := by
  obtain ⟨e, he, -⟩ := h.write
  exact (List.getElem?_eq_some_iff.mp he).1

/-- Further events that do not update the responses to the request change nothing. -/
theorem WroteLast.append (h : WroteLast c.trace p t x)
    (hext : ∀ t e, (t, e) ∈ ext → ¬ Updates x.requestId e) :
    WroteLast (c.trace ++ ext) p t x := by
  obtain ⟨e, he, hw⟩ := h.write
  refine ⟨⟨e, by rw [List.getElem?_append_left h.lt, he], hw⟩, fun q t' e' hq hq' ↦ ?_⟩
  rw [List.getElem?_append] at hq'
  split at hq'
  · exact h.last q t' e' hq hq'
  · exact hext t' e' (List.mem_of_getElem? hq')

/-- The row written by the last event of a history. -/
theorem WroteLast.snoc {tr : History} {e : Event Res} (hw : responseWrite e = some x.write) :
    WroteLast (tr ++ [(t, e)]) tr.length t x := by
  refine ⟨⟨e, by simp, hw⟩, fun q t' e' hq hq' ↦ ?_⟩
  obtain ⟨hlt, -⟩ := List.getElem?_eq_some_iff.mp hq'
  simp only [List.length_append, List.length_singleton] at hlt
  omega

theorem Submitted.step {m : Move Job Oracle Act} (h : Submitted c p t req x)
    (hs : (server codec verifyDetached).Step c m c') (htr : c'.trace = c.trace ++ ext)
    (hext : ∀ t e, (t, e) ∈ ext → ¬ Updates x.requestId e) : Submitted c' p t req x := by
  refine ⟨h.runs.run (hs.run_cons Machine.run_nil), ?_, h.responder, h.requester, h.content, ?_⟩
  · rw [htr]
    exact h.wrote.append hext
  · rw [htr, List.take_append_of_le_length h.wrote.lt.le]
    exact h.signed

/-- The submission a thread has just stored. -/
theorem Submitted.now (h : Reachable codec verifyDetached c) {s : Stmt} {a : s.Out}
    (he : Executes c t (.request (.respondFriendRequest req)) s c')
    (hok : (s.exec c.world.clock c.world.db).1 = .ok a)
    (hw : responseWrite ⟨.sql s, .ok a⟩ = some x.write)
    (hresp : req.responderHashId = x.responderHashId)
    (hreq : req.requesterHashId = x.requesterHashId) (hc : req.write x.requestId = x.write)
    (hv : (Call.respondFriendRequest req).Vouched codec (past t c.trace)) :
    Submitted c' c.trace.length t req x := by
  obtain ⟨key, message, signature, ⟨-, -, -, ⟨row, hrow, rfl⟩, rfl, rfl⟩, hver⟩ := hv
  have htr := he.trace
  rw [hok] at htr
  refine ⟨he.runs, ?_, hresp, hreq, hc, row, ?_, h.userHash_of_read (did_past.mp hrow), ?_⟩
  · rw [htr]
    exact .snoc hw
  · rw [htr, List.take_left]
    exact did_past.mp hrow
  · rw [htr, List.take_left]
    exact did_past.mp hver

end

theorem Executes.submitted (h : Reachable codec verifyDetached c) {m : Move Job Oracle Act}
    (hs : (server codec verifyDetached).Step c m c') {job : Job} {s : Stmt}
    (he : Executes c t job s c')
    (hold : ∀ x ∈ c.world.db.friendResponses, ∃ p t req, Submitted c p t req x) :
    ∀ x ∈ c'.world.db.friendResponses, ∃ p t req, Submitted c' p t req x := by
  have hguard := h.executes he
  intro x hx
  rw [he.db] at hx
  rcases mem_friendResponses_exec hx with ⟨hx, hne⟩ | ⟨n, id, rfl, rfl, -, hok⟩ |
    ⟨z, hz, a, b, g, rfl, rfl⟩
  · obtain ⟨p, t', req, hsub⟩ := hold x hx
    refine ⟨p, t', req, hsub.step hs he.trace ?_⟩
    rintro t'' e hmem ⟨a, b, g, r, rfl⟩
    cases List.mem_singleton.mp hmem
    exact hne a b g rfl
  · obtain ⟨req, fr, rfl, -, rfl, hv⟩ := hguard
    exact ⟨_, t, req, Submitted.now h he hok rfl rfl rfl rfl hv⟩
  · obtain ⟨req, fr, rfl, hread, hid, rfl, rfl, rfl, hv⟩ := hguard
    -- the row belongs to the request that was read, so it has the parties of the submission
    obtain ⟨y, hy, hyid, hr, ht⟩ := h.linked z hz
    obtain ⟨hr', ht'⟩ := h.parties_of_read (did_past.mp hread) hy (hyid.trans hid)
    exact ⟨_, t, req, Submitted.now h he rfl rfl (ht'.symm.trans ht) (hr'.symm.trans hr) rfl hv⟩

theorem Reachable.submitted (h : Reachable codec verifyDetached c) :
    ∀ x ∈ c.world.db.friendResponses, ∃ p t req, Submitted c p t req x := by
  refine h.induction (I := fun d ↦ ∀ x ∈ d.world.db.friendResponses,
    ∃ p t req, Submitted d p t req x) (fun _ _ x hx ↦ nomatch hx) ?_
  intro d m d' hd hI hs
  rcases Step.quiet_or_executes hs with hq | ⟨t, job, s, he⟩
  · obtain ⟨ext, htr, hno⟩ := hq.trace
    intro x hx
    obtain ⟨p, t, req, hsub⟩ := hI x (hq.db.friendResponses.mem_iff.mpr hx)
    refine ⟨p, t, req, hsub.step hs htr ?_⟩
    rintro t' e hmem ⟨a, b, g, r, rfl⟩
    exact hno _ _ _ hmem
  · exact he.submitted hd hs hI

/-- **A stored response is the last submission** that wrote it: in every reachable state, every
row of `friend_responses` has the flag, the bundle and the signature of the submission that wrote
it last, and the responder's signature of that acceptance or rejection was verified. -/
theorem response_last_submission {clock instant : Nat}
    (h : (server codec verifyDetached).run (.start (.initial clock instant)) ms = some c) :
    ∀ x ∈ c.world.db.friendResponses, ∃ p t req, Submitted c p t req x := by
  have hc : Reachable codec verifyDetached c := ⟨clock, instant, ms, h⟩
  exact hc.submitted

namespace Sample

/-- The request of user 1 to user 2, and the acceptance and the rejection of it by user 2. -/
def friendSigned : List (Bytes × Bytes) :=
  [(key 1, word 2 ++ [3] ++ le64 1), (key 2, acceptMessage (word 2) (word 1)),
   (key 2, rejectMessage (word 1) 2)]

def acceptance : FriendResponse := ⟨word 2, word 1, true, [4], signature, 1⟩

def rejection : FriendResponse := ⟨word 2, word 1, false, [], signature, 2⟩

/-- User 1 asks for the friendship of user 2, who accepts and then rejects. -/
def friendRun : Moves :=
  registers 0 1 ++ registers 1 2 ++
  .spawn (.request (.contact ⟨word 1, word 2, [3], signature, [], 1⟩)) :: steps 2 6 ++
  .spawn (.request (.respondFriendRequest acceptance)) :: steps 3 6 ++
  .spawn (.request (.respondFriendRequest rejection)) :: steps 4 5

/-- Somebody submits the acceptance again. -/
def replayRun : Moves :=
  friendRun ++ .spawn (.request (.respondFriendRequest acceptance)) :: steps 5 5

end Sample

open Sample in
/-- User 2 accepts (thread 3), then rejects (thread 4), then the acceptance is submitted again
(thread 5): the stored response is accepted, with the bundle of the acceptance. -/
theorem response_replayed : ∃ c, final friendSigned replayRun = some c ∧
    (c.trace.filterMap fun e ↦ (responseWrite e.2).map fun w ↦ (e.1, w)) =
      [(3, acceptance.write 1), (4, rejection.write 1), (5, acceptance.write 1)] ∧
    c.world.db.friendResponses.map FriendResponseModel.write = [acceptance.write 1] := by
  have hrun : ((final friendSigned replayRun).map fun c ↦
      ((c.trace.filterMap fun e ↦ (responseWrite e.2).map fun w ↦ (e.1, w)),
        c.world.db.friendResponses.map FriendResponseModel.write)) = some
      ([(3, acceptance.write 1), (4, rejection.write 1), (5, acceptance.write 1)],
        [acceptance.write 1]) := by decide +kernel
  obtain ⟨c, hc, hview⟩ := Option.map_eq_some_iff.mp hrun
  exact ⟨c, hc, Prod.mk.inj hview⟩

open Sample in
theorem response_last_submission_friendRun : ∃ c x, final friendSigned friendRun = some c ∧
    x ∈ c.world.db.friendResponses ∧ x.accepted = false ∧ ∃ p t req, Submitted c p t req x := by
  have hrun : ((final friendSigned friendRun).map fun c ↦
      c.world.db.friendResponses.map FriendResponseModel.write) = some [rejection.write 1] := by
    decide +kernel
  obtain ⟨c, hc, hview⟩ := Option.map_eq_some_iff.mp hrun
  obtain ⟨x, hx, hw⟩ : ∃ x ∈ c.world.db.friendResponses, x.write = rejection.write 1 := by
    rw [← List.mem_map, hview]
    exact List.mem_singleton.mpr rfl
  exact ⟨c, x, hc, hx, congrArg ResponseWrite.accepted hw, response_last_submission hc x hx⟩

end ZenthDht
