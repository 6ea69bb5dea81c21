import ZenthDht.Safety.Erasure
import ZenthDht.Safety.Recovery

/-!
# Requests that fail halfway

DELETE and RECOVERY_CLAIM write with several statements, and the server opens no transaction.  A
statement that fails ends the request with an error, and what the statements before it have done
stays done.  For a DELETE that is what stands before the failed one in the list `deletions`, and the
message of the answer names the failed one; the row of the user goes last, so a DELETE that fails
leaves the account.  A RECOVERY_CLAIM writes the new identity first and the session second.
-/

namespace ZenthDht

open Conc Stmt

variable {codec : Codec} {verifyDetached : Bytes → Bytes → Bytes → Bool}
variable {c c' : State} {db db' : Db} {w : World} {u : Bytes}

/-! ## The statements of DELETE -/

/-- The deletes of `deleteUserRows`, in their order. -/
def rowDeletions (u : Bytes) : List Stmt :=
  [.deleteFriendRequestsOf u, .deleteMessagesOf u, .deleteSessionsOf u, .deleteChallengesOf u,
    .deleteUser u]

/-- The deletes of `deleteUserData`, in their order. -/
def Db.deletions (db : Db) (u : Bytes) : List Stmt :=
  if db.requestIds u = [] then rowDeletions u
  else .deleteFriendResponses (db.requestIds u) :: rowDeletions u

/-- The rows that a list of deletes leaves; the time of a delete does not matter. -/
def Db.execAll (db : Db) (ss : List Stmt) : Db := ss.foldl (fun db s ↦ (s.exec 0 db).2) db

@[simp] theorem Db.execAll_nil : db.execAll [] = db := rfl

@[simp] theorem Db.execAll_append (ss ss' : List Stmt) :
    db.execAll (ss ++ ss') = (db.execAll ss).execAll ss' := List.foldl_append

@[simp] theorem Db.execAll_cons (s : Stmt) (ss : List Stmt) :
    db.execAll (s :: ss) = (s.exec 0 db).2.execAll ss := rfl

/-- `db'` is what is left of `db` when the delete `s` of `u` fails: the deletes before it are done. -/
def Db.StopsAt (db : Db) (u : Bytes) (s : Stmt) (db' : Db) : Prop :=
  ∃ done rest, db.deletions u = done ++ s :: rest ∧ db'.Same (db.execAll done)

/-- A statement that fails for no reason of its own and has the same effect at all times. -/
def Stmt.Deletes (s : Stmt) : Prop :=
  ∀ now db, (∃ a, (s.exec now db).1 = .ok a) ∧ (s.exec now db).2 = (s.exec 0 db).2

theorem deletes_user : (Stmt.deleteUser u).Deletes := by
  intro now db
  simp only [Stmt.exec]
  split
  · exact ⟨⟨_, rfl⟩, trivial⟩
  · exact ⟨⟨_, rfl⟩, trivial⟩

/-- One more delete: it fails and leaves what there was, or it has been done. -/
theorem wp_delete {α : Type} {post : α → World → Prop} {s : Stmt} (hs : s.Deletes)
    {k : Res (.sql s) → Handler α} {done : List Stmt}
    (hfail : ∀ w e, w.db.Same (db.execAll done) →
      (server codec verifyDetached).Wp post (k (.error e)) w)
    (hdone : ∀ w a, w.db.Same (db.execAll (done ++ [s])) →
      (server codec verifyDetached).Wp post (k (.ok a)) w)
    (hw : w.db.Same (db.execAll done)) : (server codec verifyDetached).Wp post (sql s >>= k) w := by
  refine wp_sql (fun w e ↦ hfail w _) (fun w₁ w hw₁ hw ↦ ?_) hw
  obtain ⟨⟨a, ha⟩, -⟩ := hs w₁.clock w₁.db
  rw [ha]
  refine hdone w a ?_
  rw [Db.execAll_append, Db.execAll_cons, Db.execAll_nil, ← (hs w₁.clock _).2]
  exact hw

/-! ## What the answer says -/

/-- The beginning of the message after a delete that has failed. -/
def Stmt.failedPrefix : Stmt → String
  | deleteFriendResponses _ => "Failed to delete friend responses: "
  | deleteFriendRequestsOf _ => "Failed to delete friend requests: "
  | deleteMessagesOf _ => "Failed to delete messages: "
  | deleteSessionsOf _ => "Failed to delete sessions: "
  | deleteChallengesOf _ => "Failed to delete auth challenges: "
  | deleteUser _ => "Failed to delete user: "
  | _ => ""

/-- The message of a DELETE one of whose deletes has failed. -/
def Stmt.failedMessage (s : Stmt) (e : DieselError) : String := s.failedPrefix ++ e.toString

/-- The deletes of `u`, one by one. -/
theorem mem_deletions {s : Stmt} (h : s ∈ db.deletions u) :
    s = .deleteFriendResponses (db.requestIds u) ∨ s = .deleteFriendRequestsOf u ∨
      s = .deleteMessagesOf u ∨ s = .deleteSessionsOf u ∨ s = .deleteChallengesOf u ∨
      s = .deleteUser u := by
  rw [Db.deletions] at h
  split at h
  · simp only [rowDeletions, List.mem_cons, List.not_mem_nil, or_false] at h
    exact .inr h
  · simp only [rowDeletions, List.mem_cons, List.not_mem_nil, or_false] at h
    exact h

/-- All these messages have a letter in common that no other message of DELETE has. -/
theorem failedMessage_letter {s : Stmt} (h : s ∈ db.deletions u) (e : DieselError) :
    (s.failedMessage e).toList[10]? = some 'd' := by
  rw [Stmt.failedMessage, String.toList_append]
  rcases mem_deletions h with rfl | rfl | rfl | rfl | rfl | rfl <;> simp [Stmt.failedPrefix]

/-- The message names the delete that has failed. -/
theorem failedMessage_inj {s s' : Stmt} (h : s ∈ db.deletions u) (h' : s' ∈ db.deletions u)
    {e e' : DieselError} (he : s.failedMessage e = s'.failedMessage e') : s = s' := by
  -- the letters in which the six messages differ
  have hletters := congrArg (fun m : String ↦ (m.toList[17]?, m.toList[26]?)) he
  simp only [Stmt.failedMessage, String.toList_append] at hletters
  rcases mem_deletions h with rfl | rfl | rfl | rfl | rfl | rfl <;>
    rcases mem_deletions h' with rfl | rfl | rfl | rfl | rfl | rfl <;>
    first | rfl | simp [Stmt.failedPrefix] at hletters

/-! ## DELETE -/

/-- What a DELETE of `u` without success that answers with the message `m` leaves of the rows
`db`. -/
structure Db.Stopped (db : Db) (u : Bytes) (m : String) (db' : Db) : Prop where
  /-- If the message names one of the deletes, those before it are done. -/
  failed : ∀ s ∈ db.deletions u, ∀ e, m = s.failedMessage e → db.StopsAt u s db'
  /-- Otherwise nothing is done. -/
  refused : (∀ s ∈ db.deletions u, ∀ e, m ≠ s.failedMessage e) → db'.Same db

theorem Db.Stopped.of_fails {done rest : List Stmt} {s : Stmt} {e : DieselError}
    (hsplit : db.deletions u = done ++ s :: rest) (h : db'.Same (db.execAll done)) :
    db.Stopped u (s.failedMessage e) db' := by
  have hs : s ∈ db.deletions u := by simp [hsplit]
  refine ⟨fun s' hs' e' he ↦ ?_, fun hne ↦ absurd rfl (hne s hs e)⟩
  obtain rfl := failedMessage_inj hs hs' he
  exact ⟨done, rest, hsplit, h⟩

theorem Db.Stopped.of_refused {m : String} (hm : m.toList[10]? ≠ some 'd') (h : db'.Same db) :
    db.Stopped u m db' :=
  ⟨fun _ hs e he ↦ absurd (he ▸ failedMessage_letter hs e) hm, fun _ ↦ h⟩

/-- The order of the rows plays no part. -/
theorem Db.Stopped.same {m : String} {db'' : Db} (h : db.Stopped u m db') (hsame : db''.Same db') :
    db.Stopped u m db'' := by
  refine ⟨fun s hs e he ↦ ?_, fun hne ↦ hsame.trans (h.refused hne)⟩
  obtain ⟨done, rest, hsplit, hdone⟩ := h.failed s hs e he
  exact ⟨done, rest, hsplit, hsame.trans hdone⟩

/-- What a DELETE that has come to `r` leaves of the rows `db`. -/
def Db.AfterDelete {α : Type} (db : Db) (u : Bytes) (r : Except String α) (w : World) : Prop :=
  (∀ m, r = .error m → db.Stopped u m w.db) ∧
    ∀ a, r = .ok a → w.db.Same (db.execAll (db.deletions u))

theorem Db.Stopped.after {α : Type} {m : String} (h : db.Stopped u m w.db) :
    db.AfterDelete u (.error m : Except String α) w := by
  refine ⟨?_, nofun⟩
  rintro _ ⟨⟩
  exact h

/-- One of the deletes of `deleteUserData`: an error ends it, and the next one follows else. -/
theorem wp_deletion {done rest : List Stmt} {s : Stmt} (hs : s.Deletes)
    (hsplit : db.deletions u = done ++ s :: rest)
    {k : Res (.sql s) → Handler (Except String Unit)}
    (hfail : ∀ e, k (.error e) = pure (.error (s.failedMessage e)))
    (hdone : ∀ w a, w.db.Same (db.execAll (done ++ [s])) →
      (server codec verifyDetached).Wp (db.AfterDelete u) (k (.ok a)) w)
    (hw : w.db.Same (db.execAll done)) :
    (server codec verifyDetached).Wp (db.AfterDelete u) (sql s >>= k) w := by
  refine wp_delete hs (fun w e hw ↦ ?_) hdone hw
  rw [hfail e]
  exact (Db.Stopped.of_fails hsplit hw).after

/-- The deletes of `deleteUserRows`, after those in `done`. -/
theorem deleteUserRows_stops (done : List Stmt) (hdone : db.deletions u = done ++ rowDeletions u)
    (hw : w.db.Same (db.execAll done)) :
    (server codec verifyDetached).Wp (db.AfterDelete u) (deleteUserRows u) w := by
  have hsplit (before rest : List Stmt) (s : Stmt) (h : rowDeletions u = before ++ s :: rest) :
      db.deletions u = (done ++ before) ++ s :: rest := by
    rw [hdone, h, List.append_assoc]
  unfold deleteUserRows
  rw [← List.append_nil done] at hw
  refine wp_deletion (fun _ _ ↦ ⟨⟨_, rfl⟩, rfl⟩) (hsplit [] _ _ rfl) (fun e ↦ rfl)
    (fun w a hw ↦ ?_) hw
  rw [List.append_assoc] at hw
  refine wp_deletion (fun _ _ ↦ ⟨⟨_, rfl⟩, rfl⟩) (hsplit _ _ _ rfl) (fun e ↦ rfl)
    (fun w a hw ↦ ?_) hw
  rw [List.append_assoc] at hw
  refine wp_deletion (fun _ _ ↦ ⟨⟨_, rfl⟩, rfl⟩) (hsplit _ _ _ rfl) (fun e ↦ rfl)
    (fun w a hw ↦ ?_) hw
  rw [List.append_assoc] at hw
  refine wp_deletion (fun _ _ ↦ ⟨⟨_, rfl⟩, rfl⟩) (hsplit _ _ _ rfl) (fun e ↦ rfl)
    (fun w a hw ↦ ?_) hw
  rw [List.append_assoc] at hw
  refine wp_deletion deletes_user (hsplit _ _ _ rfl) (fun e ↦ rfl)
    (fun w a hw ↦ ⟨nofun, fun _ _ ↦ ?_⟩) hw
  rw [List.append_assoc] at hw
  rw [hdone]
  exact hw

/-- A delete by a list of ids does not depend on its order. -/
theorem exec_deleteFriendResponses {ids ids' : List Nat} (h : ids.Perm ids') (now : NaiveDateTime) :
    ((Stmt.deleteFriendResponses ids).exec now db).2 =
      ((Stmt.deleteFriendResponses ids').exec now db).2 := by
  simp only [Stmt.exec, h.contains_eq]

theorem deleteUserData_stops (hw : w.db.Same db) :
    (server codec verifyDetached).Wp (db.AfterDelete u) (deleteUserData u) w := by
  unfold deleteUserData
  refine wp_sql (fun w e hw ↦ ?_) (fun w₁ w hw₁ hw ↦ ?_) hw
  · refine (Db.Stopped.of_refused ?_ hw).after
    simp [toString, String.toList_append]
  have hids : (w₁.db.requestIds u).Perm (db.requestIds u) := (hw₁.friendRequests.filter _).map _
  change (server codec verifyDetached).Wp _ (if w₁.db.requestIds u = [] then deleteUserRows u else
    sql (.deleteFriendResponses (w₁.db.requestIds u)) >>= _) w
  split
  next hnil =>
    rw [hnil, List.nil_perm] at hids
    refine deleteUserRows_stops [] ?_ hw
    rw [Db.deletions, if_pos hids, List.nil_append]
  next hnil =>
    have hne : db.requestIds u ≠ [] := fun h ↦ hnil (List.perm_nil.mp (h ▸ hids))
    have hsplit : db.deletions u =
        [] ++ .deleteFriendResponses (db.requestIds u) :: rowDeletions u := if_neg hne
    refine wp_sql (fun w e hw ↦ ?_) (fun w₂ w hw₂ hw ↦ ?_) hw
    · exact (Db.Stopped.of_fails (e := .other e) hsplit hw).after
    refine deleteUserRows_stops [.deleteFriendResponses (db.requestIds u)] ?_ ?_
    · rw [Db.deletions, if_neg hne, List.singleton_append]
    · rw [exec_deleteFriendResponses hids] at hw
      exact hw

theorem delete_stops (req : DeleteRequest) (hw : w.db.Same db) :
    (server codec verifyDetached).Wp (fun reply w ↦
      (reply.success = false → db.Stopped req.userHashId reply.errorMessage w.db) ∧
      (reply.success = true → w.db.Same (db.execAll (db.deletions req.userHashId))))
      (processCall codec (.delete req)) w := by
  have hrefused (w : World) (m : String) (hm : m.toList[10]? ≠ some 'd') (hw : w.db.Same db) :
      (false = false → db.Stopped req.userHashId m w.db) ∧
      (false = true → w.db.Same (db.execAll (db.deletions req.userHashId))) :=
    ⟨fun _ ↦ .of_refused hm hw, nofun⟩
  refine (Machine.wp_bind _ _).mpr ?_
  unfold deleteAccount
  split
  · exact hrefused w "Invalid user hash" (by decide) hw
  split
  · exact hrefused w "Signature required" (by decide) hw
  refine wp_fresh (fun w fresh hw ↦ ?_) hw
  split
  · exact hrefused w "Request timestamp expired" (by decide) hw
  refine wp_sql (fun w e hw ↦ hrefused w "Database error" (by decide) hw)
    (fun w₁ w hw₁ hw ↦ ?_) hw
  cases ((selectUser req.userHashId).exec w₁.clock w₁.db).1 with
  | error e =>
      cases e with
      | notFound => exact hrefused w "User not found" (by decide) hw
      | _ => exact hrefused w "Database error" (by decide) hw
  | ok user =>
  refine wp_call (by nofun) (fun w valid hw ↦ ?_) hw
  split
  · exact hrefused w "Invalid signature" (by decide) hw
  refine (Machine.wp_bind _ _).mpr ((deleteUserData_stops hw).mono fun r w hr ↦ ?_)
  cases r with
  | error e => exact ⟨fun _ ↦ hr.1 e rfl, nofun⟩
  | ok a =>
      refine wp_call (by nofun) (fun w' _ hw' ↦ ⟨nofun, fun _ ↦ ?_⟩) .rfl
      exact hw'.trans (hr.2 a rfl)

/-- The deletes before the last one. -/
def Db.clears (db : Db) (u : Bytes) : List Stmt :=
  (if db.requestIds u = [] then [] else [.deleteFriendResponses (db.requestIds u)]) ++
    [.deleteFriendRequestsOf u, .deleteMessagesOf u, .deleteSessionsOf u, .deleteChallengesOf u]

theorem deletions_eq (db : Db) (u : Bytes) : db.deletions u = db.clears u ++ [.deleteUser u] := by
  rw [Db.deletions, Db.clears]
  split
  · rfl
  · rfl

/-- What has stopped has done some of the deletes before the last. -/
theorem Db.Stopped.clears {m : String} (h : db.Stopped u m db') :
    ∃ done, (∀ s ∈ done, s ∈ db.clears u) ∧ db'.Same (db.execAll done) := by
  by_cases hm : ∃ s ∈ db.deletions u, ∃ e, m = s.failedMessage e
  · obtain ⟨s, hs, e, he⟩ := hm
    obtain ⟨done, rest, hsplit, hsame⟩ := h.failed s hs e he
    refine ⟨done, fun x hx ↦ ?_, hsame⟩
    rw [deletions_eq] at hsplit
    have hfront : done <+: db.clears u := by
      refine List.prefix_of_prefix_length_le ⟨s :: rest, hsplit.symm⟩ (List.prefix_append _ _) ?_
      have hlen := congrArg List.length hsplit
      simp only [List.length_append, List.length_cons, List.length_nil] at hlen
      omega
    exact hfront.subset hx
  · exact ⟨[], nofun, h.refused fun s hs e he ↦ hm ⟨s, hs, e, he⟩⟩

/-- What each delete of a list keeps, the list keeps. -/
theorem Db.execAll_keeps {P : Db → Prop} {ss : List Stmt}
    (hP : ∀ s ∈ ss, ∀ db, P db → P (s.exec 0 db).2) (hdb : P db) : P (db.execAll ss) := by
  induction ss generalizing db with
  | nil => exact hdb
  | cons s ss ih =>
      exact ih (fun s hs ↦ hP s (List.mem_cons_of_mem _ hs)) (hP s List.mem_cons_self db hdb)

/-- The tables that DELETE clears only with the last statement, or not at all. -/
structure Db.KeepsAccount (db db' : Db) : Prop where
  users : db.users.Perm db'.users
  oneTimePrekeys : db.oneTimePrekeys.Perm db'.oneTimePrekeys
  relayMessages : db.relayMessages.Perm db'.relayMessages
  syncBlobs : db.syncBlobs.Perm db'.syncBlobs

theorem Db.Stopped.keepsAccount {m : String} (h : db.Stopped u m db') : db.KeepsAccount db' := by
  obtain ⟨done, hdone, hsame⟩ := h.clears
  have hkeep : db.KeepsAccount (db.execAll done) := by
    refine Db.execAll_keeps (P := db.KeepsAccount) (fun s hs d hd ↦ ?_) ⟨.rfl, .rfl, .rfl, .rfl⟩
    have hs := hdone s hs
    simp only [Db.clears, List.mem_append, List.mem_ite_nil_left, List.mem_cons, List.not_mem_nil,
      or_false] at hs
    rcases hs with ⟨-, rfl⟩ | rfl | rfl | rfl | rfl <;>
      exact ⟨hd.users, hd.oneTimePrekeys, hd.relayMessages, hd.syncBlobs⟩
  exact ⟨hkeep.users.trans hsame.users.symm, hkeep.oneTimePrekeys.trans hsame.oneTimePrekeys.symm,
    hkeep.relayMessages.trans hsame.relayMessages.symm, hkeep.syncBlobs.trans hsame.syncBlobs.symm⟩

/-- No friend request, message, session or challenge is that of `u`. -/
structure Db.Blank (db : Db) (u : Bytes) : Prop where
  friendRequests : ∀ x ∈ db.friendRequests, x.Involves u = false
  messages : ∀ x ∈ db.messages, x.Involves u = false
  sessions : ∀ x ∈ db.sessions, x.userHashId ≠ u
  authChallenges : ∀ x ∈ db.authChallenges, x.userHashId ≠ u

/-- The deletes before the last one find nothing to delete. -/
theorem Db.Blank.exec (h : db.Blank u) {s : Stmt} (hs : s ∈ db.clears u) :
    (s.exec 0 db).2 = db := by
  have hids : db.requestIds u = [] := by
    rw [Db.requestIds, List.map_eq_nil_iff, List.filter_eq_nil_iff]
    intro x hx
    simp [h.friendRequests x hx]
  rw [Db.clears, if_pos hids, List.nil_append] at hs
  simp only [List.mem_cons, List.not_mem_nil, or_false] at hs
  rcases hs with rfl | rfl | rfl | rfl
  · exact removeFriendRequests_of_none h.friendRequests
  · have hmessages : db.messages.filter (fun x ↦ !x.Involves u) = db.messages :=
      List.filter_eq_self.mpr fun x hx ↦ by simp [h.messages x hx]
    exact congrArg (fun rows ↦ { db with messages := rows }) hmessages
  · have hsessions : db.sessions.filter (fun x ↦ x.userHashId ≠ u) = db.sessions :=
      List.filter_eq_self.mpr fun x hx ↦ by simp [h.sessions x hx]
    simp only [Stmt.exec, hsessions]
  · have hchallenges : db.authChallenges.filter (fun x ↦ x.userHashId ≠ u) = db.authChallenges :=
      List.filter_eq_self.mpr fun x hx ↦ by simp [h.authChallenges x hx]
    simp only [Stmt.exec, hchallenges]

/-- **A DELETE that fails.**  If a DELETE is answered without success and its message names one of
its deletes, the tables are those that the deletes before that one leave; if it names none, they
are as before.  The account, its one-time pre-keys and the mailboxes of devices are all as before,
and so is everything if the user has no friend request, message, session or challenge. -/
theorem failed_delete {req : DeleteRequest} {reply : Reply}
    (h : Answers codec verifyDetached c (.delete req) reply c') (hfail : reply.success = false) :
    c.world.db.Stopped req.userHashId reply.errorMessage c'.world.db ∧
    c.world.db.KeepsAccount c'.world.db ∧
    (c.world.db.Blank req.userHashId → c'.world.db.Same c.world.db) := by
  obtain ⟨w, ⟨hstopped, -⟩, hdrift⟩ := h.wp (delete_stops req .rfl)
  have hstopped := (hstopped hfail).same (drifts_same hdrift)
  refine ⟨hstopped, hstopped.keepsAccount, fun hblank ↦ ?_⟩
  obtain ⟨done, hdone, hsame⟩ := hstopped.clears
  have hid : c.world.db.execAll done = c.world.db := by
    refine Db.execAll_keeps (P := (· = c.world.db)) (fun s hs d hd ↦ ?_) rfl
    rw [hd, hblank.exec (hdone s hs)]
  rw [hid] at hsame
  exact hsame

namespace Sample

/-- The delete of the messages fails. -/
def failsAtMessages : List Oracle := List.replicate 6 .none ++ [.fail "timeout"]

def messagesFailed : Reply :=
  ⟨false, .delete ⟨false, "Failed to delete messages: timeout"⟩,
    "Failed to delete messages: timeout"⟩

end Sample

open Sample in
/-- The friend request of user 1 is gone, and the DELETE is answered without success. -/
theorem delete_halfway : ∃ c c' : State, final eraseSigned friendRun = some c ∧
    Answers Sample.codec (Sample.verify eraseSigned) c (.delete eraseRequest) messagesFailed c' ∧
    messagesFailed.success = false ∧ ¬ c'.world.db.Same c.world.db ∧
    ∃ x ∈ c.world.db.friendRequests, x.requesterHashId = word 1 ∧ c'.world.db.friendRequests = [] := by
  have hbefore : ((final eraseSigned friendRun).map fun c ↦
      (c.pool.length, c.world.db.friendRequests.map (·.requesterHashId))) = some (5, [word 1]) := by
    decide +kernel
  have hafter : ((final eraseSigned (friendRun ++ .spawn (.request (.delete eraseRequest)) ::
      failsAtMessages.map (.step 5))).map fun c ↦
      (c.answered 5, c.world.db.friendRequests)) =
        some (some (.request (.delete eraseRequest), messagesFailed), []) := by decide +kernel
  obtain ⟨c, hc, hview⟩ := Option.map_eq_some_iff.mp hbefore
  obtain ⟨hpool, hrequests⟩ := Prod.mk.inj hview
  obtain ⟨d, hd, hview⟩ := Option.map_eq_some_iff.mp hafter
  obtain ⟨hans, hgone⟩ := Prod.mk.inj hview
  obtain ⟨c', hanswers, hc'⟩ := answers_of_oracles _ messagesFailed failsAtMessages hc
    (by rw [hc]; exact congrArg some hpool) (by rw [hd]; exact hans)
  obtain rfl : d = c' := Option.some.inj (hd.symm.trans hc')
  obtain ⟨x, hx, hu⟩ := List.mem_map.mp (hrequests ▸ List.mem_cons_self)
  refine ⟨c, d, hc, hanswers, rfl, fun hsame ↦ ?_, x, hx, hu, hgone⟩
  have hperm := hsame.friendRequests
  rw [hgone, List.nil_perm] at hperm
  rw [hperm] at hx
  exact nomatch hx

open Sample in
/-- The deletes before that of the messages are done, and the account of user 1 is as before. -/
theorem failed_delete_halfway : ∃ c c' : State, final eraseSigned friendRun = some c ∧
    Answers Sample.codec (Sample.verify eraseSigned) c (.delete eraseRequest) messagesFailed c' ∧
    c.world.db.StopsAt (word 1) (.deleteMessagesOf (word 1)) c'.world.db ∧
    c.world.db.KeepsAccount c'.world.db := by
  have hpool : ((final eraseSigned friendRun).map fun c ↦ c.pool.length) = some 5 := by
    decide +kernel
  obtain ⟨c, hc, -⟩ := Option.map_eq_some_iff.mp hpool
  obtain ⟨c', h, -⟩ := answers_of_oracles (.delete eraseRequest) messagesFailed failsAtMessages hc
    hpool (by decide +kernel)
  obtain ⟨hstopped, hkeeps, -⟩ := failed_delete h rfl
  have hmem : Stmt.deleteMessagesOf (word 1) ∈ c.world.db.deletions (word 1) := by
    rw [deletions_eq]
    simp [Db.clears]
  exact ⟨c, c', hc, h, hstopped.failed _ hmem (.other "timeout") rfl, hkeeps⟩

/-! ## RECOVERY_CLAIM -/

/-- A row after the update of a RECOVERY_CLAIM. -/
def RecoveryClaimRequest.install (req : RecoveryClaimRequest) (x : User) : User :=
  if x.userHashId = req.usernameHash then
    { x with
      identityKeyDilithium := req.newIdentityDilithiumPubkey
      identitySignature := req.newIdentitySignature
      preKeyBundle := req.newPreKeyBundle }
  else x

/-- What a RECOVERY_CLAIM that is answered with `reply` leaves of the rows `db`. -/
structure RecoveryClaimRequest.Leaves (req : RecoveryClaimRequest) (db : Db) (reply : Reply)
    (db' : Db) : Prop where
  /-- Without success there is no session. -/
  failed : reply.success = false → db.sessions.Perm db'.sessions
  /-- Where the session was refused, the identity is replaced. -/
  halfway : ∀ e : DieselError, reply = .err s!"DB insert session: {e.toString}" →
    (db.users.map req.install).Perm db'.users
  /-- Without success for another reason, the identity is as before. -/
  unchanged : reply.success = false →
    (∀ e : DieselError, reply ≠ .err s!"DB insert session: {e.toString}") → db.users.Perm db'.users
  /-- With success both are stored. -/
  succeeded : reply.success = true → ∃ x : Session,
    reply.payload = .recoveryClaim { success := true, sessionToken := x.sessionToken } ∧
    x.userHashId = req.usernameHash ∧ (db.sessions ++ [x]).Perm db'.sessions ∧
    (∃ row ∈ db.users, row.userHashId = req.usernameHash) ∧
    (db.users.map req.install).Perm db'.users

/-- An INSERT of a session fails without effect, or appends the session. -/
theorem exec_insertSession (now : NaiveDateTime) (db : Db) (n : NewSession) :
    (∃ e, ((Stmt.insertSession n).exec now db).1 = .error e ∧
      ((Stmt.insertSession n).exec now db).2 = db) ∨
    ((Stmt.insertSession n).exec now db).1 = .ok 1 ∧ ((Stmt.insertSession n).exec now db).2 =
      { db with sessions := db.sessions ++ [⟨n.sessionToken, n.userHashId, n.sessionExpiry, now⟩] } := by
  simp only [Stmt.exec]
  split
  · exact .inl ⟨_, rfl, rfl⟩
  split
  · exact .inl ⟨_, rfl, rfl⟩
  · exact .inr ⟨rfl, rfl⟩

/-- Without success and with another message, nothing is stored. -/
theorem RecoveryClaimRequest.Leaves.of_same {req : RecoveryClaimRequest} {reply : Reply}
    (hr : reply.success = false) (hm : reply.errorMessage.toList[3]? ≠ some 'i')
    (h : db'.Same db) : req.Leaves db reply db' where
  failed _ := h.sessions.symm
  halfway e he := absurd (by simp [he, Reply.err, toString, String.toList_append]) hm
  unchanged _ _ := h.users.symm
  succeeded hs := nomatch hr.symm.trans hs

theorem recoveryClaim_wp (req : RecoveryClaimRequest) (hw : w.db.Same db) :
    (server codec verifyDetached).Wp (fun reply w ↦ req.Leaves db reply w.db)
      (processCall codec (.recoveryClaim req)) w := by
  refine (Machine.wp_bind _ _).mpr ?_
  unfold recoveryClaim
  iterate 3
    split
    · exact .of_same rfl (by decide) hw
  refine wp_fresh (fun w fresh hw ↦ ?_) hw
  split
  · exact .of_same rfl (by decide) hw
  refine wp_sql (fun w e hw ↦ .of_same rfl (by decide) hw) (fun w₁ w hw₁ hw ↦ ?_) hw
  cases huser : ((selectUser req.usernameHash).exec w₁.clock w₁.db).1 with
  | error e => exact .of_same rfl (by decide) hw
  | ok user =>
  obtain ⟨hmem, hu⟩ := selectUser_sound huser
  have hexists : ∃ row ∈ db.users, row.userHashId = req.usernameHash :=
    ⟨user, hw₁.users.mem_iff.mp hmem, hu⟩
  dsimp only
  split
  · exact .of_same rfl (by decide) hw
  refine wp_call (by nofun) (fun w valid hw ↦ ?_) hw
  split
  · exact .of_same rfl (by decide) hw
  refine wp_sql (fun w e hw ↦ .of_same rfl ?_ hw) (fun w₂ w hw₂ hw ↦ ?_) hw
  · simp [Reply.explained, Reply.err, toString, String.toList_append]
  refine wp_call (by nofun) (fun w token hw ↦ ?_) hw
  refine wp_utcNow (fun w now hw ↦ ?_) hw
  -- the identity is replaced, and the session is refused or stored
  have hhalf {w : World} {e : DieselError} {r : Reply}
      (hw : w.db.Same { db with users := db.users.map req.install })
      (hr : r = .err s!"DB insert session: {e.toString}") : req.Leaves db r w.db := by
    obtain rfl := hr
    exact ⟨fun _ ↦ hw.sessions.symm, fun _ _ ↦ hw.users.symm, fun _ hne ↦ absurd rfl (hne e), nofun⟩
  refine wp_sql (fun w e hw ↦ hhalf hw rfl) (fun w₃ w hw₃ hw ↦ ?_) hw
  have hw' := hw.trans (hw₃.exec w₃.clock _).symm
  rcases exec_insertSession w₃.clock w₃.db ⟨token.1, req.usernameHash, now + days 30⟩ with
    ⟨e, hr, hdb⟩ | ⟨hr, hdb⟩
  · rw [hr]
    rw [hdb] at hw'
    exact hhalf (hw'.trans hw₃) rfl
  · rw [hr]
    rw [hdb] at hw'
    refine ⟨nofun, nofun, nofun, fun _ ↦ ⟨⟨token.1, req.usernameHash, now + days 30, w₃.clock⟩, rfl,
      rfl, ?_, hexists, ?_⟩⟩
    · exact (hw'.sessions.trans (hw₃.sessions.append_right _)).symm
    · exact (hw'.users.trans hw₃.users).symm

/-- **A RECOVERY_CLAIM that fails.**  If a RECOVERY_CLAIM is answered without success, the sessions
are as before.  Where the answer says that the session could not be inserted, the new identity is
in place; after any other failure the users are as before too.  If it is answered with success, the
new identity and the session with the token of the answer are stored. -/
theorem recoveryClaim_leaves {req : RecoveryClaimRequest} {reply : Reply}
    (h : Answers codec verifyDetached c (.recoveryClaim req) reply c') :
    req.Leaves c.world.db reply c'.world.db := by
  obtain ⟨w, hw, hdrift⟩ := h.wp (recoveryClaim_wp req .rfl)
  have hsame := (drifts_same hdrift).symm
  refine ⟨fun hr ↦ ?_, fun e he ↦ ?_, fun hr hne ↦ ?_, fun hr ↦ ?_⟩
  · exact (hw.failed hr).trans hsame.sessions
  · exact (hw.halfway e he).trans hsame.users
  · exact (hw.unchanged hr hne).trans hsame.users
  · obtain ⟨x, hx, hu, hsessions, hrow, husers⟩ := hw.succeeded hr
    exact ⟨x, hx, hu, hsessions.trans hsame.sessions, hrow, husers.trans hsame.users⟩

namespace Sample

/-- User 1 publishes the recovery key 3. -/
def publishedRun : Moves :=
  registers 0 1 ++ .spawn (.request (.publishRecoveryKey recoveryKey)) :: steps 1 4

/-- The session of the recovery cannot be inserted. -/
def failsAtSession : List Oracle := List.replicate 4 .none ++ [random 4, .none, .fail "timeout"]

def sessionFailed : Reply := .err "DB insert session: timeout"

/-- The session of the recovery is inserted. -/
def insertsSession : List Oracle := List.replicate 4 .none ++ [random 4, .none, .none]

end Sample

open Sample in
/-- The identity key of user 1 is replaced, and the RECOVERY_CLAIM is answered with an error. -/
theorem recovery_halfway : ∃ c c' : State, final recoverySigned publishedRun = some c ∧
    Answers Sample.codec (Sample.verify recoverySigned) c (.recoveryClaim (recovery 4))
      sessionFailed c' ∧ sessionFailed.success = false ∧
    c.world.db.users.map (·.identityKeyDilithium) = [key 1] ∧
    c'.world.db.users.map (·.identityKeyDilithium) = [key 4] ∧ c'.world.db.sessions = [] := by
  have hbefore : ((final recoverySigned publishedRun).map fun c ↦
      (c.pool.length, c.world.db.users.map (·.identityKeyDilithium))) = some (2, [key 1]) := by
    decide +kernel
  have hafter : ((final recoverySigned (publishedRun ++
      .spawn (.request (.recoveryClaim (recovery 4))) :: failsAtSession.map (.step 2))).map fun c ↦
      (c.answered 2, c.world.db.users.map (·.identityKeyDilithium), c.world.db.sessions)) =
        some (some (.request (.recoveryClaim (recovery 4)), sessionFailed), [key 4], []) := by
    decide +kernel
  obtain ⟨c, hc, hview⟩ := Option.map_eq_some_iff.mp hbefore
  obtain ⟨hpool, hkey⟩ := Prod.mk.inj hview
  obtain ⟨d, hd, hview⟩ := Option.map_eq_some_iff.mp hafter
  obtain ⟨hans, hview⟩ := Prod.mk.inj hview
  obtain ⟨hnew, hnone⟩ := Prod.mk.inj hview
  obtain ⟨c', hanswers, hc'⟩ := answers_of_oracles _ sessionFailed failsAtSession hc
    (by rw [hc]; exact congrArg some hpool) (by rw [hd]; exact hans)
  obtain rfl : d = c' := Option.some.inj (hd.symm.trans hc')
  exact ⟨c, d, hc, hanswers, rfl, hkey, hnew, hnone⟩

open Sample in
/-- A recovery that succeeds stores the session whose token it returns. -/
theorem recoveryClaim_leaves_success : ∃ c c' : State,
    final recoverySigned publishedRun = some c ∧
    Answers Sample.codec (Sample.verify recoverySigned) c (.recoveryClaim (recovery 4))
      ⟨true, .recoveryClaim ⟨true, word 4, ""⟩, ""⟩ c' ∧
    ∃ x ∈ c'.world.db.sessions, x.sessionToken = word 4 ∧ x.userHashId = word 1 := by
  have hpool : ((final recoverySigned publishedRun).map fun c ↦ c.pool.length) = some 2 := by
    decide +kernel
  obtain ⟨c, hc, -⟩ := Option.map_eq_some_iff.mp hpool
  obtain ⟨c', h, -⟩ := answers_of_oracles (.recoveryClaim (recovery 4))
    ⟨true, .recoveryClaim ⟨true, word 4, ""⟩, ""⟩ insertsSession hc hpool (by decide +kernel)
  obtain ⟨x, hx, hu, hsessions, -⟩ := (recoveryClaim_leaves h).succeeded rfl
  injection hx with hx
  injection hx with _ htoken
  exact ⟨c, c', hc, h, x, hsessions.mem_iff.mp (by simp), htoken.symm, hu⟩

end ZenthDht
