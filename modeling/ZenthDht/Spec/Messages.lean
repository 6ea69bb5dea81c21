import ZenthDht.Spec.Fetch
import ZenthDht.Spec.Sequence

/-!
# Messages, one request after another

What an ACK_MESSAGE and a FETCH_MESSAGES that run alone make of the table of messages.  A message id
is given out once, so an acknowledgement deletes the row it names and nothing else; and the two
queries of a poll see the same rows.
-/

namespace ZenthDht

open Conc Stmt

variable {codec : Codec} {verifyDetached : Bytes → Bytes → Bytes → Bool}
variable {c c' : State} {db db' : Db} {t : Nat}

/-! ## Message ids -/

theorem nodup_messageIds_exec {now : NaiveDateTime} {s : Stmt}
    (h : (db.messages.map MessageModel.messageId).Nodup) :
    ((s.exec now db).2.messages.map MessageModel.messageId).Nodup := by
  cases s with
  | insertMessage n =>
      simp only [exec]
      split
      · exact h
      split
      · exact h
      next hnew =>
      rw [List.map_append, List.nodup_append]
      refine ⟨h, by simp, fun a ha b hb hab ↦ hnew ?_⟩
      obtain ⟨x, hx, rfl⟩ := List.mem_map.mp ha
      obtain rfl := List.mem_singleton.mp hb
      simp only [List.any_eq_true, decide_eq_true_eq]
      exact ⟨x, hx, hab⟩
  | deleteMessage i r => exact h.sublist (List.filter_sublist.map _)
  | deleteMessagesOf u => exact h.sublist (List.filter_sublist.map _)
  | purgeMessages t => exact h.sublist (List.filter_sublist.map _)
  | _ =>
      simp only [exec]
      repeat' split
      all_goals exact h

theorem Reachable.nodup_messageIds (h : Reachable codec verifyDetached c) :
    (c.world.db.messages.map MessageModel.messageId).Nodup := by
  refine h.induction (I := fun d ↦ (d.world.db.messages.map MessageModel.messageId).Nodup)
    (fun _ _ ↦ List.nodup_nil) ?_
  intro d m d' _ hd hs
  rcases Step.db hs with hsame | ⟨t, job, s, he⟩
  · exact (hsame.messages.map _).nodup_iff.mp hd
  · rw [he.db]
    exact nodup_messageIds_exec hd

theorem Reachable.message_unique (h : Reachable codec verifyDetached c) {x y : MessageModel}
    (hx : x ∈ c.world.db.messages) (hy : y ∈ c.world.db.messages)
    (hid : y.messageId = x.messageId) : y = x :=
  List.inj_on_of_nodup_map h.nodup_messageIds hy hx hid

/-- What is left without the row of a message. -/
def Db.withoutMessage (db : Db) (x : MessageModel) : Db :=
  { db with messages := db.messages.filter fun y ↦ y ≠ x }

/-- The delete of an acknowledgement removes the row it names. -/
theorem exec_deleteMessage (h : Reachable codec verifyDetached c) {now : NaiveDateTime}
    {x : MessageModel} (hx : x ∈ c.world.db.messages) :
    (exec now c.world.db (.deleteMessage x.messageId x.recipientHashId)).2 =
      c.world.db.withoutMessage x := by
  unfold Db.withoutMessage
  simp only [exec]
  congr 1
  refine List.filter_congr fun y hy ↦ ?_
  by_cases hxy : y = x
  · simp [hxy]
  · have hid : y.messageId ≠ x.messageId := fun hid ↦ hxy (h.message_unique hx hy hid)
    simp [hxy, hid]

/-! ## Reads -/

/-- No statement of thread `t` has failed for a reason of its own. -/
def Unfailing (c : State) (t : Nat) : Prop :=
  ∀ s m, (t, ⟨.sql s, .error (.other m)⟩) ∉ c.trace

/-- A statement that does not fail for a reason of its own is executed on the rows. -/
theorem Replays.executed {past : Past} {s : Stmt} {r : Res (.sql s)}
    (h : Replays (⟨.sql s, r⟩ :: past) db db') (hr : ∀ m, r ≠ .error (.other m)) :
    ∃ db₀ now, db.Same db₀ ∧ r = (s.exec now db₀).1 ∧ Replays past (s.exec now db₀).2 db' := by
  obtain ⟨db₁, ⟨db₀, now, hsame, ⟨hr', rfl⟩ | ⟨-, m, hm⟩⟩, hrest⟩ := h
  · exact ⟨db₀, now, hsame, hr', hrest⟩
  · exact absurd hm (hr m)

theorem Unfailing.result {s : Stmt} {r : Res (.sql s)} (h : Unfailing c t)
    (hmem : Did (past t c.trace) (.sql s) r) : ∀ m, r ≠ .error (.other m) := by
  rintro m rfl
  exact h s m (did_past.mp hmem)

/-- The rows of users have distinct hashes. -/
theorem Reachable.user_unique (h : Reachable codec verifyDetached c) {x y : User}
    (hx : x ∈ c.world.db.users) (hy : y ∈ c.world.db.users)
    (hu : y.userHashId = x.userHashId) : y = x :=
  List.inj_on_of_nodup_map h.keyed.users hy hx hu

/-- The row that a request reads first, alone, is that of the user. -/
theorem Reachable.selectUser (h : Reachable codec verifyDetached c) {y : User}
    (hy : y ∈ c.world.db.users) (hsame : c.world.db.Same db) {now : NaiveDateTime} :
    (exec now db (.selectUser y.userHashId)).1 = .ok y := by
  refine first_of_unique (List.mem_filter.mpr ⟨hsame.users.mem_iff.mp hy, decide_eq_true rfl⟩) ?_
  intro x hx
  obtain ⟨hx, hu⟩ := List.mem_filter.mp hx
  exact h.user_unique hy (hsame.users.mem_iff.mpr hx) (of_decide_eq_true hu)

/-! ## ACK_MESSAGE -/

namespace MessageAck

/-- All that an acknowledgement does. -/
def donePast (req : MessageAck) (user : User) (n : Nat) : Past :=
  [⟨.sql (.selectUser req.recipientHashId), .ok user⟩,
   ⟨.verify user.identityKeyDilithium req.signedData req.dilithiumSignature, true⟩,
   ⟨.sql (.deleteMessage req.messageId req.recipientHashId), .ok n⟩]

/-- What an acknowledgement has done when it is refused. -/
inductive Refused (req : MessageAck) : Past → Prop
  | unnamed (h : req.messageId = [] ∨ req.recipientHashId = []) : Refused req []
  | unsigned (h : req.dilithiumSignature = []) : Refused req []
  | unread (e : DieselError) :
      Refused req [⟨.sql (.selectUser req.recipientHashId), .error e⟩]
  | invalid (user : User) : Refused req
      [⟨.sql (.selectUser req.recipientHashId), .ok user⟩,
       ⟨.verify user.identityKeyDilithium req.signedData req.dilithiumSignature, false⟩]
  | undeleted (user : User) (e : DieselError) : Refused req
      [⟨.sql (.selectUser req.recipientHashId), .ok user⟩,
       ⟨.verify user.identityKeyDilithium req.signedData req.dilithiumSignature, true⟩,
       ⟨.sql (.deleteMessage req.messageId req.recipientHashId), .error e⟩]

end MessageAck

theorem ackMessage_done (req : MessageAck) :
    (processCall codec (.ackMessage req)).Obeys (fun _ _ ↦ True) (fun past reply ↦
      (req.messageId ≠ [] ∧ ∃ user n, past = req.donePast user n ∧ reply = ⟨true, .empty, ""⟩) ∨
      reply.success = false ∧ req.Refused past) [] := by
  have hack : (ackMessage req).Obeys (fun _ _ ↦ True) (fun past r ↦
      (req.messageId ≠ [] ∧ ∃ user n, past = req.donePast user n ∧ r = .ok ()) ∨
      (∃ m, r = .error m) ∧ req.Refused past) [] := by
    unfold ackMessage
    split
    next hnil =>
      simp only [Bool.or_eq_true, decide_eq_true_eq] at hnil
      exact .inr ⟨⟨_, rfl⟩, .unnamed hnil⟩
    next hnamed =>
    simp only [Bool.or_eq_true, decide_eq_true_eq, not_or] at hnamed
    split
    next hnil => exact .inr ⟨⟨_, rfl⟩, .unsigned hnil⟩
    refine obeys_sql trivial (fun e ↦ ?_) fun user ↦ ?_
    · cases e <;> exact .inr ⟨⟨_, rfl⟩, .unread _⟩
    refine obeys_call (o := .verify _ _ _) trivial fun valid ↦ ?_
    cases valid with
    | false => exact .inr ⟨⟨_, rfl⟩, .invalid user⟩
    | true =>
    refine obeys_sql trivial (fun e ↦ ?_) fun n ↦ ?_
    · exact .inr ⟨⟨_, rfl⟩, .undeleted user e⟩
    · exact .inl ⟨hnamed.1, user, n, rfl, rfl⟩
  refine hack.bind fun past r h ↦ ?_
  rcases h with ⟨hid, user, n, hpast, rfl⟩ | ⟨⟨m, rfl⟩, hrefused⟩
  · exact .inl ⟨hid, user, n, hpast, rfl⟩
  · exact .inr ⟨rfl, hrefused⟩

/-- What an acknowledgement that runs alone makes of the rows. -/
theorem MessageAck.donePast_replays {req : MessageAck} {user : User} {n : Nat}
    (h : Replays (req.donePast user n) db db') (now : NaiveDateTime) :
    ((deleteMessage req.messageId req.recipientHashId).exec now db).2.Same db' := by
  obtain ⟨db₀, now₀, hsame, -, h⟩ := h.executed nofun
  obtain ⟨db₁, hsame₁, h⟩ := h
  obtain ⟨db₂, now₂, hsame₂, -, h⟩ := h.executed nofun
  have hall : db.Same db₂ := (hsame.trans hsame₁).trans hsame₂
  exact (hall.exec now₂ _).trans h

end ZenthDht
