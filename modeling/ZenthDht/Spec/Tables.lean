import ZenthDht.Data.Serial
import ZenthDht.Model.Stmt

/-!
# What a statement does to a table

For each table, which rows a statement can leave in it and which rows it can take out of it.
A lemma of this file names every statement that writes the table; all others leave it alone.
-/

namespace ZenthDht

open Stmt

section

-- The equations of `exec` are generated here, and not by each of the proofs that unfold it.
attribute [local simp] exec

end

variable {now : NaiveDateTime} {db : Db} {s : Stmt}

/-! ## Reads -/

theorem mem_of_first {α : Type} {l : List α} {a : α} (h : first l = .ok a) : a ∈ l := by
  cases l with
  | nil => exact nomatch h
  | cons b l =>
      obtain rfl := Except.ok.inj h
      exact List.mem_cons_self

/-- The first row of a result in which there is only one. -/
theorem first_of_unique {α : Type} {l : List α} {a : α} (ha : a ∈ l) (h : ∀ b ∈ l, b = a) :
    first l = .ok a := by
  cases l with
  | nil => exact absurd ha List.not_mem_nil
  | cons b l =>
      obtain rfl := h b List.mem_cons_self
      rfl

theorem selectUser_sound {u : Bytes} {x : User}
    (h : ((selectUser u).exec now db).1 = .ok x) : x ∈ db.users ∧ x.userHashId = u := by
  simpa using mem_of_first h

theorem selectChallenge_sound {i u : Bytes} {x : AuthChallenge}
    (h : ((selectChallenge i u).exec now db).1 = .ok x) :
    x ∈ db.authChallenges ∧ x.challengeId = i ∧ x.userHashId = u := by
  simpa using mem_of_first h

theorem selectSession_sound {t u : Bytes} {x : Session}
    (h : ((selectSession t u).exec now db).1 = .ok x) :
    x ∈ db.sessions ∧ x.sessionToken = t ∧ x.userHashId = u := by
  simpa using mem_of_first h

theorem selectFriendRequest_sound {r t : Bytes} {x : FriendRequestModel}
    (h : ((selectFriendRequest r t).exec now db).1 = .ok x) :
    x ∈ db.friendRequests ∧ x.requesterHashId = r ∧ x.targetHashId = t := by
  simpa using mem_of_first h

theorem loadFriendRequests_sound {r : Bytes} {since : Option Int64} {rows : List FriendRequestModel}
    (h : ((loadFriendRequests r since).exec now db).1 = .ok rows) {x : FriendRequestModel}
    (hx : x ∈ rows) : x ∈ db.friendRequests := by
  obtain rfl := Except.ok.inj h
  exact List.mem_of_mem_filter ((List.perm_insertionSort _ _).mem_iff.mp hx)

/-- The filter is a date that PostgreSQL knows, and the rows are those after it. -/
theorem loadFriendResponses_ok {r : Bytes} {since : Option NaiveDateTime}
    {rows : List FriendResponseModel}
    (h : ((loadFriendResponses r since).exec now db).1 = .ok rows) :
    (∀ t ∈ since, timestampMin ≤ t) ∧
      rows = db.friendResponses.filter fun x ↦ x.requesterHashId = r && after since x.createdAt := by
  simp only [exec] at h
  split at h
  · exact nomatch h
  next hrange =>
    refine ⟨fun t ht ↦ ?_, (Except.ok.inj h).symm⟩
    simpa [Option.mem_def.mp ht] using hrange

theorem loadFriendResponses_rows (r : Bytes) (since : Option NaiveDateTime) :
    ((loadFriendResponses r since).exec now db).2 = db := by
  simp only [exec]
  split
  · rfl
  · rfl

theorem loadFriendResponses_sound {r : Bytes} {since : Option NaiveDateTime}
    {rows : List FriendResponseModel}
    (h : ((loadFriendResponses r since).exec now db).1 = .ok rows) {x : FriendResponseModel}
    (hx : x ∈ rows) : x ∈ db.friendResponses := by
  obtain ⟨-, rfl⟩ := loadFriendResponses_ok h
  exact List.mem_of_mem_filter hx

theorem loadAccepted_ok {u : Bytes} {since : Option NaiveDateTime}
    {rows : List (Bytes × Bytes × Bytes × NaiveDateTime)}
    (h : ((loadAccepted u since).exec now db).1 = .ok rows) :
    rows = (db.friendResponses.filter fun x ↦
        x.responderHashId = u && x.accepted && after since x.createdAt).flatMap fun x ↦
      (db.friendRequests.filter fun y ↦ y.id = x.requestId).map fun y ↦
        (y.requesterHashId, y.preKeyBundle, x.dilithiumSignature, x.createdAt) := by
  simp only [exec] at h
  split at h
  · exact nomatch h
  · exact (Except.ok.inj h).symm

theorem loadAccepted_rows (u : Bytes) (since : Option NaiveDateTime) :
    ((loadAccepted u since).exec now db).2 = db := by
  simp only [exec]
  split
  · rfl
  · rfl

theorem loadAccepted_sound {u : Bytes} {since : Option NaiveDateTime}
    {rows : List (Bytes × Bytes × Bytes × NaiveDateTime)}
    (h : ((loadAccepted u since).exec now db).1 = .ok rows)
    {x : Bytes × Bytes × Bytes × NaiveDateTime} (hx : x ∈ rows) :
    ∃ y ∈ db.friendRequests, y.requesterHashId = x.1 ∧ y.preKeyBundle = x.2.1 := by
  obtain rfl := loadAccepted_ok h
  obtain ⟨z, -, hx⟩ := List.mem_flatMap.mp hx
  obtain ⟨y, hy, rfl⟩ := List.mem_map.mp hx
  exact ⟨y, List.mem_of_mem_filter hy, rfl, rfl⟩

theorem loadMessages_sound {clock : NaiveDateTime} {r : Bytes} {since : Option Int64} {limit : Nat}
    {rows : List MessageModel}
    (h : ((Stmt.loadMessages r since now limit).exec clock db).1 = .ok rows) {x : MessageModel}
    (hx : x ∈ rows) : x ∈ db.messages ∧ x.recipientHashId = r := by
  obtain rfl := Except.ok.inj h
  have hsorted := List.mem_of_mem_take hx
  rw [List.mem_insertionSort] at hsorted
  obtain ⟨hx, hsel⟩ := List.mem_filter.mp hsorted
  simp only [selectsMessage, Bool.and_eq_true, decide_eq_true_eq] at hsel
  exact ⟨hx, hsel.1.1⟩

/-! ## users -/

/-- The row an INSERT into `users` creates. -/
def NewUser.row (n : NewUser) (now : NaiveDateTime) : User :=
  ⟨n.userHashId, n.passwordCommitment, n.identityKeyDilithium, n.identitySignature,
    n.preKeyBundle, n.proofType, now, n.recoveryDilithiumPubkey⟩

/-- The row after an UPDATE of its recovery key. -/
def User.withRecoveryKey (x : User) (k : Bytes) : User := { x with recoveryDilithiumPubkey := some k }

/-- The row after an UPDATE of its identity. -/
def User.withIdentity (x : User) (k g b : Bytes) : User :=
  { x with identityKeyDilithium := k, identitySignature := g, preKeyBundle := b }

theorem not_hasUser {u : Bytes} (h : ¬ db.hasUser u = true) {x : User} (hx : x ∈ db.users) :
    x.userHashId ≠ u := by
  simp only [Db.hasUser, List.any_eq_true, decide_eq_true_eq, not_exists, not_and] at h
  exact h x hx

/-- A row of `users` was there before, or it is new, or it is an updated one. -/
theorem mem_users_exec {x : User} (hx : x ∈ (s.exec now db).2.users) :
    x ∈ db.users ∨
    (∃ n, s = .insertUser n ∧ ¬ db.hasUser n.userHashId = true ∧ x = n.row now) ∨
    (∃ y ∈ db.users, ∃ k, s = .updateRecoveryKey y.userHashId k ∧
      x = y.withRecoveryKey k) ∨
    (∃ y ∈ db.users, ∃ k g b, s = .updateIdentity y.userHashId k g b ∧
      x = y.withIdentity k g b) := by
  cases s with
  | insertUser n =>
      simp only [exec] at hx
      split at hx
      · exact .inl hx
      next hn =>
      rcases List.mem_append.mp hx with hx | hx
      · exact .inl hx
      · exact .inr (.inl ⟨n, rfl, hn, List.mem_singleton.mp hx⟩)
  | updateRecoveryKey u k =>
      obtain ⟨y, hy, rfl⟩ := List.mem_map.mp hx
      split
      next hu => exact .inr (.inr (.inl ⟨y, hy, k, by rw [hu], rfl⟩))
      · exact .inl hy
  | updateIdentity u k g b =>
      obtain ⟨y, hy, rfl⟩ := List.mem_map.mp hx
      split
      next hu => exact .inr (.inr (.inr ⟨y, hy, k, g, b, by rw [hu], rfl⟩))
      · exact .inl hy
  | deleteUser u =>
      simp only [exec] at hx
      split at hx
      · exact .inl (List.mem_of_mem_filter hx)
      · exact .inl hx
  | _ =>
      left
      simp only [exec] at hx
      repeat' split at hx
      all_goals exact hx

/-- A row of `users` stays, or it is updated, or it goes with its account. -/
theorem users_exec (now : NaiveDateTime) (s : Stmt) {x : User} (hx : x ∈ db.users) :
    x ∈ (s.exec now db).2.users ∨
    (∃ k, s = .updateRecoveryKey x.userHashId k ∧
      x.withRecoveryKey k ∈ (s.exec now db).2.users) ∨
    (∃ k g b, s = .updateIdentity x.userHashId k g b ∧
      x.withIdentity k g b ∈ (s.exec now db).2.users) ∨
    (s = .deleteUser x.userHashId ∧
      ∀ y ∈ (s.exec now db).2.users, y.userHashId ≠ x.userHashId) := by
  cases s with
  | insertUser n =>
      left
      simp only [exec]
      split
      · exact hx
      · exact List.mem_append_left _ hx
  | updateRecoveryKey u k =>
      have hmem : (if x.userHashId = u then x.withRecoveryKey k else x) ∈
          ((updateRecoveryKey u k).exec now db).2.users := List.mem_map.mpr ⟨x, hx, rfl⟩
      split at hmem
      next hu => exact .inr (.inl ⟨k, by rw [hu], hmem⟩)
      · exact .inl hmem
  | updateIdentity u k g b =>
      have hmem : (if x.userHashId = u then x.withIdentity k g b else x) ∈
          ((updateIdentity u k g b).exec now db).2.users := List.mem_map.mpr ⟨x, hx, rfl⟩
      split at hmem
      next hu => exact .inr (.inr (.inl ⟨k, g, b, by rw [hu], hmem⟩))
      · exact .inl hmem
  | deleteUser u =>
      by_cases hu : x.userHashId = u
      · subst hu
        have hhas : db.hasUser x.userHashId = true := by
          simp only [Db.hasUser, List.any_eq_true, decide_eq_true_eq]
          exact ⟨x, hx, rfl⟩
        refine .inr (.inr (.inr ⟨rfl, ?_⟩))
        simp only [exec, hhas, if_true]
        intro y hy
        simpa using (List.mem_filter.mp hy).2
      · left
        simp only [exec]
        split
        · exact List.mem_filter.mpr ⟨hx, by simpa using hu⟩
        · exact hx
  | _ =>
      left
      simp only [exec]
      repeat' split
      all_goals exact hx

theorem hasUser_iff {u : Bytes} : db.hasUser u = true ↔ ∃ x ∈ db.users, x.userHashId = u := by
  simp [Db.hasUser]

/-- Accounts stay until they are deleted. -/
theorem hasUser_exec {u : Bytes} (h : db.hasUser u = true) (hs : s ≠ .deleteUser u) :
    (s.exec now db).2.hasUser u = true := by
  obtain ⟨x, hx, rfl⟩ := hasUser_iff.mp h
  rw [hasUser_iff]
  rcases users_exec now s hx with hx | ⟨k, -, hx⟩ | ⟨k, g, b, -, hx⟩ | ⟨hd, -⟩
  · exact ⟨x, hx, rfl⟩
  · exact ⟨_, hx, rfl⟩
  · exact ⟨_, hx, rfl⟩
  · exact absurd hd hs

/-! ## auth_challenges and sessions -/

/-- The row an INSERT into `auth_challenges` creates. -/
def NewAuthChallenge.row (n : NewAuthChallenge) (now : NaiveDateTime) : AuthChallenge :=
  ⟨n.challengeId, n.userHashId, n.nonce, n.requiredProofType, n.publicParameters, n.difficulty,
    now, n.expiresAt⟩

theorem mem_authChallenges_exec {x : AuthChallenge}
    (hx : x ∈ (s.exec now db).2.authChallenges) :
    x ∈ db.authChallenges ∨ ∃ n, s = .insertChallenge n ∧ x = n.row now ∧
      ((insertChallenge n).exec now db).1 = .ok 1 := by
  cases s with
  | insertChallenge n =>
      simp only [exec] at hx ⊢
      split at hx
      · exact .inl hx
      next hid =>
      split at hx
      · exact .inl hx
      next hu =>
      rcases List.mem_append.mp hx with hx | hx
      · exact .inl hx
      · refine .inr ⟨n, rfl, List.mem_singleton.mp hx, ?_⟩
        rw [if_neg hid, if_neg hu]
  | deleteChallenge i => exact .inl (List.mem_of_mem_filter hx)
  | deleteChallengesOf u => exact .inl (List.mem_of_mem_filter hx)
  | deleteUser u =>
      simp only [exec] at hx
      split at hx
      · exact .inl (List.mem_of_mem_filter hx)
      · exact .inl hx
  | _ =>
      left
      simp only [exec] at hx
      repeat' split at hx
      all_goals exact hx

/-- The row an INSERT into `sessions` creates. -/
def NewSession.row (n : NewSession) (now : NaiveDateTime) : Session :=
  ⟨n.sessionToken, n.userHashId, n.sessionExpiry, now⟩

theorem mem_sessions_exec {x : Session} (hx : x ∈ (s.exec now db).2.sessions) :
    x ∈ db.sessions ∨ ∃ n, s = .insertSession n ∧ x = n.row now ∧
      ((insertSession n).exec now db).1 = .ok 1 := by
  cases s with
  | insertSession n =>
      simp only [exec] at hx ⊢
      split at hx
      · exact .inl hx
      next ht =>
      split at hx
      · exact .inl hx
      next hu =>
      rcases List.mem_append.mp hx with hx | hx
      · exact .inl hx
      · refine .inr ⟨n, rfl, List.mem_singleton.mp hx, ?_⟩
        rw [if_neg ht, if_neg hu]
  | deleteSessionsOf u => exact .inl (List.mem_of_mem_filter hx)
  | deleteUser u =>
      simp only [exec] at hx
      split at hx
      · exact .inl (List.mem_of_mem_filter hx)
      · exact .inl hx
  | _ =>
      left
      simp only [exec] at hx
      repeat' split at hx
      all_goals exact hx

/-- A session stays, or it goes with its user. -/
theorem sessions_exec {x : Session} (hx : x ∈ db.sessions) :
    x ∈ (s.exec now db).2.sessions ∨ s = .deleteSessionsOf x.userHashId ∨
    s = .deleteUser x.userHashId ∧ ∃ a, (s.exec now db).1 = .ok a := by
  cases s with
  | insertSession n =>
      left
      simp only [exec]
      repeat' split
      · exact hx
      · exact hx
      · exact List.mem_append_left _ hx
  | deleteSessionsOf u =>
      by_cases hu : x.userHashId = u
      · exact .inr (.inl (by rw [hu]))
      · exact .inl (List.mem_filter.mpr ⟨hx, by simpa using hu⟩)
  | deleteUser u =>
      by_cases hu : x.userHashId = u
      · refine .inr (.inr ⟨by rw [hu], ?_⟩)
        simp only [exec]
        split <;> exact ⟨_, rfl⟩
      · left
        simp only [exec]
        split
        · exact List.mem_filter.mpr ⟨hx, by simpa using hu⟩
        · exact hx
  | _ =>
      left
      simp only [exec]
      repeat' split
      all_goals exact hx

theorem nodup_sessions_exec (h : (db.sessions.map Session.sessionToken).Nodup) :
    ((s.exec now db).2.sessions.map Session.sessionToken).Nodup := by
  cases s with
  | insertSession n =>
      simp only [exec]
      split
      · exact h
      next hnew =>
      split
      · exact h
      rw [List.map_append, List.nodup_append]
      refine ⟨h, by simp, fun a ha b hb hab ↦ hnew ?_⟩
      obtain ⟨x, hx, rfl⟩ := List.mem_map.mp ha
      obtain rfl := List.mem_singleton.mp hb
      simp only [List.any_eq_true, decide_eq_true_eq]
      exact ⟨x, hx, hab⟩
  | deleteSessionsOf u => exact h.sublist (List.filter_sublist.map _)
  | deleteUser u =>
      simp only [exec]
      split
      · exact h.sublist (List.filter_sublist.map _)
      · exact h
  | _ =>
      simp only [exec]
      repeat' split
      all_goals exact h

/-! ## messages and relay_messages -/

/-- The row an INSERT into `messages` creates. -/
def NewMessage.row (n : NewMessage) (id : Nat) (now : NaiveDateTime) : MessageModel :=
  ⟨id, n.messageId, n.senderHashId, n.recipientHashId, n.content, n.dilithiumSignature,
    n.timestamp, n.serverTimestamp, false, now, n.expiresAt⟩

theorem mem_messages_exec {x : MessageModel} (hx : x ∈ (s.exec now db).2.messages) :
    x ∈ db.messages ∨ ∃ n, s = .insertMessage n ∧ x = n.row db.seq.messages now := by
  cases s with
  | insertMessage n =>
      simp only [exec] at hx
      split at hx
      · exact .inl hx
      split at hx
      · exact .inl hx
      rcases List.mem_append.mp hx with hx | hx
      · exact .inl hx
      · exact .inr ⟨n, rfl, List.mem_singleton.mp hx⟩
  | deleteMessage i r => exact .inl (List.mem_of_mem_filter hx)
  | deleteMessagesOf u => exact .inl (List.mem_of_mem_filter hx)
  | purgeMessages t => exact .inl (List.mem_of_mem_filter hx)
  | _ =>
      left
      simp only [exec] at hx
      repeat' split at hx
      all_goals exact hx

/-- A message stays, or it is acknowledged, goes with an account, or has expired. -/
theorem messages_exec {x : MessageModel} (hx : x ∈ db.messages) :
    x ∈ (s.exec now db).2.messages ∨ s = .deleteMessage x.messageId x.recipientHashId ∨
    s = .deleteMessagesOf x.senderHashId ∨ s = .deleteMessagesOf x.recipientHashId ∨
    (∃ t, s = .purgeMessages t ∧ x.expiresAt < t) := by
  cases s with
  | insertMessage n =>
      left
      simp only [exec]
      repeat' split
      · exact hx
      · exact hx
      · exact List.mem_append_left _ hx
  | deleteMessage i r =>
      by_cases h : x.messageId = i ∧ x.recipientHashId = r
      · exact .inr (.inl (by rw [h.1, h.2]))
      · exact .inl (List.mem_filter.mpr ⟨hx, by simpa using not_and_or.mp h⟩)
  | deleteMessagesOf u =>
      by_cases hs : x.senderHashId = u
      · exact .inr (.inr (.inl (by rw [hs])))
      by_cases hr : x.recipientHashId = u
      · exact .inr (.inr (.inr (.inl (by rw [hr]))))
      · exact .inl (List.mem_filter.mpr ⟨hx, by simp [hs, hr]⟩)
  | purgeMessages t =>
      by_cases h : x.expiresAt < t
      · exact .inr (.inr (.inr (.inr ⟨t, rfl, h⟩)))
      · exact .inl (List.mem_filter.mpr ⟨hx, by simpa using h⟩)
  | _ =>
      left
      simp only [exec]
      repeat' split
      all_goals exact hx

/-- The row an INSERT into `relay_messages` creates. -/
def NewRelayMessage.row (n : NewRelayMessage) (id : Nat) : RelayMessage :=
  ⟨id, n.forDeviceDilithiumPubkey, n.ciphertext, n.nonce, n.expiresAt⟩

theorem mem_relayMessages_exec {x : RelayMessage} (hx : x ∈ (s.exec now db).2.relayMessages) :
    x ∈ db.relayMessages ∨ ∃ n, s = .insertRelay n ∧ x = n.row db.seq.relayMessages := by
  cases s with
  | insertRelay n =>
      rcases List.mem_append.mp hx with hx | hx
      · exact .inl hx
      · exact .inr ⟨n, rfl, List.mem_singleton.mp hx⟩
  | deleteRelayUpTo d i => exact .inl (List.mem_of_mem_filter hx)
  | purgeRelay t => exact .inl (List.mem_of_mem_filter hx)
  | _ =>
      left
      simp only [exec] at hx
      repeat' split at hx
      all_goals exact hx

/-- A relay entry stays, or it is acknowledged, or has expired. -/
theorem relayMessages_exec {x : RelayMessage} (hx : x ∈ db.relayMessages) :
    x ∈ (s.exec now db).2.relayMessages ∨
    (∃ i, s = .deleteRelayUpTo x.forDeviceDilithiumPubkey i ∧ (x.id : Int) ≤ i.toInt) ∨
    (∃ t, s = .purgeRelay t ∧ x.expiresAt < t) := by
  cases s with
  | insertRelay n => exact .inl (List.mem_append_left _ hx)
  | deleteRelayUpTo d i =>
      by_cases h : x.forDeviceDilithiumPubkey = d ∧ (x.id : Int) ≤ i.toInt
      · exact .inr (.inl ⟨i, by rw [h.1], h.2⟩)
      · exact .inl (List.mem_filter.mpr ⟨hx, by simpa using not_and_or.mp h⟩)
  | purgeRelay t =>
      by_cases h : x.expiresAt < t
      · exact .inr (.inr ⟨t, rfl, h⟩)
      · exact .inl (List.mem_filter.mpr ⟨hx, by simpa using h⟩)
  | _ =>
      left
      simp only [exec]
      repeat' split
      all_goals exact hx

/-! ## sync_blobs -/

theorem mem_syncBlobs_exec {x : SyncBlob} (hx : x ∈ (s.exec now db).2.syncBlobs) :
    (x ∈ db.syncBlobs ∧ ∀ b, s = .upsertBlob b →
      b.forDeviceDilithiumPubkey ≠ x.forDeviceDilithiumPubkey) ∨ s = .upsertBlob x := by
  cases s with
  | upsertBlob b =>
      simp only [exec] at hx
      split at hx
      · obtain ⟨y, hy, rfl⟩ := List.mem_map.mp hx
        split
        next heq => exact .inr (by rw [heq])
        next hne => exact .inl ⟨hy, by rintro _ ⟨⟩ heq; exact hne heq.symm⟩
      next hnone =>
        rcases List.mem_append.mp hx with hx | hx
        · refine .inl ⟨hx, ?_⟩
          rintro _ ⟨⟩ heq
          simp only [List.any_eq_true, decide_eq_true_eq, not_exists, not_and] at hnone
          exact hnone x hx heq.symm
        · exact .inr (by rw [List.mem_singleton.mp hx])
  | deleteBlob d => exact .inl ⟨List.mem_of_mem_filter hx, nofun⟩
  | purgeBlobs t => exact .inl ⟨List.mem_of_mem_filter hx, nofun⟩
  | _ =>
      refine .inl ⟨?_, nofun⟩
      simp only [exec] at hx
      repeat' split at hx
      all_goals exact hx

/-- A blob stays, or it is replaced, deleted or has expired. -/
theorem syncBlobs_exec {x : SyncBlob} (hx : x ∈ db.syncBlobs) :
    x ∈ (s.exec now db).2.syncBlobs ∨
    (∃ b, s = .upsertBlob b ∧ b.forDeviceDilithiumPubkey = x.forDeviceDilithiumPubkey) ∨
    s = .deleteBlob x.forDeviceDilithiumPubkey ∨ (∃ t, s = .purgeBlobs t ∧ x.expiresAt < t) := by
  cases s with
  | upsertBlob b =>
      by_cases heq : b.forDeviceDilithiumPubkey = x.forDeviceDilithiumPubkey
      · exact .inr (.inl ⟨b, rfl, heq⟩)
      left
      simp only [exec]
      split
      · exact List.mem_map.mpr ⟨x, hx, if_neg (Ne.symm heq)⟩
      · exact List.mem_append_left _ hx
  | deleteBlob d =>
      by_cases h : x.forDeviceDilithiumPubkey = d
      · exact .inr (.inr (.inl (by rw [h])))
      · exact .inl (List.mem_filter.mpr ⟨hx, by simpa using h⟩)
  | purgeBlobs t =>
      by_cases h : x.expiresAt < t
      · exact .inr (.inr (.inr ⟨t, rfl, h⟩))
      · exact .inl (List.mem_filter.mpr ⟨hx, by simpa using h⟩)
  | _ =>
      left
      simp only [exec]
      repeat' split
      all_goals exact hx

/-- The row of a device after a push for it. -/
theorem upsertBlob_mem (now : NaiveDateTime) (db : Db) (b : SyncBlob) :
    b ∈ ((Stmt.upsertBlob b).exec now db).2.syncBlobs := by
  simp only [exec]
  split
  next hsome =>
    simp only [List.any_eq_true, decide_eq_true_eq] at hsome
    obtain ⟨x, hx, heq⟩ := hsome
    exact List.mem_map.mpr ⟨x, hx, by rw [if_pos heq, heq]⟩
  · simp

/-! ## one_time_prekeys -/

/-- The row an INSERT into `one_time_prekeys` creates. -/
def NewOneTimePrekey.row (p : NewOneTimePrekey) (id : Nat) (now : NaiveDateTime) : OneTimePrekey :=
  ⟨id, p.userHashId, p.prekeyId, p.publicKey, false, now⟩

/-- Every row of the statement draws a value from the sequence. -/
theorem seq_insertPrekeys (now : NaiveDateTime) (ps : List NewOneTimePrekey)
    (rows : List OneTimePrekey) (seq n : Nat) :
    (ps.foldl (insertPrekey now) (rows, seq, n)).2.1 = seq + ps.length := by
  induction ps generalizing rows seq n with
  | nil => rfl
  | cons p ps ih =>
      rw [List.foldl_cons]
      simp only [insertPrekey]
      split <;> rw [ih, List.length_cons] <;> omega

theorem mem_insertPrekeys (now : NaiveDateTime) (ps : List NewOneTimePrekey)
    (rows : List OneTimePrekey) (seq n : Nat) {x : OneTimePrekey}
    (hx : x ∈ (ps.foldl (insertPrekey now) (rows, seq, n)).1) :
    x ∈ rows ∨ ∃ p ∈ ps, ∃ id, seq ≤ id ∧ x = p.row id now := by
  induction ps generalizing rows seq n with
  | nil => exact .inl hx
  | cons p ps ih =>
      rw [List.foldl_cons] at hx
      simp only [insertPrekey] at hx
      split at hx
      · rcases ih _ _ _ hx with hx | ⟨p', hp', id, hid, rfl⟩
        · exact .inl hx
        · exact .inr ⟨p', List.mem_cons_of_mem _ hp', id, by omega, rfl⟩
      · rcases ih _ _ _ hx with hx | ⟨p', hp', id, hid, rfl⟩
        · rcases List.mem_append.mp hx with hx | hx
          · exact .inl hx
          · exact .inr ⟨p, List.mem_cons_self, seq, le_rfl, List.mem_singleton.mp hx⟩
        · exact .inr ⟨p', List.mem_cons_of_mem _ hp', id, by omega, rfl⟩

/-- A row of `one_time_prekeys` was there before, or is now marked, or is new. -/
theorem mem_oneTimePrekeys_exec {x : OneTimePrekey} (hx : x ∈ (s.exec now db).2.oneTimePrekeys) :
    x ∈ db.oneTimePrekeys ∧ s ≠ .markPrekeyUsed x.id ∨
    (∃ y ∈ db.oneTimePrekeys, s = .markPrekeyUsed y.id ∧ x = { y with used := true }) ∨
    (∃ ps, s = .insertPrekeys ps ∧ ∃ p ∈ ps, ∃ id, db.seq.oneTimePrekeys ≤ id ∧
      x = p.row id now) := by
  cases s with
  | insertPrekeys ps =>
      simp only [exec] at hx
      split at hx
      · exact .inl ⟨hx, nofun⟩
      · rcases mem_insertPrekeys now ps _ _ _ hx with hx | hnew
        · exact .inl ⟨hx, nofun⟩
        · exact .inr (.inr ⟨ps, rfl, hnew⟩)
  | markPrekeyUsed i =>
      obtain ⟨y, hy, rfl⟩ := List.mem_map.mp hx
      split
      next hi => exact .inr (.inl ⟨y, hy, by rw [hi], rfl⟩)
      next hi => exact .inl ⟨hy, fun h ↦ hi (Stmt.markPrekeyUsed.inj h).symm⟩
  | deleteUser u =>
      simp only [exec] at hx
      split at hx
      · exact .inl ⟨List.mem_of_mem_filter hx, nofun⟩
      · exact .inl ⟨hx, nofun⟩
  | _ =>
      refine .inl ⟨?_, nofun⟩
      simp only [exec] at hx
      repeat' split at hx
      all_goals exact hx

theorem subset_insertPrekeys (now : NaiveDateTime) (ps : List NewOneTimePrekey)
    (rows : List OneTimePrekey) (seq n : Nat) {x : OneTimePrekey} (hx : x ∈ rows) :
    x ∈ (ps.foldl (insertPrekey now) (rows, seq, n)).1 := by
  induction ps generalizing rows seq n with
  | nil => exact hx
  | cons p ps ih =>
      rw [List.foldl_cons]
      simp only [insertPrekey]
      split
      · exact ih _ _ _ hx
      · exact ih _ _ _ (List.mem_append_left _ hx)

/-- A row of `one_time_prekeys` stays, or it is marked, or it goes with its account. -/
theorem oneTimePrekeys_exec (now : NaiveDateTime) (s : Stmt) {x : OneTimePrekey}
    (hx : x ∈ db.oneTimePrekeys) :
    x ∈ (s.exec now db).2.oneTimePrekeys ∨
    (s = .markPrekeyUsed x.id ∧ { x with used := true } ∈ (s.exec now db).2.oneTimePrekeys) ∨
    s = .deleteUser x.userHashId := by
  cases s with
  | insertPrekeys ps =>
      left
      simp only [exec]
      split
      · exact hx
      · exact subset_insertPrekeys now ps _ _ _ hx
  | markPrekeyUsed i =>
      have hmem : (if x.id = i then { x with used := true } else x) ∈
          ((markPrekeyUsed i).exec now db).2.oneTimePrekeys := List.mem_map.mpr ⟨x, hx, rfl⟩
      split at hmem
      next hi => exact .inr (.inl ⟨by rw [hi], hmem⟩)
      · exact .inl hmem
  | deleteUser u =>
      by_cases hu : x.userHashId = u
      · exact .inr (.inr (by rw [hu]))
      · left
        simp only [exec]
        split
        · exact List.mem_filter.mpr ⟨hx, by simpa using hu⟩
        · exact hx
  | _ =>
      left
      simp only [exec]
      repeat' split
      all_goals exact hx

theorem seq_oneTimePrekeys_exec :
    db.seq.oneTimePrekeys ≤ (s.exec now db).2.seq.oneTimePrekeys := by
  cases s with
  | insertPrekeys ps =>
      simp only [exec]
      split <;> simp only [seq_insertPrekeys] <;> exact Nat.le_add_right _ _
  | _ =>
      simp only [exec]
      repeat' split
      all_goals exact le_rfl

theorem selectUnusedPrekey_sound {u : Bytes} {id : Nat} {prekeyId : Int32} {publicKey : Bytes}
    (h : ((selectUnusedPrekey u).exec now db).1 = .ok (id, prekeyId, publicKey)) :
    ∃ x ∈ db.oneTimePrekeys, x.id = id ∧ x.userHashId = u ∧ x.prekeyId = prekeyId ∧
      x.publicKey = publicKey ∧ x.used = false := by
  obtain ⟨x, hx, he⟩ := List.mem_map.mp (mem_of_first h)
  obtain ⟨hx, hu⟩ := List.mem_filter.mp ((List.perm_insertionSort _ _).mem_iff.mp hx)
  simp only [Prod.mk.injEq] at he
  simp only [Bool.and_eq_true, decide_eq_true_eq, Bool.not_eq_true'] at hu
  exact ⟨x, hx, he.1, hu.1, he.2.1, he.2.2, hu.2⟩

/-! ## friend_requests and friend_responses -/

/-- The row an INSERT into `friend_requests` creates. -/
def NewFriendRequest.row (n : NewFriendRequest) (id : Nat) (now : NaiveDateTime) :
    FriendRequestModel :=
  ⟨id, n.requesterHashId, n.targetHashId, n.preKeyBundle, n.dilithiumSignature,
    n.encryptedMessage, n.timestamp, now⟩

/-- A row of `friend_requests` was there before, or it is new, or it is an updated one. -/
theorem mem_friendRequests_exec {x : FriendRequestModel}
    (hx : x ∈ (s.exec now db).2.friendRequests) :
    x ∈ db.friendRequests ∨
    (∃ n, s = .insertFriendRequest n ∧ x = n.row db.seq.friendRequests now) ∨
    (∃ y ∈ db.friendRequests, ∃ b g m ts,
      s = .updateFriendRequest y.requesterHashId y.targetHashId b g m ts ∧
      x = { y with preKeyBundle := b, dilithiumSignature := g, encryptedMessage := m,
                   timestamp := ts }) := by
  cases s with
  | insertFriendRequest n =>
      simp only [exec] at hx
      repeat' split at hx
      · exact .inl hx
      · exact .inl hx
      · exact .inl hx
      · rcases List.mem_append.mp hx with hx | hx
        · exact .inl hx
        · exact .inr (.inl ⟨n, rfl, List.mem_singleton.mp hx⟩)
  | updateFriendRequest r t b g m ts =>
      obtain ⟨y, hy, rfl⟩ := List.mem_map.mp hx
      split
      next hrt =>
        simp only [Bool.and_eq_true, decide_eq_true_eq] at hrt
        exact .inr (.inr ⟨y, hy, b, g, m, ts, by rw [hrt.1, hrt.2], rfl⟩)
      · exact .inl hy
  | deleteFriendRequestsOf u => exact .inl (List.mem_of_mem_filter hx)
  | deleteUser u =>
      simp only [exec] at hx
      split at hx
      · exact .inl (List.mem_of_mem_filter hx)
      · exact .inl hx
  | _ =>
      left
      simp only [exec] at hx
      repeat' split at hx
      all_goals exact hx

/-- A row of `friend_requests` stays, up to an update, or it goes with the responses to it. -/
theorem friendRequests_exec (now : NaiveDateTime) (s : Stmt) {y : FriendRequestModel}
    (hy : y ∈ db.friendRequests) :
    (∃ y' ∈ (s.exec now db).2.friendRequests, y'.id = y.id ∧
      y'.requesterHashId = y.requesterHashId ∧ y'.targetHashId = y.targetHashId) ∨
    ∀ x ∈ (s.exec now db).2.friendResponses, x.requestId ≠ y.id := by
  -- both deletes remove the responses to the requests they remove
  have hremove (p : FriendRequestModel → Bool) :
      (∃ y' ∈ (removeFriendRequests db p).friendRequests, y'.id = y.id ∧
        y'.requesterHashId = y.requesterHashId ∧ y'.targetHashId = y.targetHashId) ∨
      ∀ x ∈ (removeFriendRequests db p).friendResponses, x.requestId ≠ y.id := by
    by_cases hp : p y = true
    · right
      intro x hx hid
      have hgone := (List.mem_filter.mp hx).2
      have hmem : y.id ∈ (db.friendRequests.filter p).map FriendRequestModel.id :=
        List.mem_map_of_mem (List.mem_filter.mpr ⟨hy, hp⟩)
      rw [hid] at hgone
      simp [hmem] at hgone
    · exact .inl ⟨y, List.mem_filter.mpr ⟨hy, by simpa using hp⟩, rfl, rfl, rfl⟩
  cases s with
  | insertFriendRequest n =>
      left
      simp only [exec]
      repeat' split
      · exact ⟨y, hy, rfl, rfl, rfl⟩
      · exact ⟨y, hy, rfl, rfl, rfl⟩
      · exact ⟨y, hy, rfl, rfl, rfl⟩
      · exact ⟨y, List.mem_append_left _ hy, rfl, rfl, rfl⟩
  | updateFriendRequest r t b g m ts =>
      refine .inl ⟨_, List.mem_map_of_mem hy, ?_⟩
      split
      · exact ⟨rfl, rfl, rfl⟩
      · exact ⟨rfl, rfl, rfl⟩
  | deleteFriendRequestsOf u => exact hremove _
  | deleteUser u =>
      simp only [exec]
      split
      · exact hremove _
      · exact .inl ⟨y, hy, rfl, rfl, rfl⟩
  | _ =>
      left
      simp only [exec]
      repeat' split
      all_goals exact ⟨y, hy, rfl, rfl, rfl⟩

/-- A row of `friend_requests` stays as it is, or it is updated, or one of its parties goes. -/
theorem friendRequests_stay (now : NaiveDateTime) (s : Stmt) {x : FriendRequestModel}
    (hx : x ∈ db.friendRequests) :
    x ∈ (s.exec now db).2.friendRequests ∨
    (∃ b g m ts, s = .updateFriendRequest x.requesterHashId x.targetHashId b g m ts) ∨
    ∃ u, (x.requesterHashId = u ∨ x.targetHashId = u) ∧
      (s = .deleteFriendRequestsOf u ∨ s = .deleteUser u) := by
  have hremove (u : Bytes) (hu : ¬ (x.requesterHashId = u ∨ x.targetHashId = u)) :
      x ∈ (removeFriendRequests db fun y ↦
        y.requesterHashId = u || y.targetHashId = u).friendRequests := by
    refine List.mem_filter.mpr ⟨hx, ?_⟩
    simpa using hu
  cases s with
  | insertFriendRequest n =>
      left
      simp only [exec]
      repeat' split
      · exact hx
      · exact hx
      · exact hx
      · exact List.mem_append_left _ hx
  | updateFriendRequest r t b g m ts =>
      by_cases h : x.requesterHashId = r ∧ x.targetHashId = t
      · exact .inr (.inl ⟨b, g, m, ts, by rw [h.1, h.2]⟩)
      · refine .inl (List.mem_map.mpr ⟨x, hx, ?_⟩)
        rw [if_neg (by simpa using h)]
  | deleteFriendRequestsOf u =>
      by_cases hu : x.requesterHashId = u ∨ x.targetHashId = u
      · exact .inr (.inr ⟨u, hu, .inl rfl⟩)
      · exact .inl (hremove u hu)
  | deleteUser u =>
      by_cases hu : x.requesterHashId = u ∨ x.targetHashId = u
      · exact .inr (.inr ⟨u, hu, .inr rfl⟩)
      · left
        simp only [exec]
        split
        · exact hremove u hu
        · exact hx
  | _ =>
      left
      simp only [exec]
      repeat' split
      all_goals exact hx

theorem seq_friendRequests_exec :
    db.seq.friendRequests ≤ (s.exec now db).2.seq.friendRequests := by
  cases s with
  | insertFriendRequest n =>
      simp only [exec]
      repeat' split
      all_goals exact Nat.le_succ _
  | deleteUser u =>
      simp only [exec]
      split <;> exact le_rfl
  | _ =>
      simp only [exec]
      repeat' split
      all_goals exact le_rfl

/-- The row an INSERT into `friend_responses` creates. -/
def NewFriendResponse.row (n : NewFriendResponse) (id : Nat) (now : NaiveDateTime) :
    FriendResponseModel :=
  ⟨id, n.requestId, n.responderHashId, n.requesterHashId, n.accepted, n.preKeyBundle,
    n.dilithiumSignature, false, now⟩

/-- The row after an UPDATE with another response. -/
def FriendResponseModel.withResponse (x : FriendResponseModel) (a : Bool) (b : Option Bytes)
    (g : Bytes) : FriendResponseModel :=
  { x with accepted := a, preKeyBundle := b, dilithiumSignature := g, delivered := false }

/-- A row of `friend_responses` was there before and is not updated, or it is new, or it is an
updated one. -/
theorem mem_friendResponses_exec {x : FriendResponseModel}
    (hx : x ∈ (s.exec now db).2.friendResponses) :
    (x ∈ db.friendResponses ∧ ∀ a b g, s ≠ .updateFriendResponses x.requestId a b g) ∨
    (∃ n id, s = .insertFriendResponse n ∧ x = n.row id now ∧
      (∃ y ∈ db.friendRequests, y.id = n.requestId) ∧
      ((insertFriendResponse n).exec now db).1 = .ok 1) ∨
    (∃ y ∈ db.friendResponses, ∃ a b g, s = .updateFriendResponses y.requestId a b g ∧
      x = y.withResponse a b g) := by
  cases s with
  | insertFriendResponse n =>
      simp only [exec] at hx ⊢
      split at hx
      · exact .inl ⟨hx, fun _ _ _ ↦ nofun⟩
      next hreq =>
      rcases List.mem_append.mp hx with hx | hx
      · exact .inl ⟨hx, fun _ _ _ ↦ nofun⟩
      · refine .inr (.inl ⟨n, _, rfl, List.mem_singleton.mp hx, ?_, by rw [if_neg hreq]⟩)
        simpa [Db.hasFriendRequest] using hreq
  | updateFriendResponses i a b g =>
      obtain ⟨y, hy, rfl⟩ := List.mem_map.mp hx
      split
      next hi => exact .inr (.inr ⟨y, hy, a, b, g, by rw [hi], rfl⟩)
      next hi =>
        refine .inl ⟨hy, fun _ _ _ hs ↦ hi ?_⟩
        injection hs with hs
        exact hs.symm
  | deleteFriendResponses is => exact .inl ⟨List.mem_of_mem_filter hx, fun _ _ _ ↦ nofun⟩
  | deleteFriendRequestsOf u => exact .inl ⟨List.mem_of_mem_filter hx, fun _ _ _ ↦ nofun⟩
  | deleteUser u =>
      simp only [exec] at hx
      split at hx
      · exact .inl ⟨List.mem_of_mem_filter hx, fun _ _ _ ↦ nofun⟩
      · exact .inl ⟨hx, fun _ _ _ ↦ nofun⟩
  | _ =>
      left
      simp only [exec] at hx
      repeat' split at hx
      all_goals exact ⟨hx, fun _ _ _ ↦ nofun⟩

/-- A row of `friend_responses` stays as it is, or it is updated, or it is deleted by the id of its
request, or a party of its request goes. -/
theorem friendResponses_stay (now : NaiveDateTime) (s : Stmt) {x : FriendResponseModel}
    (hx : x ∈ db.friendResponses) :
    x ∈ (s.exec now db).2.friendResponses ∨
    (∃ a b g, s = .updateFriendResponses x.requestId a b g) ∨
    (∃ ids, s = .deleteFriendResponses ids ∧ x.requestId ∈ ids) ∨
    ∃ y ∈ db.friendRequests, y.id = x.requestId ∧ ∃ u,
      (y.requesterHashId = u ∨ y.targetHashId = u) ∧
      (s = .deleteFriendRequestsOf u ∨ s = .deleteUser u) := by
  have hremove (u : Bytes) :
      x ∈ (removeFriendRequests db fun y ↦
        y.requesterHashId = u || y.targetHashId = u).friendResponses ∨
      ∃ y ∈ db.friendRequests, y.id = x.requestId ∧
        (y.requesterHashId = u ∨ y.targetHashId = u) := by
    by_cases hgone : x.requestId ∈ (db.friendRequests.filter fun y ↦
        y.requesterHashId = u || y.targetHashId = u).map FriendRequestModel.id
    · right
      obtain ⟨y, hy, hid⟩ := List.mem_map.mp hgone
      obtain ⟨hy, hp⟩ := List.mem_filter.mp hy
      exact ⟨y, hy, hid, by simpa using hp⟩
    · left
      refine List.mem_filter.mpr ⟨hx, ?_⟩
      rw [Bool.not_eq_true', ← Bool.not_eq_true, List.contains_iff_mem]
      exact hgone
  cases s with
  | insertFriendResponse n =>
      left
      simp only [exec]
      split
      · exact hx
      · exact List.mem_append_left _ hx
  | updateFriendResponses i a b g =>
      by_cases h : x.requestId = i
      · exact .inr (.inl ⟨a, b, g, by rw [h]⟩)
      · refine .inl (List.mem_map.mpr ⟨x, hx, ?_⟩)
        rw [if_neg h]
  | deleteFriendResponses is =>
      by_cases h : x.requestId ∈ is
      · exact .inr (.inr (.inl ⟨is, rfl, h⟩))
      · refine .inl (List.mem_filter.mpr ⟨hx, ?_⟩)
        rw [Bool.not_eq_true', ← Bool.not_eq_true, List.contains_iff_mem]
        exact h
  | deleteFriendRequestsOf u =>
      rcases hremove u with hx | ⟨y, hy, hid, hu⟩
      · exact .inl hx
      · exact .inr (.inr (.inr ⟨y, hy, hid, u, hu, .inl rfl⟩))
  | deleteUser u =>
      rcases hremove u with hx' | ⟨y, hy, hid, hu⟩
      · left
        simp only [exec]
        split
        · exact hx'
        · exact hx
      · exact .inr (.inr (.inr ⟨y, hy, hid, u, hu, .inr rfl⟩))
  | _ =>
      left
      simp only [exec]
      repeat' split
      all_goals exact hx

/-! ## Failures -/

/-- A statement succeeds, or it changes no row; it may have drawn from a sequence. -/
theorem exec_ok_or_unchanged (now : NaiveDateTime) (db : Db) (s : Stmt) :
    (∃ a, (s.exec now db).1 = .ok a) ∨ ∃ seq, (s.exec now db).2 = { db with seq } := by
  cases s with
  | insertUser n | insertChallenge n | insertSession n | insertFriendRequest n
  | insertFriendResponse n | insertPrekeys ps | insertMessage n | loadFriendResponses u since
  | loadAccepted u since =>
      simp only [exec]
      repeat' split
      all_goals first
        | exact .inl ⟨_, rfl⟩
        | exact .inr ⟨_, rfl⟩
  | deleteUser u =>
      simp only [exec]
      split
      · exact .inl ⟨_, rfl⟩
      · exact .inl ⟨_, rfl⟩
  | _ => first
      | exact .inr ⟨db.seq, rfl⟩
      | exact .inl ⟨_, rfl⟩

/-! ## Keys -/

/-- The keys of the tables whose rows are identified in statements about runs. -/
structure Db.Keyed (db : Db) : Prop where
  users : (db.users.map User.userHashId).Nodup
  friendRequests : Serial FriendRequestModel.id db.friendRequests db.seq.friendRequests
  oneTimePrekeys : Serial OneTimePrekey.id db.oneTimePrekeys db.seq.oneTimePrekeys
  messages : Serial MessageModel.id db.messages db.seq.messages
  relayMessages : Serial RelayMessage.id db.relayMessages db.seq.relayMessages

theorem nodup_users_exec (h : (db.users.map User.userHashId).Nodup) :
    ((s.exec now db).2.users.map User.userHashId).Nodup := by
  cases s with
  | insertUser n =>
      simp only [exec]
      split
      · exact h
      next hn =>
      rw [List.map_append, List.nodup_append]
      refine ⟨h, by simp, fun a ha b hb ↦ ?_⟩
      obtain ⟨x, hx, rfl⟩ := List.mem_map.mp ha
      obtain rfl := List.mem_singleton.mp hb
      exact not_hasUser hn hx
  | updateRecoveryKey u k =>
      simpa [exec, Function.comp_def, apply_ite User.userHashId] using h
  | updateIdentity u k g b =>
      simpa [exec, Function.comp_def, apply_ite User.userHashId] using h
  | deleteUser u =>
      simp only [exec]
      split
      · exact h.sublist (List.filter_sublist.map _)
      · exact h
  | _ =>
      simp only [exec]
      repeat' split
      all_goals exact h

theorem serial_friendRequests_exec
    (h : Serial FriendRequestModel.id db.friendRequests db.seq.friendRequests) :
    Serial FriendRequestModel.id (s.exec now db).2.friendRequests
      (s.exec now db).2.seq.friendRequests := by
  cases s with
  | insertFriendRequest n =>
      simp only [exec]
      repeat' split
      · exact h.le (Nat.le_succ _)
      · exact h.le (Nat.le_succ _)
      · exact h.le (Nat.le_succ _)
      · exact h.snoc rfl
  | updateFriendRequest r t b g m ts =>
      refine h.map fun x ↦ ?_
      split <;> rfl
  | deleteFriendRequestsOf u => exact h.sublist List.filter_sublist
  | deleteUser u =>
      simp only [exec]
      split
      · exact h.sublist List.filter_sublist
      · exact h
  | _ =>
      simp only [exec]
      repeat' split
      all_goals exact h

theorem serial_messages_exec (h : Serial MessageModel.id db.messages db.seq.messages) :
    Serial MessageModel.id (s.exec now db).2.messages (s.exec now db).2.seq.messages := by
  cases s with
  | insertMessage n =>
      simp only [exec]
      repeat' split
      · exact h
      · exact h.le (Nat.le_succ _)
      · exact h.snoc rfl
  | deleteMessage i r => exact h.sublist List.filter_sublist
  | deleteMessagesOf u => exact h.sublist List.filter_sublist
  | purgeMessages t => exact h.sublist List.filter_sublist
  | _ =>
      simp only [exec]
      repeat' split
      all_goals exact h

theorem serial_relayMessages_exec
    (h : Serial RelayMessage.id db.relayMessages db.seq.relayMessages) :
    Serial RelayMessage.id (s.exec now db).2.relayMessages (s.exec now db).2.seq.relayMessages := by
  cases s with
  | insertRelay n => exact h.snoc rfl
  | deleteRelayUpTo d i => exact h.sublist List.filter_sublist
  | purgeRelay t => exact h.sublist List.filter_sublist
  | _ =>
      simp only [exec]
      repeat' split
      all_goals exact h

theorem serial_insertPrekeys (now : NaiveDateTime) (ps : List NewOneTimePrekey)
    {rows : List OneTimePrekey} {seq n : Nat} (h : Serial OneTimePrekey.id rows seq) :
    Serial OneTimePrekey.id (ps.foldl (insertPrekey now) (rows, seq, n)).1
      (ps.foldl (insertPrekey now) (rows, seq, n)).2.1 := by
  induction ps generalizing rows seq n with
  | nil => exact h
  | cons p ps ih =>
      rw [List.foldl_cons]
      simp only [insertPrekey]
      split
      · exact ih (h.le (Nat.le_add_right seq 1))
      · exact ih (h.snoc (x := ⟨seq, p.userHashId, p.prekeyId, p.publicKey, false, now⟩) rfl)

theorem serial_oneTimePrekeys_exec
    (h : Serial OneTimePrekey.id db.oneTimePrekeys db.seq.oneTimePrekeys) :
    Serial OneTimePrekey.id (s.exec now db).2.oneTimePrekeys
      (s.exec now db).2.seq.oneTimePrekeys := by
  cases s with
  | insertPrekeys ps =>
      simp only [exec]
      split
      · refine h.le ?_
        rw [seq_insertPrekeys]
        exact Nat.le_add_right _ _
      · exact serial_insertPrekeys now ps h
  | markPrekeyUsed i =>
      refine h.map fun x ↦ ?_
      split <;> rfl
  | deleteUser u =>
      simp only [exec]
      split
      · exact h.sublist List.filter_sublist
      · exact h
  | _ =>
      simp only [exec]
      repeat' split
      all_goals exact h

/-- The sequences never go back. -/
theorem seq_messages_exec : db.seq.messages ≤ (s.exec now db).2.seq.messages := by
  cases s with
  | insertMessage n =>
      simp only [exec]
      repeat' split
      · exact le_rfl
      · exact Nat.le_succ _
      · exact Nat.le_succ _
  | _ =>
      simp only [exec]
      repeat' split
      all_goals exact le_rfl

theorem seq_relayMessages_exec : db.seq.relayMessages ≤ (s.exec now db).2.seq.relayMessages := by
  cases s with
  | insertRelay n => exact Nat.le_succ _
  | _ =>
      simp only [exec]
      repeat' split
      all_goals exact le_rfl

theorem Db.Keyed.exec (h : db.Keyed) : (s.exec now db).2.Keyed :=
  ⟨nodup_users_exec h.users, serial_friendRequests_exec h.friendRequests,
    serial_oneTimePrekeys_exec h.oneTimePrekeys, serial_messages_exec h.messages,
    serial_relayMessages_exec h.relayMessages⟩

theorem Db.Keyed.migrated : Db.migrated.Keyed := ⟨List.nodup_nil, .nil, .nil, .nil, .nil⟩

end ZenthDht
