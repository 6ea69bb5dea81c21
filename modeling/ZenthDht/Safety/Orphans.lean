import ZenthDht.Safety.Durability

/-!
# Messages and the accounts they name

`messages` has no foreign keys.  SEND_MESSAGE looks for the sender and the recipient, verifies the
signature and inserts the row in separate statements, and DELETE deletes the messages of an account
some statements before its row.  So a DELETE that falls into a SEND, or a SEND into a DELETE, leaves
a message that names no account, and whoever registers the hash next is given it
(`orphan_message`).

Nothing else does: as long as no SEND inserts its row behind the back of a DELETE (`Sheltered`),
every message names two accounts, and its recipient has not been deleted since the SEND found it
(`messages_have_accounts`).
-/

namespace ZenthDht

open Conc

variable {codec : Codec} {verifyDetached : Bytes → Bytes → Bytes → Bool}
variable {c c' : State} {ms : Moves} {m : Move Job Oracle Act} {t : Nat} {u : Bytes}

/-! ## What a DELETE has done before the row goes -/

/-- A DELETE removes the row once, after the messages. -/
def DeleteOrder (job : Job) (past : Past) (o : Op) : Prop :=
  ∀ req u, job = .request (.delete req) → o = .sql (.deleteUser u) →
    (∃ n : Nat, Did past (.sql (.deleteMessagesOf u)) (.ok n)) ∧
    ∀ r, ¬ Did past (.sql (.deleteUser u)) r

theorem deleteOrder_of_ne {job : Job} {past : Past} {o : Op} (ho : ∀ u, o ≠ .sql (.deleteUser u)) :
    DeleteOrder job past o := fun _ u _ h ↦ absurd h (ho u)

theorem deleteUserRows_order (req : DeleteRequest) {past : Past}
    (hnone : ∀ u r, ¬ Did past (.sql (.deleteUser u)) r) :
    (deleteUserRows req.userHashId).Obeys (DeleteOrder (.request (.delete req)))
      (fun _ _ ↦ True) past := by
  unfold deleteUserRows
  refine obeys_sql (deleteOrder_of_ne (by nofun)) (fun e ↦ trivial) fun _ ↦ ?_
  refine obeys_sql (deleteOrder_of_ne (by nofun)) (fun e ↦ trivial) fun n ↦ ?_
  refine obeys_sql (deleteOrder_of_ne (by nofun)) (fun e ↦ trivial) fun _ ↦ ?_
  refine obeys_sql (deleteOrder_of_ne (by nofun)) (fun e ↦ trivial) fun _ ↦ ?_
  refine obeys_sql ?_ (fun e ↦ trivial) fun _ ↦ trivial
  rintro _ _ - ⟨⟩
  exact ⟨⟨n, by simp [Did]⟩, by simpa [Did] using hnone req.userHashId⟩

theorem deleteUserData_order (req : DeleteRequest) {past : Past}
    (hnone : ∀ u r, ¬ Did past (.sql (.deleteUser u)) r) :
    (deleteUserData req.userHashId).Obeys (DeleteOrder (.request (.delete req)))
      (fun _ _ ↦ True) past := by
  unfold deleteUserData
  refine obeys_sql (deleteOrder_of_ne (by simp)) (fun e ↦ trivial) fun ids ↦ ?_
  dsimp only
  split
  · exact deleteUserRows_order req (by simpa [Did] using hnone)
  refine obeys_sql (deleteOrder_of_ne (by simp)) (fun e ↦ trivial) fun n ↦ ?_
  exact deleteUserRows_order req (by simpa [Did] using hnone)

theorem deleteAccount_order (req : DeleteRequest) :
    (deleteAccount req).Obeys (DeleteOrder (.request (.delete req))) (fun _ _ ↦ True) [] := by
  unfold deleteAccount
  iterate 2
    split
    · trivial
  refine obeys_fresh (deleteOrder_of_ne (by simp)) (fun _ _ ↦ trivial) fun t _ ↦ ?_
  refine obeys_sql (deleteOrder_of_ne (by simp)) (fun e ↦ by cases e <;> trivial) fun user ↦ ?_
  refine obeys_call (o := .verify _ _ _) (deleteOrder_of_ne (by simp)) fun valid ↦ ?_
  split
  · trivial
  refine (deleteUserData_order req (by simp [Did])).bind fun past r _ ↦ ?_
  cases r with
  | error e => trivial
  | ok _ => exact obeys_call (deleteOrder_of_ne (by simp)) fun _ ↦ trivial

theorem code_deleteOrder (codec : Codec) (job : Job) :
    (code codec job).Obeys (DeleteOrder job) (fun _ _ ↦ True) [] := by
  by_cases hdelete : ∃ req, job = .request (.delete req)
  · obtain ⟨req, rfl⟩ := hdelete
    have hcall : (processCall codec (.delete req)).Obeys (DeleteOrder (.request (.delete req)))
        (fun _ _ ↦ True) [] := (deleteAccount_order req).bind fun _ _ _ ↦ trivial
    exact hcall.bind fun _ _ _ ↦ trivial
  · exact Program.obeys_of_forall _ (fun _ _ req _ hjob ↦ absurd ⟨req, hjob⟩ hdelete)
      fun _ _ ↦ trivial

/-! ## The condition -/

/-- Thread `t` has read the row of `u`, and the account has not been deleted since. -/
def FoundSince (tr : History) (t : Nat) (u : Bytes) : Prop :=
  ∃ i < tr.length, (∃ e ∈ tr[i]?, e.1 = t ∧ okStmt e.2 = some (.selectUser u)) ∧
    ∀ e ∈ tr.drop (i + 1), okStmt e.2 ≠ some (.deleteUser u)

instance (tr : History) (t : Nat) (u : Bytes) : Decidable (FoundSince tr t u) :=
  inferInstanceAs (Decidable (∃ i < _, _))

/-- Thread `t` is a DELETE that has deleted the messages of `u` and not yet the row. -/
def Clearing (c : State) (t : Nat) (u : Bytes) : Prop :=
  c.running t = true ∧ (∃ e ∈ c.trace, e.1 = t ∧ okStmt e.2 = some (.deleteMessagesOf u)) ∧
    ∀ e ∈ c.trace, e.1 = t → okStmt e.2 ≠ some (.deleteUser u)

instance (c : State) (t : Nat) (u : Bytes) : Decidable (Clearing c t u) :=
  inferInstanceAs (Decidable (_ ∧ _ ∧ _))

/-- What has to hold of a move that inserts a message: the sender's row is there, the recipient has
not been deleted since the SEND found it, and no DELETE of either is past the messages. -/
def Sheltered (c : State) : Move Job Oracle Act → Prop
  | .step t ω =>
    match c.pool[t]? with
    | some ⟨_, .perform (.sql (.insertMessage n)) _⟩ => ω.fails = false →
      c.world.db.hasUser n.senderHashId = true ∧ FoundSince c.trace t n.recipientHashId ∧
      ∀ t' < c.pool.length, ¬ Clearing c t' n.senderHashId ∧ ¬ Clearing c t' n.recipientHashId
    | _ => True
  | _ => True

/-- The message that an operation inserts. -/
def Op.insertsMessage : Op → Option NewMessage
  | .sql (.insertMessage n) => some n
  | _ => none

theorem sheltered_step {c : State} {t : Nat} {ω : Oracle} : Sheltered c (.step t ω) ↔
    ∀ n ∈ c.about Op.insertsMessage t, ω.fails = false →
      c.world.db.hasUser n.senderHashId = true ∧ FoundSince c.trace t n.recipientHashId ∧
      ∀ t' < c.pool.length, ¬ Clearing c t' n.senderHashId ∧ ¬ Clearing c t' n.recipientHashId := by
  dsimp only [Sheltered]
  split
  next hp => simp [State.about, State.performs, hp, Op.insertsMessage]
  next hno =>
    refine iff_of_true trivial fun n h ↦ ?_
    obtain ⟨job, o, k, hp, ho⟩ := about_iff.mp h
    unfold Op.insertsMessage at ho
    split at ho
    · exact (hno _ _ _ hp).elim
    · cases ho

instance (c : State) : (m : Move Job Oracle Act) → Decidable (Sheltered c m)
  | .step _ _ => decidable_of_iff _ sheltered_step.symm
  | .spawn _ | .act _ => inferInstanceAs (Decidable True)

theorem FoundSince.split {tr : History} (h : FoundSince tr t u) :
    ∃ pre row post, tr = pre ++ (t, ⟨.sql (.selectUser u), .ok row⟩) :: post ∧
      ∀ e ∈ post, okStmt e.2 ≠ some (.deleteUser u) := by
  obtain ⟨i, hlt, ⟨⟨t', e⟩, he, rfl, hread⟩, hno⟩ := h
  obtain ⟨row, rfl⟩ := ok_of_okStmt hread
  refine ⟨tr.take i, row, tr.drop (i + 1), ?_, hno⟩
  have hget : tr[i] = (t', ⟨.sql (.selectUser u), .ok row⟩) := by
    rw [Option.mem_def, List.getElem?_eq_getElem hlt] at he
    exact Option.some.inj he
  rw [← hget, ← List.drop_eq_getElem_cons hlt, List.take_append_drop]

/-! ## The invariant -/

/-- In the history `tr`, a SEND found the recipient of `x` and inserted `x`, and the recipient has
not been deleted since it was found. -/
def Accepted (tr : History) (x : MessageModel) : Prop :=
  ∃ pre t row post n a, tr = pre ++ (t, ⟨.sql (.selectUser x.recipientHashId), .ok row⟩) :: post ∧
    (t, ⟨.sql (.insertMessage n), .ok a⟩) ∈ post ∧ x.messageId = n.messageId ∧
    x.senderHashId = n.senderHashId ∧ x.recipientHashId = n.recipientHashId ∧
    x.content = n.content ∧ ∀ e ∈ post, okStmt e.2 ≠ some (.deleteUser x.recipientHashId)

theorem Accepted.append {tr ext : History} {x : MessageModel} (h : Accepted tr x)
    (hext : ∀ e ∈ ext, okStmt e.2 ≠ some (.deleteUser x.recipientHashId)) :
    Accepted (tr ++ ext) x := by
  obtain ⟨pre, t, row, post, n, a, rfl, hins, h₁, h₂, h₃, h₄, hno⟩ := h
  refine ⟨pre, t, row, post ++ ext, n, a, by simp, List.mem_append_left _ hins, h₁, h₂, h₃, h₄, ?_⟩
  intro e he
  exact (List.mem_append.mp he).elim (hno e) (hext e)

structure NoOrphans (c : State) : Prop where
  users : ∀ x ∈ c.world.db.messages, c.world.db.hasUser x.senderHashId = true ∧
    c.world.db.hasUser x.recipientHashId = true
  accepted : ∀ x ∈ c.world.db.messages, Accepted c.trace x
  /-- A DELETE past the messages leaves none. -/
  cleared : ∀ t u, Clearing c t u → ∀ x ∈ c.world.db.messages,
    x.senderHashId ≠ u ∧ x.recipientHashId ≠ u

/-- A thread past the messages after a move was so before it, or the move deleted them. -/
theorem Clearing.before (h : Reachable codec verifyDetached c)
    (hs : (server codec verifyDetached).Step c m c') (hc : Clearing c' t u) :
    Clearing c t u ∨ ∀ x ∈ c'.world.db.messages, x.senderHashId ≠ u ∧ x.recipientHashId ≠ u := by
  obtain ⟨hrunning, ⟨⟨t', e⟩, he, rfl, hcleared⟩, hno⟩ := hc
  have hold : (t', e) ∈ c.trace → (∀ e ∈ c.trace, e ∈ c'.trace) → Clearing c t' u := by
    intro he hsub
    obtain ⟨clock, instant, ms, hms⟩ := h
    obtain ⟨th, hth⟩ := Machine.pool_of_mem hms he
    have hlt := (List.getElem?_eq_some_iff.mp hth).1
    exact ⟨hs.running hlt hrunning, ⟨_, he, rfl, hcleared⟩, fun e he ↦ hno e (hsub e he)⟩
  rcases Step.quiet_or_executes hs with hq | ⟨t₁, job, s, hexec⟩
  · exact .inl (hold (hq.okStmt he hcleared) hq.subset)
  · rcases hexec.okStmt he hcleared with he | ⟨rfl, rfl⟩
    · exact .inl (hold he hexec.subset)
    · right
      intro x hx
      rw [hexec.db] at hx
      simpa using (List.mem_filter.mp hx).2

/-- A DELETE about to remove the row is past the messages. -/
theorem clearing_of_deleteUser (h : Reachable codec verifyDetached c) {job : Job}
    (he : Executes c t job (.deleteUser u) c') : Clearing c t u := by
  obtain ⟨req, rfl, rfl, -⟩ := h.executes he
  obtain ⟨k, ht, -⟩ := he.pool
  obtain ⟨clock, instant, ms, hms⟩ := h
  obtain ⟨⟨n, hcleared⟩, hno⟩ :=
    Machine.guard_of_run (code_deleteOrder codec) hms ht req _ rfl rfl
  refine ⟨by simp [Config.running, ht], ⟨_, did_past.mp hcleared, rfl, rfl⟩, ?_⟩
  rintro ⟨t', e⟩ hmem rfl hdel
  obtain ⟨a, rfl⟩ := ok_of_okStmt hdel
  exact hno _ (did_past.mpr hmem)

theorem FoundSince.hasUser (h : Reachable codec verifyDetached c) (hf : FoundSince c.trace t u) :
    c.world.db.hasUser u = true := by
  obtain ⟨pre, row, post, htr, hno⟩ := hf.split
  obtain ⟨c₁, c₂, job, -, rfl, he, hr, m, ms, -, hms⟩ := h.executed htr
  obtain ⟨hrow, hu⟩ := selectUser_sound hr
  have htrace := he.trace
  rw [hr] at htrace
  have hext : c.trace = c₂.trace ++ post := by rw [htr, htrace, List.append_assoc]; rfl
  refine db_undisturbed (P := fun db ↦ db.hasUser u = true) (D := fun s ↦ s = .deleteUser u)
    (fun {db db'} hsame hu ↦ ?_) (fun {now db s} hu ↦ ?_) hms hext (fun t s a hmem hs ↦ ?_) ?_
  · simp only [hasUser_iff, hsame.users.mem_iff] at hu ⊢
    exact hu
  · by_cases hs : s = .deleteUser u
    · subst hs
      exact .inr ⟨rfl, 1, by simp [Stmt.exec, hu]⟩
    · exact .inl (hasUser_exec hu hs)
  · subst hs
    exact hno _ hmem rfl
  · rw [he.db]
    exact hasUser_iff.mpr ⟨row, hrow, hu⟩

/-! ## One move -/

section Step

variable (h : Reachable codec verifyDetached c) (hI : NoOrphans c)
variable {job : Job} {s : Stmt} (he : Executes c t job s c')
include h hI he

/-- No message names the account whose row a DELETE is about to remove. -/
theorem NoOrphans.not_deleted {x : MessageModel} (hx : x ∈ c.world.db.messages) :
    s ≠ .deleteUser x.senderHashId ∧ s ≠ .deleteUser x.recipientHashId := by
  constructor
  · rintro rfl
    exact (hI.cleared t _ (clearing_of_deleteUser h he) x hx).1 rfl
  · rintro rfl
    exact (hI.cleared t _ (clearing_of_deleteUser h he) x hx).2 rfl

/-- A message that was there before the statement. -/
theorem NoOrphans.old {x : MessageModel} (hx : x ∈ c.world.db.messages) :
    (c'.world.db.hasUser x.senderHashId = true ∧ c'.world.db.hasUser x.recipientHashId = true) ∧
      Accepted c'.trace x := by
  obtain ⟨hsender, hrecipient⟩ := hI.not_deleted h he hx
  refine ⟨?_, ?_⟩
  · rw [he.db]
    exact ⟨hasUser_exec (hI.users x hx).1 hsender, hasUser_exec (hI.users x hx).2 hrecipient⟩
  · rw [he.trace]
    refine (hI.accepted x hx).append fun e hmem hdel ↦ ?_
    obtain rfl := List.mem_singleton.mp hmem
    obtain ⟨a, ha⟩ := ok_of_okStmt hdel
    exact hrecipient (Op.sql.inj (congrArg Sigma.fst ha))

end Step

/-- A message that the statement has inserted. -/
theorem Sheltered.inserts (h : Reachable codec verifyDetached c)
    (hs : (server codec verifyDetached).Step c m c') (hm : Sheltered c m) {job : Job}
    {n : NewMessage} {a : Nat} (he : Executes c t job (.insertMessage n) c')
    (hok : ((Stmt.insertMessage n).exec c.world.clock c.world.db).1 = .ok a) :
    (c.world.db.hasUser n.senderHashId = true ∧ c.world.db.hasUser n.recipientHashId = true) ∧
      Accepted c'.trace (n.row c.world.db.seq.messages c.world.clock) ∧
      ∀ t', Clearing c t' u → n.senderHashId ≠ u ∧ n.recipientHashId ≠ u := by
  obtain ⟨ω, rfl, hω⟩ := he.move hs hok
  obtain ⟨k, ht, -⟩ := he.pool
  simp only [Sheltered, ht] at hm
  obtain ⟨hsender, hfound, hclear⟩ := hm hω
  refine ⟨⟨hsender, hfound.hasUser h⟩, ?_, fun t' hc ↦ ?_⟩
  · obtain ⟨pre, row, post, htr, hno⟩ := hfound.split
    refine ⟨pre, t, row, post ++ [(t, ⟨.sql (.insertMessage n), .ok a⟩)], n, a, ?_,
      List.mem_append_right _ List.mem_cons_self, rfl, rfl, rfl, rfl, fun e hmem ↦ ?_⟩
    · rw [he.trace, htr, hok, List.append_assoc]
      rfl
    · rcases List.mem_append.mp hmem with hmem | hmem
      · exact hno e hmem
      · obtain rfl := List.mem_singleton.mp hmem
        intro heq
        cases heq
  · have hrunning := hc.1
    have hlt : t' < c.pool.length := by
      by_contra hle
      simp [Config.running, List.getElem?_eq_none (Nat.le_of_not_lt hle)] at hrunning
    exact ⟨fun hu ↦ (hclear t' hlt).1 (hu ▸ hc), fun hu ↦ (hclear t' hlt).2 (hu ▸ hc)⟩

theorem NoOrphans.quiet (h : Reachable codec verifyDetached c) (hI : NoOrphans c)
    (hs : (server codec verifyDetached).Step c m c') (hq : Quiet c c') : NoOrphans c' := by
  obtain ⟨ext, htrace, hext⟩ := hq.trace
  have hmem {x : MessageModel} : x ∈ c'.world.db.messages ↔ x ∈ c.world.db.messages :=
    hq.db.messages.mem_iff.symm
  refine ⟨fun x hx ↦ ?_, fun x hx ↦ ?_, fun t u hc x hx ↦ ?_⟩
  · simp only [hasUser_iff, ← hq.db.users.mem_iff]
    simpa only [hasUser_iff] using hI.users x (hmem.mp hx)
  · rw [htrace]
    refine (hI.accepted x (hmem.mp hx)).append fun e he hdel ↦ ?_
    obtain ⟨a, ha⟩ := ok_of_okStmt hdel
    exact hext e.1 _ a (ha ▸ he)
  · rcases hc.before h hs with hc | hnone
    · exact hI.cleared t u hc x (hmem.mp hx)
    · exact hnone x hx

theorem NoOrphans.step (h : Reachable codec verifyDetached c) (hI : NoOrphans c)
    (hm : Sheltered c m) (hs : (server codec verifyDetached).Step c m c') : NoOrphans c' := by
  rcases Step.quiet_or_executes hs with hq | ⟨t, job, s, he⟩
  · exact hI.quiet h hs hq
  -- a message that was not there before is one that the statement has inserted
  have hnew {x : MessageModel} (hx : x ∈ c'.world.db.messages) (hold : x ∉ c.world.db.messages) :
      ∃ n a, s = .insertMessage n ∧ x = n.row c.world.db.seq.messages c.world.clock ∧
        ((Stmt.insertMessage n).exec c.world.clock c.world.db).1 = .ok a := by
    obtain ⟨a, ha⟩ := he.succeeds (P := fun db ↦ x ∈ db.messages) (fun _ _ h ↦ h) hold hx
    rw [he.db] at hx
    obtain ⟨n, rfl, rfl⟩ := (mem_messages_exec hx).resolve_left hold
    exact ⟨n, a, rfl, rfl, ha⟩
  refine ⟨fun x hx ↦ ?_, fun x hx ↦ ?_, fun t' u hc x hx ↦ ?_⟩
  · by_cases hold : x ∈ c.world.db.messages
    · exact (hI.old h he hold).1
    obtain ⟨n, a, rfl, rfl, hok⟩ := hnew hx hold
    obtain ⟨hsender, hrecipient⟩ := (hm.inserts (u := []) h hs he hok).1
    rw [he.db]
    exact ⟨hasUser_exec hsender (by nofun), hasUser_exec hrecipient (by nofun)⟩
  · by_cases hold : x ∈ c.world.db.messages
    · exact (hI.old h he hold).2
    obtain ⟨n, a, rfl, rfl, hok⟩ := hnew hx hold
    exact (hm.inserts (u := []) h hs he hok).2.1
  · rcases hc.before h hs with hc | hnone
    · by_cases hold : x ∈ c.world.db.messages
      · exact hI.cleared t' u hc x hold
      obtain ⟨n, a, rfl, rfl, hok⟩ := hnew hx hold
      exact (hm.inserts h hs he hok).2.2 t' hc
    · exact hnone x hx

theorem noOrphans_of_run {clock instant : Nat}
    (h : (server codec verifyDetached).run (.start (.initial clock instant)) ms = some c)
    (hm : (server codec verifyDetached).Along Sheltered (.start (.initial clock instant)) ms) :
    NoOrphans c := by
  refine (Machine.Along.invariant (S := Sheltered)
    (I := fun d ↦ Reachable codec verifyDetached d ∧ NoOrphans d) ?_ hm h
    ⟨⟨clock, instant, [], rfl⟩, nofun, nofun, nofun⟩).2
  rintro d m d' ⟨hd, hI⟩ hm hs
  exact ⟨hd.run (hs.run_cons Machine.run_nil), hI.step hd hm hs⟩

/-- **Messages and accounts.**  In a run in which no SEND inserts its row behind the back of a
DELETE, in every state both the sender and the recipient of every message have a row, and every
message that a poll loads was accepted for the account that polls: the recipient has not been
deleted since the SEND found it. -/
theorem messages_have_accounts {clock instant : Nat}
    (h : (server codec verifyDetached).run (.start (.initial clock instant)) ms = some c)
    (hm : (server codec verifyDetached).Along Sheltered (.start (.initial clock instant)) ms) :
    (∀ x ∈ c.world.db.messages, c.world.db.hasUser x.senderHashId = true ∧
      c.world.db.hasUser x.recipientHashId = true) ∧
    ∀ before t r since now limit rows after, c.trace = before ++
        (t, ⟨.sql (.loadMessages r since now limit), .ok rows⟩) :: after →
      ∀ x ∈ rows, x.recipientHashId = r ∧ Accepted before x := by
  refine ⟨(noOrphans_of_run h hm).users, ?_⟩
  intro before t r since now limit rows after htr x hx
  obtain ⟨ms₁, ω, ms₂, d, job, k, w, rfl, h₁, rfl, ht, hp, -⟩ :=
    Machine.event_moment h htr (by simp [Config.start])
  rcases perform_sql hp with ⟨-, e, hr⟩ | ⟨hr, -⟩
  · cases hr
  obtain ⟨hmem, hrecipient⟩ := loadMessages_sound hr.symm hx
  exact ⟨hrecipient, (noOrphans_of_run h₁ hm.left).accepted x hmem⟩

namespace Sample

/-- User 2 deletes its account. -/
def leaving : DeleteRequest := ⟨word 2, signature, 0⟩

/-- A poll by whoever has the hash of user 2. -/
def polling : FetchMessagesRequest := ⟨word 2, 0, 0, 4, signature⟩

def orphanSigned : List (Bytes × Bytes) :=
  [(key 1, envelope.signedData Sample.codec), (key 2, leaving.signedData),
   (key 6, polling.signedData)]

/-- User 1 sends to user 2, who deletes the account between the checks and the insert. -/
def orphanRun : Moves :=
  registers 0 1 ++ registers 1 2 ++ .spawn (.request (.sendMessage envelope)) :: steps 2 4 ++
  .spawn (.request (.delete leaving)) :: steps 3 10 ++ steps 2 3

/-- Somebody else registers the hash of user 2 with the key 6, and polls. -/
def successorRun : Moves :=
  .spawn (.request (.register ⟨word 2, [1], key 6, [1], [6], 0⟩)) :: steps 4 1 ++
  .spawn (.request (.fetchMessages polling)) :: steps 5 6

end Sample

open Sample in
/-- After both requests have ended there is a message to a user who does not exist, and the next
account with the hash is given it. -/
theorem orphan_message : ∃ c c' : State, final orphanSigned orphanRun = some c ∧
    (List.range c.pool.length).all (fun t ↦ !c.running t) = true ∧
    (∃ x ∈ c.world.db.messages, c.world.db.hasUser x.recipientHashId = false) ∧
    (system orphanSigned).run c successorRun = some c' ∧
    c'.answered 5 = some (.request (.fetchMessages polling),
      ⟨true, .fetchMessages { messages := [envelope] }, ""⟩) := by
  have hbefore : ((final orphanSigned orphanRun).map fun c ↦
      ((List.range c.pool.length).all (fun t ↦ !c.running t),
        c.world.db.messages.map fun x ↦ c.world.db.hasUser x.recipientHashId)) =
      some (true, [false]) := by decide +kernel
  have hafter : ((final orphanSigned (orphanRun ++ successorRun)).bind fun c ↦ c.answered 5) =
      some (.request (.fetchMessages polling),
        ⟨true, .fetchMessages { messages := [envelope] }, ""⟩) := by decide +kernel
  obtain ⟨c', hrun, hans⟩ := Option.bind_eq_some_iff.mp hafter
  obtain ⟨c, hc, hc'⟩ := Machine.run_append.mp hrun
  obtain ⟨d, hd, hview⟩ := Option.map_eq_some_iff.mp hbefore
  obtain rfl : d = c := Option.some.inj (hd.symm.trans hc)
  obtain ⟨hdone, horphan⟩ := Prod.mk.inj hview
  obtain ⟨x, hx, hgone⟩ : ∃ x ∈ d.world.db.messages,
      d.world.db.hasUser x.recipientHashId = false := by
    apply List.mem_map.mp
    simp [horphan]
  exact ⟨d, c', hc, hdone, ⟨x, hx, hgone⟩, hc', hans⟩

open Sample in
/-- User 1 sends to user 2 without interference. -/
theorem messages_have_accounts_sendRun : ∃ (c : State) (x : MessageModel),
    final messageSigned sendRun = some c ∧ x ∈ c.world.db.messages ∧
    c.world.db.hasUser x.senderHashId = true ∧ c.world.db.hasUser x.recipientHashId = true := by
  have hrun : ((final messageSigned sendRun).map fun c ↦ c.world.db.messages.length) = some 1 := by
    decide +kernel
  have halong : (system messageSigned).Along Sheltered (.start (.initial 0 0)) sendRun :=
    Machine.along_of_check (by decide +kernel)
  obtain ⟨c, hc, hlen⟩ := Option.map_eq_some_iff.mp hrun
  obtain ⟨x, hx⟩ := List.length_eq_one_iff.mp hlen
  have hmem : x ∈ c.world.db.messages := by simp [hx]
  exact ⟨c, x, hc, hmem, (messages_have_accounts hc halong).1 x hmem⟩

end ZenthDht
