import ZenthDht.Conc.Silence
import ZenthDht.Spec.Cleanup
import ZenthDht.Spec.Memory

/-!
# What handlers do not notice

No handler looks at how many rows a delete has removed: every job but the cleanup is blind to that
(`code_blind`).  And what unexpired rows there are is the answer of a request and nothing else: it
does not make a job perform other operations (`code_similar`).
-/

namespace ZenthDht

open Conc

/-! ## Results -/

section

variable {o : Op} {r r' : Res o}

theorem SameResult.eq (h : SameResult o r r') (ho : ∀ s, o = .sql s → ¬ s.Discards) : r = r' := by
  cases h with
  | same => rfl
  | @deletes s hs n n' => exact absurd hs (ho s rfl)

/-- The statement loads rows that expire. -/
def Stmt.Expiring (s : Stmt) : Prop := s.Loads ∨ ∃ d now, s = .selectBlob d now

theorem SimilarResult.sameResult (h : SimilarResult o r r')
    (ho : ∀ s, o = .sql s → ¬ s.Expiring) : SameResult o r r' := by
  cases h with
  | same h => exact h
  | @loads s hs a a' => exact absurd (.inl hs) (ho s rfl)
  | blob d now => exact absurd (.inr ⟨d, now, rfl⟩) (ho _ rfl)

theorem SimilarResult.eq (h : SimilarResult o r r')
    (ho : ∀ s, o = .sql s → ¬ s.Discards ∧ ¬ s.Expiring) : r = r' :=
  (h.sameResult fun s hs ↦ (ho s hs).2).eq fun s hs ↦ (ho s hs).1

end

/-- What a load gives is an error, or rows. -/
theorem SimilarResult.of_loads {s : Stmt} (hs : s.Loads) {r r' : Res (.sql s)}
    (h : SimilarResult (.sql s) r r') : r = r' ∨ ∃ a a', r = .ok a ∧ r' = .ok a' := by
  have hno : ¬ s.Discards := by
    cases s with
    | countMessages _ _ _ => exact id
    | loadMessages _ _ _ _ => exact id
    | loadRelay _ _ _ _ => exact id
    | _ => exact absurd hs id
  cases h with
  | same h => exact .inl (h.eq fun _ hs ↦ Op.sql.inj hs ▸ hno)
  | loads hs a a' => exact .inr ⟨a, a', rfl, rfl⟩
  | blob d now => exact absurd hs id

/-! ## Rules -/

section Rules

variable {α : Type} {o : Op} {s : Stmt}

theorem blind_call {f : Res o → Handler α} (ho : ∀ s, o = .sql s → ¬ s.Discards)
    (h : ∀ r, (f r).Blind SameResult) : (Program.call o >>= f).Blind SameResult :=
  ⟨fun _ _ hr ↦ congrArg f (hr.eq ho), h⟩

theorem blind_sql {f : Except DieselError s.Out → Handler α} (hs : ¬ s.Discards)
    (herror : ∀ e, (f (.error e)).Blind SameResult) (hok : ∀ a, (f (.ok a)).Blind SameResult) :
    (sql s >>= f).Blind SameResult := by
  refine blind_call (fun _ h ↦ Op.sql.inj h ▸ hs) fun r ↦ ?_
  cases r with
  | error e => exact herror e
  | ok a => exact hok a

/-- A delete, after which the number of rows is not looked at. -/
theorem blind_discards {f : Except DieselError s.Out → Handler α} {next : Handler α}
    (hf : ∀ n, f (.ok n) = next) (herror : ∀ e, (f (.error e)).Blind SameResult)
    (hnext : next.Blind SameResult) : (sql s >>= f).Blind SameResult := by
  refine ⟨fun r r' h ↦ ?_, fun r ↦ ?_⟩
  · cases h with
    | same => rfl
    | deletes hs n n' =>
        show f (.ok n) = f (.ok n')
        rw [hf, hf]
  · cases r with
    | error e => exact herror e
    | ok n =>
        show (f (.ok n)).Blind SameResult
        rw [hf]
        exact hnext

theorem blind_fresh {ts : UInt64} {f : Bool → Handler α} (h : ∀ b, (f b).Blind SameResult) :
    (isTimestampFresh ts >>= f).Blind SameResult :=
  blind_call (o := .clock) nofun fun t ↦ h (fresh t ts)

theorem similar_call {f : Res o → Handler α} (ho : ∀ s, o = .sql s → ¬ s.Discards ∧ ¬ s.Expiring)
    (h : ∀ r, (f r).Similar SimilarResult (f r)) :
    (Program.call o >>= f).Similar SimilarResult (Program.call o >>= f) :=
  .perform o fun r _ hr ↦ hr.eq ho ▸ h r

theorem similar_sql {f : Except DieselError s.Out → Handler α} (hs : ¬ s.Discards ∧ ¬ s.Expiring)
    (herror : ∀ e, (f (.error e)).Similar SimilarResult (f (.error e)))
    (hok : ∀ a, (f (.ok a)).Similar SimilarResult (f (.ok a))) :
    (sql s >>= f).Similar SimilarResult (sql s >>= f) := by
  refine similar_call (fun _ h ↦ Op.sql.inj h ▸ hs) fun r ↦ ?_
  cases r with
  | error e => exact herror e
  | ok a => exact hok a

theorem similar_fresh {ts : UInt64} {f : Bool → Handler α}
    (h : ∀ b, (f b).Similar SimilarResult (f b)) :
    (isTimestampFresh ts >>= f).Similar SimilarResult (isTimestampFresh ts >>= f) :=
  similar_call (o := .clock) nofun fun t ↦ h (fresh t ts)

/-- After a load the program may go on with other rows. -/
theorem similar_loads {f f' : Except DieselError s.Out → Handler α} (hs : s.Loads)
    (herror : ∀ e, (f (.error e)).Similar SimilarResult (f' (.error e)))
    (hok : ∀ a a', (f (.ok a)).Similar SimilarResult (f' (.ok a'))) :
    (sql s >>= f).Similar SimilarResult (sql s >>= f') := by
  refine .perform _ fun r r' hr ↦ ?_
  rcases hr.of_loads hs with rfl | ⟨a, a', rfl, rfl⟩
  · cases r with
    | error e => exact herror e
    | ok a => exact hok a a
  · exact hok a a'

theorem similar_clock {f f' : Nat → Handler α}
    (h : ∀ t, (f t).Similar SimilarResult (f' t)) :
    (Program.call Op.clock >>= f).Similar SimilarResult (Program.call Op.clock >>= f') :=
  .perform _ fun r _ hr ↦ hr.eq (o := .clock) nofun ▸ h r

end Rules

/-! ## Requests that delete -/

theorem ackMessage_blind (req : MessageAck) : (ackMessage req).Blind SameResult := by
  unfold ackMessage
  iterate 2
    split
    · trivial
  refine blind_sql id (fun e ↦ by cases e <;> trivial) fun user ↦ ?_
  refine blind_call nofun fun valid ↦ ?_
  split
  · trivial
  · exact blind_discards (fun _ ↦ rfl) (fun e ↦ trivial) trivial

theorem ackRelay_blind (req : RelayAckRequest) : (ackRelay req).Blind SameResult := by
  unfold ackRelay
  iterate 2
    split
    · trivial
  refine blind_fresh fun isFresh ↦ ?_
  split
  · trivial
  refine blind_call nofun fun valid ↦ ?_
  split
  · trivial
  · exact blind_discards (fun _ ↦ rfl) (fun e ↦ trivial) trivial

theorem deleteBlob_blind (req : SyncBlobRequest) : (deleteBlob req).Blind SameResult := by
  unfold deleteBlob
  iterate 2
    split
    · trivial
  refine blind_fresh fun isFresh ↦ ?_
  split
  · trivial
  refine blind_call nofun fun valid ↦ ?_
  split
  · trivial
  · exact blind_discards (fun _ ↦ rfl) (fun e ↦ trivial) trivial

theorem deleteUserRows_blind (u : Bytes) : (deleteUserRows u).Blind SameResult := by
  unfold deleteUserRows
  refine blind_sql id (fun e ↦ trivial) fun _ ↦ ?_
  refine blind_discards (fun _ ↦ rfl) (fun e ↦ trivial) ?_
  refine blind_sql id (fun e ↦ trivial) fun _ ↦ ?_
  refine blind_sql id (fun e ↦ trivial) fun _ ↦ ?_
  exact blind_sql id (fun e ↦ trivial) fun _ ↦ trivial

theorem deleteUserData_blind (u : Bytes) : (deleteUserData u).Blind SameResult := by
  unfold deleteUserData
  refine blind_sql id (fun e ↦ trivial) fun ids ↦ ?_
  dsimp only
  split
  · exact deleteUserRows_blind u
  · exact blind_sql id (fun e ↦ trivial) fun _ ↦ deleteUserRows_blind u

theorem deleteAccount_blind (req : DeleteRequest) : (deleteAccount req).Blind SameResult := by
  unfold deleteAccount
  iterate 2
    split
    · trivial
  refine blind_fresh fun isFresh ↦ ?_
  split
  · trivial
  refine blind_sql id (fun e ↦ by cases e <;> trivial) fun user ↦ ?_
  refine blind_call nofun fun valid ↦ ?_
  split
  · trivial
  refine (deleteUserData_blind req.userHashId).bind fun r ↦ ?_
  cases r with
  | error e => trivial
  | ok _ => exact blind_call nofun fun _ ↦ trivial

/-! ## Requests that load rows that expire -/

theorem fetchMessages_similar (codec : Codec) (req : FetchMessagesRequest) :
    (fetchMessages codec req).Similar SimilarResult (fetchMessages codec req) := by
  have hplain (u : Bytes) : ¬ (Stmt.selectUser u).Discards ∧ ¬ (Stmt.selectUser u).Expiring :=
    ⟨id, fun h ↦ h.elim id nofun⟩
  unfold fetchMessages
  refine similar_sql (hplain _) (fun e ↦ by cases e <;> exact .ret _ _) fun user ↦ ?_
  refine similar_call nofun fun valid ↦ ?_
  split
  · exact .ret _ _
  refine similar_clock fun now ↦ ?_
  refine similar_loads trivial (fun e ↦ .ret _ _) fun n n' ↦ ?_
  refine similar_loads trivial (fun e ↦ .ret _ _) fun rows rows' ↦ ?_
  exact similar_clock fun t ↦ .ret _ _

theorem fetchRelay_similar (req : RelayFetchRequest) :
    (fetchRelay req).Similar SimilarResult (fetchRelay req) := by
  unfold fetchRelay
  iterate 2
    split
    · exact .ret _ _
  refine similar_fresh fun isFresh ↦ ?_
  split
  · exact .ret _ _
  refine similar_call nofun fun valid ↦ ?_
  split
  · exact .ret _ _
  refine similar_clock fun now ↦ ?_
  exact similar_loads trivial (fun e ↦ .ret _ _) fun rows rows' ↦ .ret _ _

theorem fetchBlob_similar (req : SyncBlobRequest) :
    (fetchBlob req).Similar SimilarResult (fetchBlob req) := by
  unfold fetchBlob
  iterate 2
    split
    · exact .ret _ _
  refine similar_fresh fun isFresh ↦ ?_
  split
  · exact .ret _ _
  refine similar_call nofun fun valid ↦ ?_
  split
  · exact .ret _ _
  refine similar_clock fun now ↦ ?_
  refine .perform _ fun r r' _ ↦ ?_
  rcases r with (_ | _ | _ | _) | ⟨_, _⟩ <;> rcases r' with (_ | _ | _ | _) | ⟨_, _⟩ <;>
    exact .ret _ _

/-! ## All jobs -/

variable {codec : Codec}

/-- The requests that delete rows which may have been purged. -/
def Call.Discards : Call → Prop
  | .ackMessage _ | .delete _ | .relayAck _ | .syncDeleteBlob _ => True
  | _ => False

/-- The requests that load rows which may have been purged. -/
def Call.Expiring : Call → Prop
  | .fetchMessages _ | .relayFetch _ | .syncFetchBlob _ => True
  | _ => False

theorem Stmt.Guard.discards {s : Stmt} {job : Job} {past : Past} (h : s.Guard codec job past)
    (hs : s.Discards) : ∃ call, job = .request call ∧ call.Discards := by
  cases s with
  | deleteMessage i r => obtain ⟨req, rfl, -⟩ := h; exact ⟨_, rfl, trivial⟩
  | deleteMessagesOf u => obtain ⟨req, rfl, -⟩ := h; exact ⟨_, rfl, trivial⟩
  | deleteRelayUpTo d i => obtain ⟨req, rfl, -⟩ := h; exact ⟨_, rfl, trivial⟩
  | deleteBlob d => obtain ⟨req, rfl, -⟩ := h; exact ⟨_, rfl, trivial⟩
  | _ => exact absurd hs id

theorem Reaching.expiring {s : Stmt} {job : Job} (h : Reaching job (.sql s)) (hs : s.Expiring) :
    ∃ call, job = .request call ∧ call.Expiring := by
  cases s with
  | countMessages r since n => obtain ⟨req, rfl⟩ := h; exact ⟨_, rfl, trivial⟩
  | loadMessages r since n limit => obtain ⟨req, rfl⟩ := h; exact ⟨_, rfl, trivial⟩
  | loadRelay d since n limit => obtain ⟨req, rfl⟩ := h; exact ⟨_, rfl, trivial⟩
  | selectBlob d n => obtain ⟨req, rfl⟩ := h; exact ⟨_, rfl, trivial⟩
  | _ => exact hs.elim (fun hs ↦ absurd hs id) nofun

theorem processCall_blind {call : Call} (h : call.Discards) :
    (processCall codec call).Blind SameResult := by
  cases call with
  | ackMessage req => exact (ackMessage_blind req).bind fun _ ↦ trivial
  | delete req => exact (deleteAccount_blind req).bind fun _ ↦ trivial
  | relayAck req => exact (ackRelay_blind req).bind fun _ ↦ trivial
  | syncDeleteBlob req => exact (deleteBlob_blind req).bind fun _ ↦ trivial
  | _ => exact absurd h id

theorem processCall_similar {call : Call} (h : call.Expiring) :
    (processCall codec call).Similar SimilarResult (processCall codec call) := by
  cases call with
  | fetchMessages req => exact (fetchMessages_similar codec req).bind fun _ _ ↦ .ret _ _
  | relayFetch req => exact (fetchRelay_similar req).bind fun _ _ ↦ .ret _ _
  | syncFetchBlob req => exact (fetchBlob_similar req).bind fun _ _ ↦ .ret _ _
  | _ => exact absurd h id

/-- No job looks at how many rows a delete has removed. -/
theorem code_blind (job : Job) : (code codec job).Blind SameResult := by
  by_cases hjob : ∃ call, job = .request call ∧ call.Discards
  · obtain ⟨call, rfl, hcall⟩ := hjob
    exact (processCall_blind hcall).bind fun _ ↦ trivial
  · refine (code_obeys codec job).blind fun past o hg r r' h ↦ h.eq ?_
    rintro s rfl hs
    exact hjob (Stmt.Guard.discards hg hs)

/-- What unexpired rows there are does not change what a job does. -/
theorem code_similar (job : Job) :
    (code codec job).Similar SimilarResult (code codec job) := by
  by_cases hjob : ∃ call, job = .request call ∧ call.Expiring
  · obtain ⟨call, rfl, hcall⟩ := hjob
    exact (processCall_similar hcall).bind fun _ _ ↦ .ret _ _
  · refine (code_blind job).similar (code_reaches codec job) fun past o hg r r' h ↦
      h.sameResult ?_
    rintro s rfl hs
    exact hjob (Reaching.expiring hg hs)

end ZenthDht
