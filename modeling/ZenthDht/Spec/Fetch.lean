import ZenthDht.Spec.Obeys

/-!
# The steps of FETCH_MESSAGES

A poll reads the user's row, verifies the signature, reads the clock, counts, loads a page and
reads the clock again.  What it has done at each point is one of the lists below, and what it
answers is computed from the last of them.
-/

namespace ZenthDht

open Conc

variable {codec : Codec}

namespace FetchMessagesRequest

variable (req : FetchMessagesRequest) (user : User) (now total : Nat) (rows : List MessageModel)
  (ts : Nat)

/-- The lower bound of the load: none at all for `since_timestamp = 0`. -/
def loadSince : Option Int64 :=
  if 0 < req.sinceTimestamp then some req.sinceTimestamp.toInt64 else none

/-- The signature has been verified. -/
def signedPast : Past :=
  [⟨.sql (.selectUser req.userHash), .ok user⟩,
   ⟨.verify user.identityKeyDilithium req.signedData req.dilithiumSignature, true⟩]

/-- The clock has been read. -/
def timedPast : Past := req.signedPast user ++ [⟨.clock, now⟩]

/-- The matching messages have been counted. -/
def countedPast : Past :=
  req.timedPast user now ++ [⟨.sql (.countMessages req.userHash req.sinceTimestamp.toInt64 now),
    .ok total⟩]

/-- The page has been loaded. -/
def loadedPast : Past :=
  req.countedPast user now total ++ [⟨.sql (.loadMessages req.userHash req.loadSince now
    req.effectiveLimit), .ok rows⟩]

/-- The clock has been read for the response. -/
def answeredPast : Past := req.loadedPast user now total rows ++ [⟨.clock, ts⟩]

/-- The response of a poll that counted `total` messages and loaded `rows`. -/
def response (codec : Codec) : FetchMessagesResponse where
  messages := rows.map (MessageModel.envelope codec)
  timestamp := (toMillis ts).toUInt64
  remainingCount := UInt32.ofNat (total - rows.length)

end FetchMessagesRequest

/-- What a poll has done before each operation. -/
def FetchOrder (job : Job) (past : Past) (o : Op) : Prop :=
  ∀ req, job = .request (.fetchMessages req) →
    match o with
    | .sql (.countMessages r since n) => ∃ user now, past = req.timedPast user now ∧
        r = req.userHash ∧ since = req.sinceTimestamp.toInt64 ∧ n = (now : Nat)
    | .sql (.loadMessages r since n limit) => ∃ user now total,
        past = req.countedPast user now total ∧ r = req.userHash ∧ since = req.loadSince ∧
        n = (now : Nat) ∧ limit = req.effectiveLimit
    | .sql (.selectUser _) => past = []
    | .verify _ _ _ => ∃ user, past = [⟨.sql (.selectUser req.userHash), .ok user⟩]
    | .clock => (∃ user, past = req.signedPast user) ∨
        ∃ user now total rows, past = req.loadedPast user now total rows
    | _ => False

/-- What a poll has done when it answers with `resp`: it was refused before it read any message,
or it has taken all its steps. -/
def FetchMessagesRequest.Answered (codec : Codec) (req : FetchMessagesRequest) (past : Past)
    (resp : FetchMessagesResponse) : Prop :=
  (resp = {} ∧ ∀ r since now limit rows,
    ¬ Did past (.sql (.loadMessages r since now limit)) (.ok rows)) ∨
  ∃ user now total rows ts, past = req.answeredPast user now total rows ts ∧
    resp = FetchMessagesRequest.response total rows ts codec

/-- What a poll has done when it answers. -/
def FetchAnswer (codec : Codec) (job : Job) (past : Past) (reply : Option Reply) : Prop :=
  ∀ req, job = .request (.fetchMessages req) → ∀ r resp, reply = some r →
    r.payload = .fetchMessages resp → req.Answered codec past resp

theorem fetchMessages_order (codec : Codec) (req : FetchMessagesRequest) :
    (fetchMessages codec req).Obeys (FetchOrder (.request (.fetchMessages req)))
      (fun past r ↦ ∀ resp, r = .ok resp → req.Answered codec past resp) [] := by
  unfold fetchMessages
  refine obeys_sql ?_ (fun e ↦ ?_) fun user ↦ ?_
  · rintro _ ⟨⟩
    rfl
  · cases e with
    | notFound =>
        rintro _ ⟨⟩
        exact .inl ⟨rfl, by simp [Did]⟩
    | _ => rintro _ ⟨⟩
  refine obeys_call (o := .verify _ _ _) ?_ fun valid ↦ ?_
  · rintro _ ⟨⟩
    exact ⟨user, rfl⟩
  cases valid with
  | false =>
      rintro _ ⟨⟩
      exact .inl ⟨rfl, by simp [Did]⟩
  | true =>
  refine obeys_utcNow ?_ fun now ↦ ?_
  · rintro _ ⟨⟩
    exact .inl ⟨user, rfl⟩
  refine obeys_sql ?_ (fun e ↦ ?_) fun total ↦ ?_
  · rintro _ ⟨⟩
    exact ⟨user, now, rfl, rfl, rfl, rfl⟩
  · rintro _ ⟨⟩
  refine obeys_sql ?_ (fun e ↦ ?_) fun rows ↦ ?_
  · rintro _ ⟨⟩
    exact ⟨user, now, total, rfl, rfl, rfl, rfl, rfl⟩
  · rintro _ ⟨⟩
  refine obeys_currentMillis ?_ fun ts ↦ ?_
  · rintro _ ⟨⟩
    exact .inr ⟨user, now, total, rows, rfl⟩
  rintro _ ⟨⟩
  exact .inr ⟨user, now, total, rows, ts, rfl, rfl⟩

theorem code_fetchOrder (codec : Codec) (job : Job) :
    (code codec job).Obeys (FetchOrder job) (FetchAnswer codec job) [] := by
  by_cases hfetch : ∃ req, job = .request (.fetchMessages req)
  · obtain ⟨req, rfl⟩ := hfetch
    have hcall : (processCall codec (.fetchMessages req)).Obeys
        (FetchOrder (.request (.fetchMessages req)))
        (fun past r ↦ FetchAnswer codec (.request (.fetchMessages req)) past (some r)) [] := by
      refine (fetchMessages_order codec req).bind fun past r hr ↦ ?_
      rintro _ ⟨⟩ _ resp ⟨⟩ hresp
      cases r with
      | error e => exact nomatch hresp
      | ok r => exact hr resp (congrArg _ (Payload.fetchMessages.inj hresp))
    exact hcall.bind fun _ _ h ↦ h
  · exact Program.obeys_of_forall _ (fun _ _ req hjob ↦ absurd ⟨req, hjob⟩ hfetch)
      fun _ _ req hjob ↦ absurd ⟨req, hjob⟩ hfetch

end ZenthDht
