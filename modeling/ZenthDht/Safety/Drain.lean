import ZenthDht.Data.Drain
import ZenthDht.Data.Page
import ZenthDht.Data.Signed
import ZenthDht.Safety.Acks

/-!
# Emptying a mailbox

FETCH_MESSAGES counts with one query and loads its page with another, which leaves the since filter
out for `since_timestamp = 0`.  So the page and `remaining_count` agree unless a message of the
recipient has a server timestamp that is not positive, or there are more messages than a `u32`
counts (`Fetches.agrees_iff`).  Where they agree, a client that fetches from 0 and acknowledges what
it gets receives every message once, and is then told that none is left (`fetch_and_drain`).
-/

namespace ZenthDht

open Conc Stmt

variable {codec : Codec} {verifyDetached : Bytes → Bytes → Bytes → Bool}
variable {c c' : State} {db : Db} {now : NaiveDateTime} {u : Bytes} {E : NaiveDateTime}
variable {req : FetchMessagesRequest} {resp : FetchMessagesResponse} {x y : MessageModel}

/-! ## The steps of a fetch -/

theorem fetchMessages_done (req : FetchMessagesRequest) :
    (processCall codec (.fetchMessages req)).Obeys (fun _ _ ↦ True) (fun done reply ↦
      reply.success = false ∨ (∀ k m s, ¬ Did done (.verify k m s) true) ∨
      ∃ user now total rows ts, done = req.answeredPast user now total rows ts ∧
        reply = ⟨true, .fetchMessages (FetchMessagesRequest.response total rows ts codec), ""⟩)
      [] := by
  have hfetch : (fetchMessages codec req).Obeys (fun _ _ ↦ True) (fun done r ↦
      (∃ m, r = .error m) ∨ (∀ k m s, ¬ Did done (.verify k m s) true) ∨
      ∃ user now total rows ts, done = req.answeredPast user now total rows ts ∧
        r = .ok (FetchMessagesRequest.response total rows ts codec)) [] := by
    unfold fetchMessages
    refine obeys_sql trivial (fun e ↦ ?_) fun user ↦ ?_
    · cases e with
      | notFound => exact .inr (.inl (by simp [Did]))
      | _ => exact .inl ⟨_, rfl⟩
    refine obeys_call (o := .verify _ _ _) trivial fun valid ↦ ?_
    cases valid with
    | false => exact .inr (.inl (by simp [Did]))
    | true =>
    refine obeys_utcNow trivial fun now ↦ ?_
    refine obeys_sql trivial (fun e ↦ .inl ⟨_, rfl⟩) fun total ↦ ?_
    refine obeys_sql trivial (fun e ↦ .inl ⟨_, rfl⟩) fun rows ↦ ?_
    exact obeys_currentMillis trivial fun ts ↦
      .inr (.inr ⟨user, now, total, rows, ts, rfl, rfl⟩)
  refine hfetch.bind fun done r h ↦ ?_
  rcases h with ⟨m, rfl⟩ | h | ⟨user, now, total, rows, ts, hdone, rfl⟩
  · exact .inl rfl
  · exact .inr (.inl h)
  · exact .inr (.inr ⟨user, now, total, rows, ts, hdone, rfl⟩)

/-- Run alone from `c`, the request is authenticated and answered with `resp`. -/
structure Fetches (codec : Codec) (verifyDetached : Bytes → Bytes → Bytes → Bool) (c : State)
    (req : FetchMessagesRequest) (resp : FetchMessagesResponse) (c' : State) : Prop where
  answers : Answers codec verifyDetached c (.fetchMessages req) ⟨true, .fetchMessages resp, ""⟩ c'
  signed : ∃ key, Did (past c.pool.length c'.trace)
    (.verify key req.signedData req.dilithiumSignature) true

/-- What a fetch of the rows `db` at the time `now` computes. -/
structure FetchesAt (codec : Codec) (db : Db) (now : NaiveDateTime) (req : FetchMessagesRequest)
    (resp : FetchMessagesResponse) (total : Nat) (rows : List MessageModel) : Prop where
  messages : resp.messages = rows.map (MessageModel.envelope codec)
  remaining : resp.remainingCount = UInt32.ofNat (total - rows.length)
  count : ∃ db', db.Same db' ∧
    (Stmt.countMessages req.userHash req.sinceTimestamp.toInt64 now).exec now db' = (.ok total, db')
  page : ∃ db', db.Same db' ∧ (Stmt.loadMessages req.userHash req.loadSince now
    req.effectiveLimit).exec now db' = (.ok rows, db')

/-- A fetch leaves the rows as they are. -/
theorem Fetches.reads (h : Fetches codec verifyDetached c req resp c')
    (hc : Reachable codec verifyDetached c) :
    c.world.db.Same c'.world.db ∧ ∃ (now : Nat) (total : Nat) (rows : List MessageModel),
      Did (past c.pool.length c'.trace) .clock now ∧
      FetchesAt codec c.world.db now req resp total rows := by
  obtain ⟨key, hsigned⟩ := h.signed
  have hreplays := h.answers.replays hc
  rcases (h.answers.reachable hc).request_answer (fetchMessages_done req) h.answers.answered with
    hfail | hunsigned | ⟨user, now, total, rows, ts, hpast, hreply⟩
  · exact nomatch hfail
  · exact absurd hsigned (hunsigned _ _ _)
  rw [hpast] at hreplays
  obtain rfl : resp = FetchMessagesRequest.response total rows ts codec :=
    Payload.fetchMessages.inj (congrArg Reply.payload hreply)
  obtain ⟨db₀, now₀, hsame₀, -, hreplays⟩ := hreplays.executed nofun
  obtain ⟨db₁, hsame₁, hreplays⟩ := hreplays
  obtain ⟨db₂, hsame₂, hreplays⟩ := hreplays
  obtain ⟨db₃, now₃, hsame₃, hcount, hreplays⟩ := hreplays.executed nofun
  obtain ⟨db₄, now₄, hsame₄, hload, hreplays⟩ := hreplays.executed nofun
  obtain ⟨db₅, hsame₅, hreplays⟩ := hreplays
  have hall₃ : c.world.db.Same db₃ := ((hsame₀.trans hsame₁).trans hsame₂).trans hsame₃
  have hall₄ : c.world.db.Same db₄ := hall₃.trans hsame₄
  refine ⟨(hall₄.trans hsame₅).trans hreplays, now, total, rows, ?_, rfl, rfl, ⟨db₃, hall₃, ?_⟩,
    db₄, hall₄, ?_⟩
  · rw [hpast]
    simp [Did, FetchMessagesRequest.answeredPast, FetchMessagesRequest.loadedPast,
      FetchMessagesRequest.countedPast, FetchMessagesRequest.timedPast]
  · exact Prod.ext hcount.symm rfl
  · exact Prod.ext hload.symm rfl

/-! ## The page and the count -/

/-- The messages that a fetch at the time `now` is about. -/
def matching (db : Db) (now : NaiveDateTime) (req : FetchMessagesRequest) : List MessageModel :=
  db.messages.filter fun x ↦ x.recipientHashId = req.userHash ∧ now < x.expiresAt ∧
    (req.sinceTimestamp.toNat : Int) < x.serverTimestamp.toInt

/-- The response has the first messages in the order of the server timestamp, as many as the limit
allows, and counts the other ones. -/
structure Agrees (codec : Codec) (db : Db) (now : NaiveDateTime) (req : FetchMessagesRequest)
    (resp : FetchMessagesResponse) : Prop where
  page : ∃ rows, resp.messages = rows.map (MessageModel.envelope codec) ∧
    rows.length = min req.effectiveLimit (matching db now req).length ∧
    IsPage (fun x ↦ x.serverTimestamp.toInt) (· ∈ matching db now req) req.effectiveLimit rows
  remaining : resp.remainingCount.toNat = (matching db now req).length - resp.messages.length

/-- From 0, no unexpired message of the user is left out of the count, and what is left after the
page is a `u32`. -/
structure Countable (db : Db) (now : NaiveDateTime) (req : FetchMessagesRequest) : Prop where
  positive : req.sinceTimestamp = 0 → ∀ x ∈ db.messages, x.recipientHashId = req.userHash →
    now < x.expiresAt → 0 < x.serverTimestamp.toInt
  short : (matching db now req).length - req.effectiveLimit < 2 ^ 32

theorem effectiveLimit_pos (req : FetchMessagesRequest) : 0 < req.effectiveLimit := by
  unfold FetchMessagesRequest.effectiveLimit
  split
  · decide
  next h =>
    have hpos : req.limit.toNat ≠ 0 := fun hzero ↦ h (UInt32.toNat_inj.mp hzero)
    omega

theorem mem_matching : x ∈ matching db now req ↔ x ∈ db.messages ∧
    x.recipientHashId = req.userHash ∧ now < x.expiresAt ∧
      (req.sinceTimestamp.toNat : Int) < x.serverTimestamp.toInt := by
  simp [matching]

section

variable {total : Nat} {rows : List MessageModel}
variable (h : FetchesAt codec db now req resp total rows)
include h

theorem FetchesAt.total_eq (hsince : req.sinceTimestamp.toNat < 2 ^ 63) :
    total = (matching db now req).length := by
  obtain ⟨db', hsame, hcount⟩ := h.count
  obtain rfl := Except.ok.inj (congrArg Prod.fst hcount)
  rw [matching, ← List.countP_eq_length_filter, hsame.messages.countP_eq]
  congr 1
  funext x
  simp only [selectsMessage, after, Int64.lt_iff_toInt_lt, toInt_toInt64_eq.mpr hsince]
  simp [Bool.and_assoc]

/-- The page of what the load selects. -/
theorem FetchesAt.isPage (hnodup : db.messages.Nodup) :
    IsPage (fun x ↦ x.serverTimestamp.toInt)
      (fun x ↦ x ∈ db.messages ∧ selectsMessage req.userHash req.loadSince now x = true)
      req.effectiveLimit rows := by
  obtain ⟨db', hsame, hload⟩ := h.page
  obtain rfl := Except.ok.inj (congrArg Prod.fst hload)
  have hpage : IsPage (fun x : MessageModel ↦ x.serverTimestamp.toInt)
      (fun x ↦ x ∈ db'.messages ∧ selectsMessage req.userHash req.loadSince now x = true)
      req.effectiveLimit
      (((db'.messages.filter (selectsMessage req.userHash req.loadSince now)).insertionSort
        fun x y ↦ x.serverTimestamp.toInt ≤ y.serverTimestamp.toInt).take req.effectiveLimit) :=
    IsPage.of_take (hsame.messages.nodup_iff.mp hnodup)
  simp only [Int64.le_iff_toInt_le]
  exact hpage.congr fun x ↦ and_congr_left' hsame.messages.mem_iff.symm

end

/-- What the load selects is what the fetch is about, but for the messages it does not count. -/
theorem selects_iff (hsince : req.sinceTimestamp.toNat < 2 ^ 63) :
    selectsMessage req.userHash req.loadSince now x = true ↔
      x.recipientHashId = req.userHash ∧ now < x.expiresAt ∧
        (req.sinceTimestamp ≠ 0 → (req.sinceTimestamp.toNat : Int) < x.serverTimestamp.toInt) := by
  unfold FetchMessagesRequest.loadSince
  by_cases hzero : req.sinceTimestamp = 0
  · simp [selectsMessage, after, hzero]
  · have hpos : 0 < req.sinceTimestamp :=
      UInt64.lt_iff_toNat_lt.mpr (Nat.pos_of_ne_zero fun h ↦ hzero (UInt64.toNat_inj.mp h))
    simp [selectsMessage, after, Int64.lt_iff_toInt_lt, toInt_toInt64_eq.mpr hsince, hzero, hpos,
      and_assoc]

theorem FetchesAt.agrees {total : Nat} {rows : List MessageModel}
    (h : FetchesAt codec db now req resp total rows) (hnodup : db.messages.Nodup)
    (hsince : req.sinceTimestamp.toNat < 2 ^ 63) (hcount : Countable db now req) :
    Agrees codec db now req resp ∧ rows.length = min req.effectiveLimit (matching db now req).length ∧
      IsPage (fun x ↦ x.serverTimestamp.toInt) (· ∈ matching db now req) req.effectiveLimit rows := by
  have hpage := (h.isPage hnodup).congr (q := (· ∈ matching db now req)) fun x ↦ by
    rw [mem_matching, selects_iff hsince]
    refine and_congr_right fun hx ↦ and_congr_right fun hu ↦ and_congr_right fun hnow ↦ ?_
    constructor
    · intro hafter
      by_cases hzero : req.sinceTimestamp = 0
      · rw [hzero]
        exact hcount.positive hzero x hx hu hnow
      · exact hafter hzero
    · exact fun hlt _ ↦ hlt
  have hlength := hpage.length_eq (hnodup.filter _)
  refine ⟨⟨⟨rows, h.messages, hlength, hpage⟩, ?_⟩, hlength, hpage⟩
  have hshort := hcount.short
  rw [h.remaining, h.messages, List.length_map, h.total_eq hsince, hlength, UInt32.toNat_ofNat']
  omega

/-- The page and the count agree exactly where all messages are counted. -/
theorem Fetches.agrees_iff (hc : Reachable codec verifyDetached c)
    (h : Fetches codec verifyDetached c req resp c') (hsince : req.sinceTimestamp.toNat < 2 ^ 63) :
    ∃ now : Nat, Did (past c.pool.length c'.trace) .clock now ∧
      (Agrees codec c.world.db now req resp ↔ Countable c.world.db now req) := by
  obtain ⟨-, now, total, rows, hnow, hat⟩ := h.reads hc
  have hnodup : c.world.db.messages.Nodup := hc.nodup_messageIds.of_map
  have hsound := hat.isPage hnodup
  refine ⟨now, hnow, fun hagrees ↦ ⟨fun hzero x hx hu hnow ↦ ?_, ?_⟩, fun hcount ↦
    (hat.agrees hnodup hsince hcount).1⟩
  · obtain ⟨rows', hmessages, -, hpage'⟩ := hagrees.page
    -- an uncounted message would stand before the counted ones, so one would be on the page
    by_contra hneg
    have hselected : x ∈ c.world.db.messages ∧
        selectsMessage req.userHash req.loadSince now x = true :=
      ⟨hx, (selects_iff hsince).mpr ⟨hu, hnow, absurd hzero⟩⟩
    obtain ⟨y, hy, hle⟩ : ∃ y ∈ rows, y.serverTimestamp.toInt ≤ 0 := by
      rcases hsound.rest x hselected with hpage | ⟨hfull, hbefore⟩
      · exact ⟨x, hpage, Int.not_lt.mp hneg⟩
      · obtain ⟨y, hy⟩ := List.exists_mem_of_length_pos (hfull ▸ effectiveLimit_pos req)
        exact ⟨y, hy, (hbefore y hy).trans (Int.not_lt.mp hneg)⟩
    have hmem : y.envelope codec ∈ rows'.map (MessageModel.envelope codec) := by
      rw [← hmessages, hat.messages]
      exact List.mem_map_of_mem hy
    obtain ⟨y', hy', henvelope⟩ := List.mem_map.mp hmem
    obtain ⟨hy'db, -, -, hpos⟩ := mem_matching.mp (hpage'.sound y' hy')
    obtain rfl : y' = y := hc.message_unique (hsound.sound y hy).1 hy'db
      (congrArg ZenthSignalEnvelope.messageId henvelope)
    rw [hzero] at hpos
    exact absurd hpos (Int.not_lt.mpr hle)
  · obtain ⟨rows', hmessages, hlength, -⟩ := hagrees.page
    have hlt := resp.remainingCount.toNat_lt
    have hremaining := hagrees.remaining
    rw [hmessages, List.length_map, hlength] at hremaining
    omega

/-! ## Emptying the mailbox -/

/-- The messages of a user. -/
def inbox (u : Bytes) (c : State) : Set MessageModel :=
  {x | x ∈ c.world.db.messages ∧ x.recipientHashId = u}

/-- Others are active from `c` to `c'`: no message of `u` arrives, and none that expires after `E`
goes away. -/
structure OthersAct (codec : Codec) (verifyDetached : Bytes → Bytes → Bytes → Bool) (u : Bytes)
    (E : NaiveDateTime) (c c' : State) : Prop where
  run : ∃ ms, (server codec verifyDetached).run c ms = some c'
  arrives : inbox u c' ⊆ inbox u c
  stays : ∀ x ∈ inbox u c, E < x.expiresAt → x ∈ inbox u c'

/-- The envelopes are acknowledged, one by one and with success. -/
inductive AcksAll (codec : Codec) (verifyDetached : Bytes → Bytes → Bytes → Bool) (u : Bytes)
    (E : NaiveDateTime) : State → List ZenthSignalEnvelope → State → Prop
  | nil (c : State) : AcksAll codec verifyDetached u E c [] c
  | idle {c c₁ c' : State} {es : List ZenthSignalEnvelope}
      (hidle : OthersAct codec verifyDetached u E c c₁)
      (hrest : AcksAll codec verifyDetached u E c₁ es c') : AcksAll codec verifyDetached u E c es c'
  | ack {c c₁ c' : State} {e : ZenthSignalEnvelope} {es : List ZenthSignalEnvelope}
      {req : MessageAck} {reply : Reply} (hid : req.messageId = e.messageId)
      (hr : req.recipientHashId = e.recipientHashId)
      (hans : Answers codec verifyDetached c (.ackMessage req) reply c₁)
      (hok : reply.success = true) (hrest : AcksAll codec verifyDetached u E c₁ es c') :
      AcksAll codec verifyDetached u E c (e :: es) c'

/-- The loop of a client that empties the mailbox of `u` until the time `E`: it fetches from 0 and
acknowledges what it gets. -/
inductive Drain (codec : Codec) (verifyDetached : Bytes → Bytes → Bytes → Bool) (u : Bytes)
    (E : NaiveDateTime) : State → List FetchMessagesResponse → State → Prop
  | nil (c : State) : Drain codec verifyDetached u E c [] c
  | idle {c c₁ c' : State} {resps : List FetchMessagesResponse}
      (hidle : OthersAct codec verifyDetached u E c c₁)
      (hrest : Drain codec verifyDetached u E c₁ resps c') :
      Drain codec verifyDetached u E c resps c'
  | round {c c₁ c₂ c' : State} {req : FetchMessagesRequest} {resp : FetchMessagesResponse}
      {resps : List FetchMessagesResponse} (hu : req.userHash = u) (hsince : req.sinceTimestamp = 0)
      (hfetch : Fetches codec verifyDetached c req resp c₁)
      (htime : ∀ now : Nat, Did (past c.pool.length c₁.trace) .clock now → now ≤ E)
      (hacks : AcksAll codec verifyDetached u E c₁ resp.messages c₂)
      (hrest : Drain codec verifyDetached u E c₂ resps c') :
      Drain codec verifyDetached u E c (resp :: resps) c'

/-- Every message has been stored after the epoch, and a `u32` counts them. -/
structure Modest (u : Bytes) (c : State) : Prop where
  positive : ∀ x ∈ inbox u c, 0 < x.serverTimestamp.toInt
  short : (c.world.db.messages.filter fun x ↦ x.recipientHashId = u).length < 2 ^ 32

theorem mem_inbox_list : (x ∈ c.world.db.messages.filter fun x ↦ x.recipientHashId = u) ↔
    x ∈ inbox u c := by
  simp [inbox]

theorem Reachable.nodup_inbox (hc : Reachable codec verifyDetached c) :
    (c.world.db.messages.filter fun x ↦ x.recipientHashId = u).Nodup :=
  hc.nodup_messageIds.of_map.filter _

theorem Modest.sub (h : Modest u c) (hc' : Reachable codec verifyDetached c')
    (hsub : inbox u c' ⊆ inbox u c) : Modest u c' := by
  refine ⟨fun x hx ↦ h.positive x (hsub hx), Nat.lt_of_le_of_lt ?_ h.short⟩
  exact (List.Nodup.subperm hc'.nodup_inbox fun x hx ↦
    mem_inbox_list.mpr (hsub (mem_inbox_list.mp hx))).length_le

/-- What an acknowledgement does to the mailbox. -/
theorem Answers.inbox_iff (hc : Reachable codec verifyDetached c) {req : MessageAck} {reply : Reply}
    (h : Answers codec verifyDetached c (.ackMessage req) reply c') (hok : reply.success = true)
    (hu : req.recipientHashId = u) :
    x ∈ inbox u c' ↔ x ∈ inbox u c ∧ x.messageId ≠ req.messageId := by
  rcases (h.reachable hc).request_answer (ackMessage_done req) h.answered with
    ⟨-, user, n, hpast, -⟩ | ⟨hfail, -⟩
  · have hreplays := h.replays hc
    rw [hpast] at hreplays
    have hsame := MessageAck.donePast_replays hreplays c.world.clock
    simp only [inbox, Set.mem_ofPred_eq, ← hsame.messages.mem_iff, exec, List.mem_filter]
    subst hu
    simp
    tauto
  · exact nomatch hok.symm.trans hfail

theorem AcksAll.inbox_iff {es : List ZenthSignalEnvelope}
    (h : AcksAll codec verifyDetached u E c es c') (hc : Reachable codec verifyDetached c)
    (hes : ∀ e ∈ es, e.recipientHashId = u) :
    Reachable codec verifyDetached c' ∧
      (∀ y ∈ inbox u c', y ∈ inbox u c ∧ ∀ e ∈ es, y.messageId ≠ e.messageId) ∧
      ∀ y ∈ inbox u c, E < y.expiresAt → (∀ e ∈ es, y.messageId ≠ e.messageId) →
        y ∈ inbox u c' := by
  induction h with
  | nil c => exact ⟨hc, fun y hy ↦ ⟨hy, nofun⟩, fun y hy _ _ ↦ hy⟩
  | idle hidle _ ih =>
      obtain ⟨ms, hrun⟩ := hidle.run
      obtain ⟨hc', hsub, hkeep⟩ := ih (hc.run hrun) hes
      refine ⟨hc', fun y hy ↦ ⟨hidle.arrives (hsub y hy).1, (hsub y hy).2⟩, fun y hy hE hne ↦ ?_⟩
      exact hkeep y (hidle.stays y hy hE) hE hne
  | @ack c c₁ c' e es req reply hid hr hans hok _ ih =>
      have hiff {y : MessageModel} : y ∈ inbox u c₁ ↔ y ∈ inbox u c ∧ y.messageId ≠ e.messageId :=
        hid ▸ hans.inbox_iff hc hok (hr.trans (hes e List.mem_cons_self))
      obtain ⟨hc', hsub, hkeep⟩ := ih (hans.reachable hc) fun e' he' ↦
        hes e' (List.mem_cons_of_mem _ he')
      refine ⟨hc', fun y hy ↦ ?_, fun y hy hE hne ↦ ?_⟩
      · obtain ⟨hy₁, hne⟩ := hsub y hy
        obtain ⟨hy, hne₁⟩ := hiff.mp hy₁
        exact ⟨hy, List.forall_mem_cons.mpr ⟨hne₁, hne⟩⟩
      · obtain ⟨hne₁, hne⟩ := List.forall_mem_cons.mp hne
        exact hkeep y (hiff.mpr ⟨hy, hne₁⟩) hE hne

theorem Fetches.inbox_eq (h : Fetches codec verifyDetached c req resp c')
    (hc : Reachable codec verifyDetached c) : inbox u c' = inbox u c := by
  obtain ⟨hsame, -⟩ := h.reads hc
  ext x
  exact and_congr_left' hsame.messages.mem_iff.symm

/-- What a fetch from 0 takes out of a mailbox. -/
structure Takes (codec : Codec) (u : Bytes) (E : NaiveDateTime) (c : State)
    (resp : FetchMessagesResponse) (page : List MessageModel) : Prop where
  messages : resp.messages = page.map (MessageModel.envelope codec)
  nodup : page.Nodup
  mem : ∀ x ∈ page, x ∈ inbox u c
  more : resp.remainingCount ≠ 0 → page ≠ []
  done : resp.remainingCount = 0 → ∀ x ∈ inbox u c, E < x.expiresAt → x ∈ page

theorem Fetches.takes (h : Fetches codec verifyDetached c req resp c')
    (hc : Reachable codec verifyDetached c) (hu : req.userHash = u)
    (hsince : req.sinceTimestamp = 0) (hm : Modest u c)
    (htime : ∀ now : Nat, Did (past c.pool.length c'.trace) .clock now → now ≤ E) :
    ∃ page, Takes codec u E c resp page := by
  subst hu
  obtain ⟨-, now, total, rows, hnow, hat⟩ := h.reads hc
  have hnodup : c.world.db.messages.Nodup := hc.nodup_messageIds.of_map
  have hzero : req.sinceTimestamp.toNat = 0 := congrArg UInt64.toNat hsince
  have hsmall : (matching c.world.db now req).length < 2 ^ 32 := by
    refine Nat.lt_of_le_of_lt ?_ hm.short
    refine (List.Nodup.subperm (hnodup.filter _) fun x hx ↦ mem_inbox_list.mpr ?_).length_le
    obtain ⟨hx, hu, -⟩ := mem_matching.mp hx
    exact ⟨hx, hu⟩
  have hcount : Countable c.world.db now req :=
    ⟨fun _ x hx hu _ ↦ hm.positive x ⟨hx, hu⟩, by omega⟩
  obtain ⟨hagrees, hlength, hpage⟩ := hat.agrees hnodup (by omega) hcount
  have hremaining := hagrees.remaining
  rw [hat.messages, List.length_map, hlength] at hremaining
  have hpos := effectiveLimit_pos req
  refine ⟨rows, hat.messages, hpage.nodup, fun x hx ↦ ?_, fun hmore hnil ↦ hmore ?_,
    fun hdone x hx hE ↦ ?_⟩
  · obtain ⟨hx, hu, -⟩ := mem_matching.mp (hpage.sound x hx)
    exact ⟨hx, hu⟩
  · rw [hnil, List.length_nil] at hlength
    refine UInt32.toNat_inj.mp ?_
    rw [UInt32.toNat_zero]
    omega
  · rw [hdone, UInt32.toNat_zero] at hremaining
    refine hpage.mem_of_length (by omega) (mem_matching.mpr ⟨hx.1, hx.2, ?_, ?_⟩)
    · exact Int.lt_of_le_of_lt (htime now hnow) hE
    · rw [hzero]
      exact hm.positive x hx

/-- A client that empties a mailbox drains it. -/
theorem Drain.drains {resps : List FetchMessagesResponse}
    (h : Drain codec verifyDetached u E c resps c') (hc : Reachable codec verifyDetached c)
    (hm : Modest u c) :
    ∃ rounds, Drains {x | E < x.expiresAt} (inbox u c) rounds (inbox u c') ∧
      resps.map (fun resp ↦ (resp.messages, decide (resp.remainingCount = 0))) =
        rounds.map fun r ↦ (r.1.map (MessageModel.envelope codec), r.2) := by
  induction h with
  | nil c => exact ⟨[], .nil _, rfl⟩
  | idle hidle _ ih =>
      obtain ⟨ms, hrun⟩ := hidle.run
      have hc₁ := hc.run hrun
      obtain ⟨rounds, hdrains, hviews⟩ := ih hc₁ (hm.sub hc₁ hidle.arrives)
      exact ⟨rounds, .idle hidle.arrives (fun x hx hE ↦ hidle.stays x hx hE) hdrains, hviews⟩
  | @round c c₁ c₂ c' req resp resps hu hsince hfetch htime hacks _ ih =>
      obtain ⟨page, htakes⟩ := hfetch.takes hc hu hsince hm htime
      have hc₁ := hfetch.answers.reachable hc
      have hes (e : ZenthSignalEnvelope) (he : e ∈ resp.messages) : e.recipientHashId = u := by
        rw [htakes.messages] at he
        obtain ⟨x, hx, rfl⟩ := List.mem_map.mp he
        exact (htakes.mem x hx).2
      obtain ⟨hc₂, hsub, hkeep⟩ := hacks.inbox_iff hc₁ hes
      rw [hfetch.inbox_eq hc] at hsub hkeep
      obtain ⟨rounds, hdrains, hviews⟩ := ih hc₂ (hm.sub hc₂ fun y hy ↦ (hsub y hy).1)
      refine ⟨(page, decide (resp.remainingCount = 0)) :: rounds, ?_, ?_⟩
      · refine .round htakes.nodup htakes.mem (fun hmore ↦ htakes.more (of_decide_eq_false hmore))
          (fun hdone ↦ htakes.done (of_decide_eq_true hdone)) (.idle (fun y hy ↦ ?_) ?_ hdrains)
        · obtain ⟨hy, hne⟩ := hsub y hy
          refine ⟨hy, fun hpage ↦ hne (y.envelope codec) ?_ rfl⟩
          rw [htakes.messages]
          exact List.mem_map_of_mem hpage
        · rintro y ⟨hy, hpage⟩ hE
          refine hkeep y hy hE fun e he hid ↦ hpage ?_
          rw [htakes.messages] at he
          obtain ⟨x, hx, rfl⟩ := List.mem_map.mp he
          exact hc.message_unique (htakes.mem x hx).1 hy.1 hid ▸ hx
      · rw [List.map_cons, List.map_cons, hviews, htakes.messages]

/-- The mailbox has been emptied. -/
structure Emptied (codec : Codec) (u : Bytes) (E : NaiveDateTime) (c : State)
    (resps : List FetchMessagesResponse) : Prop where
  /-- Only messages of the user are returned. -/
  known : ∀ e ∈ resps.flatMap FetchMessagesResponse.messages, ∃ x ∈ inbox u c,
    e = x.envelope codec
  /-- None is returned twice. -/
  once : ((resps.flatMap FetchMessagesResponse.messages).map
    ZenthSignalEnvelope.messageId).Nodup
  /-- When none remains, all that have not expired have been returned. -/
  all : (∃ resp ∈ resps, resp.remainingCount = 0) → ∀ x ∈ inbox u c, E < x.expiresAt →
    x.envelope codec ∈ resps.flatMap FetchMessagesResponse.messages
  /-- That is so after at most one fetch more than there are messages. -/
  ends : (∀ resp ∈ resps, resp.remainingCount ≠ 0) →
    resps.length ≤ (c.world.db.messages.filter fun x ↦ x.recipientHashId = u).length

theorem Drain.empties {resps : List FetchMessagesResponse}
    (h : Drain codec verifyDetached u E c resps c') (hc : Reachable codec verifyDetached c)
    (hm : Modest u c) : Emptied codec u E c resps := by
  obtain ⟨rounds, hdrains, hviews⟩ := h.drains hc hm
  have hmessages : resps.flatMap FetchMessagesResponse.messages =
      (drained rounds).map (MessageModel.envelope codec) := by
    have hfirst := congrArg (fun l ↦ (l.map Prod.fst).flatten) hviews
    simpa [drained, List.map_flatMap, List.flatMap_def, Function.comp_def] using hfirst
  have hflags : resps.map (fun resp ↦ decide (resp.remainingCount = 0)) = rounds.map Prod.snd := by
    simpa [Function.comp_def] using congrArg (List.map Prod.snd) hviews
  have hids : (drained rounds).Nodup := hdrains.nodup
  refine ⟨fun e he ↦ ?_, ?_, fun ⟨resp, hresp, hzero⟩ x hx hE ↦ ?_, fun hmore ↦ ?_⟩
  · rw [hmessages] at he
    obtain ⟨x, hx, rfl⟩ := List.mem_map.mp he
    exact ⟨x, hdrains.mem_of_drained hx, rfl⟩
  · rw [hmessages, List.map_map]
    refine hids.map_on fun x hx y hy hid ↦ ?_
    exact hc.message_unique (hdrains.mem_of_drained hy).1 (hdrains.mem_of_drained hx).1 hid
  · rw [hmessages]
    refine List.mem_map_of_mem (hdrains.complete ?_ hx hE)
    have hflag : true ∈ rounds.map Prod.snd := by
      rw [← hflags]
      exact List.mem_map.mpr ⟨resp, hresp, decide_eq_true hzero⟩
    obtain ⟨r, hr, hd⟩ := List.mem_map.mp hflag
    exact ⟨r, hr, hd⟩
  · have hlen : resps.length = rounds.length := by
      simpa using congrArg List.length hflags
    have hpages := hdrains.length_le fun r hr ↦ by
      have hflag : r.2 ∈ resps.map fun resp ↦ decide (resp.remainingCount = 0) := by
        rw [hflags]
        exact List.mem_map_of_mem hr
      obtain ⟨resp, hresp, hd⟩ := List.mem_map.mp hflag
      exact hd ▸ decide_eq_false (hmore resp hresp)
    have hinside := (List.Nodup.subperm hids fun x hx ↦
      mem_inbox_list.mpr (hdrains.mem_of_drained hx)).length_le
    omega

/-- **Fetching.**  The page and the count of a fetch agree exactly where all messages are counted,
and where they are, fetching from 0 and acknowledging empties the mailbox. -/
theorem fetch_and_drain (hc : Reachable codec verifyDetached c) :
    (∀ req resp c', Fetches codec verifyDetached c req resp c' →
      req.sinceTimestamp.toNat < 2 ^ 63 →
      ∃ now : Nat, Did (past c.pool.length c'.trace) .clock now ∧
        (Agrees codec c.world.db now req resp ↔ Countable c.world.db now req)) ∧
    ∀ u E resps c', Modest u c → Drain codec verifyDetached u E c resps c' →
      Emptied codec u E c resps := by
  constructor
  · intro req resp c' h hsince
    exact h.agrees_iff hc hsince
  · intro u E resps c' hm h
    exact h.empties hc hm

namespace Sample

/-- User 2 asks for all its messages. -/
def fetchAll : FetchMessagesRequest := ⟨word 2, 0, 0, 4, signature⟩

/-- User 2 acknowledges the message of user 1. -/
def fetchedAck : MessageAck := ⟨[9], word 2, 4, signature⟩

def drainSigned : List (Bytes × Bytes) :=
  [(key 1, envelope.signedData Sample.codec), (key 2, fetchAll.signedData),
   (key 2, fetchedAck.signedData)]

/-- At the time `clock` user 1 sends user 2 a message. -/
def sentRun (clock : Nat) : Moves := .act (.tick clock 0) :: sendRun

/-- User 2 fetches it. -/
def fetchedRun (clock : Nat) : Moves :=
  sentRun clock ++ .spawn (.request (.fetchMessages fetchAll)) :: steps 3 6

/-- What user 2 gets. -/
def fetched (clock : Nat) : FetchMessagesResponse :=
  { messages := [envelope], timestamp := UInt64.ofNat (clock / 1000) }

/-- What has been verified. -/
def verified (done : Past) : List (Bytes × Bytes × Bytes) :=
  done.filterMap fun
    | ⟨.verify key message signature, true⟩ => some (key, message, signature)
    | _ => none

/-- The clock has not been read after `t`. -/
def readsUpTo (t : Nat) (done : Past) : Bool :=
  done.all fun
    | ⟨.clock, now⟩ => decide (now ≤ t)
    | _ => true

theorem did_of_verified {done : Past} {key message signature : Bytes}
    (h : (key, message, signature) ∈ verified done) :
    Did done (.verify key message signature) true := by
  obtain ⟨e, he, hview⟩ := List.mem_filterMap.mp h
  split at hview
  · cases hview
    exact he
  · exact nomatch hview

theorem fetches_fetchAll {clock : Nat} (hc : final drainSigned (sentRun clock) = some c)
    (hpool : (final drainSigned (sentRun clock)).map (fun c ↦ c.pool.length) = some 3)
    (hanswer : ((final drainSigned (fetchedRun clock)).bind fun c' ↦ c'.answered 3) =
      some (.request (.fetchMessages fetchAll), ⟨true, .fetchMessages (fetched clock), ""⟩))
    (hrun : (final drainSigned (fetchedRun clock)).map (fun c' ↦
      (verified (past 3 c'.trace), readsUpTo clock (past 3 c'.trace))) =
        some ([(key 2, fetchAll.signedData, fetchAll.dilithiumSignature)], true)) :
    ∃ c', Fetches Sample.codec (Sample.verify drainSigned) c fetchAll (fetched clock) c' ∧
      final drainSigned (fetchedRun clock) = some c' ∧
      ∀ now : Nat, Did (past c.pool.length c'.trace) .clock now → now ≤ clock := by
  obtain ⟨c₁, hc₁, hview⟩ := Option.map_eq_some_iff.mp hrun
  obtain ⟨hverified, hreads⟩ := Prod.mk.inj hview
  obtain ⟨c', hanswers, hc'⟩ := answers_of_oracles (.fetchMessages fetchAll)
    ⟨true, .fetchMessages (fetched clock), ""⟩ (List.replicate 6 .none) hc hpool
    (by rw [List.map_replicate]; exact hanswer)
  rw [List.map_replicate] at hc'
  obtain rfl : c₁ = c' := Option.some.inj (hc₁.symm.trans hc')
  have hlen : c.pool.length = 3 := by simpa [hc] using hpool
  refine ⟨c₁, ⟨hanswers, key 2, ?_⟩, hc₁, fun now hnow ↦ ?_⟩
  · rw [hlen]
    exact did_of_verified (hverified ▸ List.mem_singleton.mpr rfl)
  · rw [hlen] at hnow
    exact of_decide_eq_true (List.all_eq_true.mp hreads _ hnow)

end Sample

open Sample in
/-- The message that is stored at the epoch is on the page, but not counted. -/
theorem epoch_message_uncounted : ∃ c c', final drainSigned (sentRun 0) = some c ∧
    Fetches Sample.codec (Sample.verify drainSigned) c fetchAll (fetched 0) c' ∧
    ∀ now, ¬ Agrees Sample.codec c.world.db now fetchAll (fetched 0) := by
  have hsent : (final drainSigned (sentRun 0)).map (fun c ↦
      (c.pool.length, c.world.db.messages.map MessageModel.serverTimestamp)) = some (3, [0]) := by
    decide +kernel
  obtain ⟨c, hc, hview⟩ := Option.map_eq_some_iff.mp hsent
  obtain ⟨hpool, htimes⟩ := Prod.mk.inj hview
  obtain ⟨c', hfetches, -⟩ := fetches_fetchAll hc (by rw [hc]; exact congrArg some hpool)
    (by decide +kernel) (by decide +kernel)
  refine ⟨c, c', hc, hfetches, fun now hagrees ↦ ?_⟩
  obtain ⟨rows, hmessages, -, hpage⟩ := hagrees.page
  obtain ⟨x, hx, -⟩ : ∃ x ∈ rows, x.envelope Sample.codec = envelope :=
    List.mem_map.mp (hmessages ▸ List.mem_singleton.mpr rfl)
  obtain ⟨hx, -, -, hpos⟩ := mem_matching.mp (hpage.sound x hx)
  have hzero : x.serverTimestamp ∈ [(0 : Int64)] := htimes ▸ List.mem_map_of_mem hx
  rw [List.mem_singleton.mp hzero] at hpos
  exact absurd hpos (by decide)

open Sample in
/-- The message that is stored 5 s after the epoch is fetched, counted and acknowledged. -/
theorem fetch_and_drain_fetchedRun : ∃ c c' now,
    final drainSigned (sentRun 5000000) = some c ∧
    Agrees Sample.codec c.world.db now fetchAll (fetched 5000000) ∧
    Drain Sample.codec (Sample.verify drainSigned) (word 2) 5000000 c [fetched 5000000] c' ∧
    Emptied Sample.codec (word 2) 5000000 c [fetched 5000000] := by
  have hsent : (final drainSigned (sentRun 5000000)).map (fun c ↦
      (c.pool.length, c.world.db.messages.map MessageModel.serverTimestamp)) =
        some (3, [5000]) := by decide +kernel
  have hacked : ((final drainSigned (fetchedRun 5000000 ++
      .spawn (.request (.ackMessage fetchedAck)) :: steps 4 3)).bind fun c' ↦ c'.answered 4) =
        some (.request (.ackMessage fetchedAck), ⟨true, .empty, ""⟩) := by decide +kernel
  have hpool₁ : (final drainSigned (fetchedRun 5000000)).map (fun c ↦ c.pool.length) = some 4 := by
    decide +kernel
  obtain ⟨c, hc, hview⟩ := Option.map_eq_some_iff.mp hsent
  obtain ⟨hpool, htimes⟩ := Prod.mk.inj hview
  obtain ⟨c₁, hfetches, hc₁, htime⟩ := fetches_fetchAll hc
    (by rw [hc]; exact congrArg some hpool) (by decide +kernel) (by decide +kernel)
  obtain ⟨c', hanswers⟩ := answers_of_final (.ackMessage fetchedAck) _ 3 hc₁ hpool₁ hacked
  have hreach : Reachable Sample.codec (Sample.verify drainSigned) c := ⟨0, 0, _, hc⟩
  have hpositive (x : MessageModel) (hx : x ∈ c.world.db.messages) :
      0 < x.serverTimestamp.toInt := by
    have htime : x.serverTimestamp ∈ [(5000 : Int64)] := htimes ▸ List.mem_map_of_mem hx
    rw [List.mem_singleton.mp htime]
    decide
  have hlength : c.world.db.messages.length = 1 := by
    rw [← List.length_map MessageModel.serverTimestamp, htimes]
    rfl
  have hmodest : Modest (word 2) c := by
    refine ⟨fun x hx ↦ hpositive x hx.1, Nat.lt_of_le_of_lt (List.length_filter_le _ _) ?_⟩
    rw [hlength]
    decide
  have hdrain : Drain Sample.codec (Sample.verify drainSigned) (word 2) 5000000 c
      [fetched 5000000] c' := by
    refine .round rfl rfl hfetches (fun now hnow ↦ ?_) (.ack rfl rfl hanswers rfl (.nil c')) (.nil c')
    exact Int.ofNat_le.mpr (htime now hnow)
  obtain ⟨hfetch, hempty⟩ := fetch_and_drain hreach
  obtain ⟨now, -, hiff⟩ := hfetch _ _ _ hfetches (by decide)
  refine ⟨c, c', now, hc, hiff.mpr ⟨fun _ x hx _ _ ↦ hpositive x hx, ?_⟩, hdrain,
    hempty _ _ _ _ hmodest hdrain⟩
  have hshort : (matching c.world.db now fetchAll).length ≤ 1 :=
    (List.length_filter_le _ _).trans (Nat.le_of_eq hlength)
  omega

end ZenthDht
