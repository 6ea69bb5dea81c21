import ZenthDht.Data.Feed
import ZenthDht.Safety.Drain

/-!
# Following a mailbox

SEND_MESSAGE reads the server timestamp of a message before it inserts the row, and FETCH_MESSAGES
reads the timestamp of its response after it has loaded the page.  A client that polls with the
timestamp of the last complete response follows its mailbox as a `Feed`.  Where every message
arrives in time (`InTime`), each poll returns or counts all that there was when it began
(`no_message_lost`).
-/

namespace ZenthDht

open Conc Stmt

variable {codec : Codec} {verifyDetached : Bytes → Bytes → Bytes → Bool}
variable {c c' d d' : State} {m : Move Job Oracle Act} {ms : Moves} {u : Bytes}
variable {req : FetchMessagesRequest} {resp : FetchMessagesResponse} {cur : UInt64}
variable {ret : List ZenthSignalEnvelope} {x : MessageModel}

/-! ## The client -/

/-- What is asked of a move, given the cursor of the client and the poll under way: its thread and
its request. -/
abbrev Demand : Type := UInt64 → Option (Nat × FetchMessagesRequest) → State → State → Prop

/-- The clock is not set back, and no message of `u` goes away. -/
structure Undisturbed (u : Bytes) (d d' : State) : Prop where
  clock : d.world.clock ≤ d'.world.clock
  kept : inbox u d ⊆ inbox u d'

/-- The mailbox of `u` is left alone, and every move is as demanded. -/
def Meets (codec : Codec) (verifyDetached : Bytes → Bytes → Bytes → Bool) (u : Bytes) (D : Demand)
    (cur : UInt64) (poll : Option (Nat × FetchMessagesRequest)) : State → Moves → Prop :=
  (server codec verifyDetached).Along fun d m ↦
    ∀ d', (server codec verifyDetached).next d m = some d' → Undisturbed u d d' ∧ D cur poll d d'

/-- An authenticated poll of `u` with the cursor `cur`, from the moment before it is received to the
moment of its answer. -/
structure Polls (codec : Codec) (verifyDetached : Bytes → Bytes → Bytes → Bool) (u : Bytes)
    (D : Demand) (c : State) (cur : UInt64) (req : FetchMessagesRequest)
    (resp : FetchMessagesResponse) (c' : State) : Prop where
  user : req.userHash = u
  since : req.sinceTimestamp = cur
  run : ∃ ms d ω, (server codec verifyDetached).run c
      (.spawn (.request (.fetchMessages req)) :: ms) = some d ∧
    Meets codec verifyDetached u D cur (some (c.pool.length, req)) c
      (.spawn (.request (.fetchMessages req)) :: ms) ∧
    (server codec verifyDetached).next d (.step c.pool.length ω) = some c'
  answered : c'.answered c.pool.length =
    some (.request (.fetchMessages req), ⟨true, .fetchMessages resp, ""⟩)
  signed : ∃ key, Did (past c.pool.length c'.trace)
    (.verify key req.signedData req.dilithiumSignature) true

/-- The client of `u` has polled its mailbox, from the start of the server on: its cursor is the
timestamp of the last response that left nothing, and `ret` is all that was returned. -/
inductive Following (codec : Codec) (verifyDetached : Bytes → Bytes → Bytes → Bool) (u : Bytes)
    (D : Demand) : State → UInt64 → List ZenthSignalEnvelope → Prop
  | start (clock instant : Nat) : Following codec verifyDetached u D
      (.start (.initial clock instant)) 0 []
  | idle {c c' : State} {cur : UInt64} {ret : List ZenthSignalEnvelope} {ms : Moves}
      (h : Following codec verifyDetached u D c cur ret)
      (hrun : (server codec verifyDetached).run c ms = some c')
      (hmeets : Meets codec verifyDetached u D cur none c ms) :
      Following codec verifyDetached u D c' cur ret
  | poll {c c' : State} {cur : UInt64} {ret : List ZenthSignalEnvelope}
      {req : FetchMessagesRequest} {resp : FetchMessagesResponse}
      (h : Following codec verifyDetached u D c cur ret)
      (hpoll : Polls codec verifyDetached u D c cur req resp c') :
      Following codec verifyDetached u D c'
        (if resp.remainingCount = 0 then resp.timestamp else cur) (ret ++ resp.messages)

/-- The messages there were for `u` and that have not expired have been returned, or are counted
among the remaining ones. -/
def Accounted (codec : Codec) (u : Bytes) (c : State) (now : NaiveDateTime)
    (ret : List ZenthSignalEnvelope) (resp : FetchMessagesResponse) : Prop :=
  (c.world.db.messages.filter fun x ↦ x.recipientHashId = u ∧ now < x.expiresAt ∧
    x.envelope codec ∉ ret ++ resp.messages).length ≤ resp.remainingCount.toNat

/-! ## Arriving in time -/

/-- The messages a poll counts. -/
def FetchMessagesRequest.pending (req : FetchMessagesRequest) (now : NaiveDateTime) (d : State) :
    List MessageModel :=
  d.world.db.messages.filter (selectsMessage req.userHash (some req.sinceTimestamp.toInt64) now)

/-- In the state `d` a message may arrive: it is beyond the cursor; if a poll has counted, it finds
room on the page or comes after a full page while others remain; and if a poll has loaded a page,
others remain. -/
structure Arrives (cur : UInt64) (poll : Option (Nat × FetchMessagesRequest)) (d : State)
    (x : MessageModel) : Prop where
  positive : 0 < x.serverTimestamp.toInt
  beyond : cur.toInt64.toInt < x.serverTimestamp.toInt ∨ x.expiresAt ≤ d.world.clock
  counted : ∀ t req user now total, poll = some (t, req) →
    past t d.trace = req.countedPast user now total →
    cur.toInt64.toInt < x.serverTimestamp.toInt → now < x.expiresAt →
      (req.pending now d).length < req.effectiveLimit ∨ req.effectiveLimit < total ∧
        req.effectiveLimit ≤ ((req.pending now d).filter fun y ↦
          y.serverTimestamp.toInt < x.serverTimestamp.toInt).length
  loaded : ∀ t req user now total rows, poll = some (t, req) →
    past t d.trace = req.loadedPast user now total rows → total ≤ rows.length →
      x.expiresAt ≤ d.world.clock

/-- Every message of `u` arrives in time, and a `u32` counts them. -/
structure InTime (u : Bytes) (cur : UInt64) (poll : Option (Nat × FetchMessagesRequest))
    (d d' : State) : Prop where
  arrives : ∀ x ∈ inbox u d', x ∉ inbox u d → Arrives cur poll d x
  short : (d'.world.db.messages.filter fun x ↦ x.recipientHashId = u).length < 2 ^ 32

/-! ## The mailbox as a feed -/

/-- The messages of a user. -/
def mail (u : Bytes) (d : State) : Finset MessageModel :=
  (d.world.db.messages.filter fun x ↦ x.recipientHashId = u).toFinset

/-- The stamp the client goes by. -/
def MessageModel.stamp (x : MessageModel) : Int := x.serverTimestamp.toInt

theorem mem_mail : x ∈ mail u d ↔ x ∈ inbox u d := by
  rw [mail, List.mem_toFinset]
  exact mem_inbox_list

/-- The feed shows the mailbox of `u` and what its client knows. -/
structure Shows (codec : Codec) (u : Bytes) (s : Feed MessageModel) (d : State) (cur : UInt64)
    (ret : List ZenthSignalEnvelope) : Prop where
  items : s.items = mail u d
  clock : s.clock = d.world.clock
  cursor : s.cursor = cur.toInt64.toInt
  returned : ∀ x ∈ s.returned, x.envelope codec ∈ ret

/-- How far the poll has come after `n` of its operations. -/
def FetchMessagesRequest.PhaseAt (req : FetchMessagesRequest) (old : Finset MessageModel)
    (now total : Nat) (rows : List MessageModel) : Nat → Phase MessageModel → Prop
  | 0, p | 1, p | 2, p => p = .begun req.effectiveLimit old
  | 3, p => p = .timed req.effectiveLimit old now
  | 4, p => ∃ found : Finset MessageModel, (found.card = total ∧ total < 2 ^ 32) ∧
      p = .counted req.effectiveLimit old now found
  | 5, p => p = .loaded old now total rows.toFinset ∧ rows.Nodup ∧ total < 2 ^ 32
  | _, _ => False

abbrev FeedStep : Polled MessageModel → Polled MessageModel → Prop :=
  Polled.Step MessageModel.stamp MessageModel.expiresAt

theorem mem_pending {now : NaiveDateTime} (hu : req.userHash = u) :
    x ∈ req.pending now d ↔
      x ∈ inbox u d ∧ req.sinceTimestamp.toInt64.toInt < x.stamp ∧ now < x.expiresAt := by
  subst hu
  simp only [FetchMessagesRequest.pending, selectsMessage, after, inbox, MessageModel.stamp,
    List.mem_filter, Bool.and_eq_true, decide_eq_true_eq, Set.mem_ofPred_eq, Int64.lt_iff_toInt_lt]
  tauto

theorem Shows.due {s : Feed MessageModel} {now : NaiveDateTime} (h : Shows codec u s d cur ret)
    (hu : req.userHash = u) (hsince : req.sinceTimestamp = cur) :
    s.due MessageModel.stamp MessageModel.expiresAt now = (req.pending now d).toFinset := by
  ext x
  rw [Feed.mem_due, List.mem_toFinset, mem_pending hu, h.items, h.cursor, mem_mail, hsince]

/-- A move adds one message to the mailbox, or none. -/
theorem Step.mail (hs : (server codec verifyDetached).Step d m d') (hkept : inbox u d ⊆ inbox u d') :
    mail u d' = mail u d ∨ ∃ x, x ∈ inbox u d' ∧ x ∉ inbox u d ∧
      mail u d' = insert x (mail u d) := by
  by_cases hnew : inbox u d' ⊆ inbox u d
  · left
    ext x
    rw [mem_mail, mem_mail]
    exact ⟨fun hx ↦ hnew hx, fun hx ↦ hkept hx⟩
  obtain ⟨x, hx, hxd⟩ := Set.not_subset.mp hnew
  refine .inr ⟨x, hx, hxd, ?_⟩
  rcases Step.db hs with hsame | ⟨t, job, s, he⟩
  · exact absurd ⟨hsame.messages.mem_iff.mpr hx.1, hx.2⟩ hxd
  have horigin {y : MessageModel} (hy : y ∈ inbox u d') : y ∈ inbox u d ∨
      ∃ n, s = .insertMessage n ∧ y = n.row d.world.db.seq.messages d.world.clock := by
    obtain ⟨hy, hu⟩ := hy
    rw [he.db] at hy
    exact (mem_messages_exec hy).imp_left fun hy ↦ ⟨hy, hu⟩
  obtain ⟨n, rfl, rfl⟩ := (horigin hx).resolve_left hxd
  ext y
  rw [Finset.mem_insert, mem_mail, mem_mail]
  constructor
  · intro hy
    rcases horigin hy with hy | ⟨n', hn, rfl⟩
    · exact .inr hy
    · obtain rfl := Stmt.insertMessage.inj hn
      exact .inl rfl
  · rintro (rfl | hy)
    · exact hx
    · exact hkept hy

theorem Reachable.nodup_pending (h : Reachable codec verifyDetached d) {now : NaiveDateTime} :
    (req.pending now d).Nodup := h.nodup_messageIds.of_map.filter _

section

variable {s : Polled MessageModel} {t : Nat} {user : User} {now total ts : Nat}
variable {rows : List MessageModel} {old : Finset MessageModel} {n : Nat}

theorem FetchMessagesRequest.PhaseAt.counted {limit : Nat} {old' found : Finset MessageModel}
    {now' : Int} (h : req.PhaseAt old now total rows n (.counted limit old' now' found)) :
    n = 4 ∧ limit = req.effectiveLimit ∧ now' = now ∧ found.card = total := by
  match n, h with
  | 4, ⟨found', ⟨hcard, _⟩, hphase⟩ =>
      obtain ⟨rfl, rfl, rfl, rfl⟩ := Phase.counted.inj hphase
      exact ⟨rfl, rfl, rfl, hcard⟩
  | 5, ⟨hphase, _⟩ => exact nomatch hphase
  | n + 6, h => exact h.elim

theorem FetchMessagesRequest.PhaseAt.loaded {old' page : Finset MessageModel} {now' : Int}
    {total' : Nat} (h : req.PhaseAt old now total rows n (.loaded old' now' total' page)) :
    n = 5 ∧ total' = total ∧ page.card = rows.length := by
  match n, h with
  | 5, ⟨hphase, hnodup, _⟩ =>
      obtain ⟨rfl, rfl, rfl, rfl⟩ := Phase.loaded.inj hphase
      exact ⟨rfl, rfl, List.toFinset_card_of_nodup hnodup⟩
  | 4, ⟨_, _, hphase⟩ => exact nomatch hphase
  | n + 6, h => exact h.elim

/-- What arrives in time is timely for the feed. -/
theorem Arrives.timely (hshows : Shows codec u s.toFeed d cur ret)
    (hd : Reachable codec verifyDetached d) (hu : req.userHash = u) (hsince : req.sinceTimestamp = cur)
    (hpast : past t d.trace <+: req.loadedPast user now total rows)
    (hphase : req.PhaseAt old now total rows (past t d.trace).length s.phase)
    (hx : Arrives cur (some (t, req)) d x) :
    s.Timely MessageModel.stamp MessageModel.expiresAt x := by
  have htake := List.prefix_iff_eq_take.mp hpast
  refine ⟨hx.positive, by rw [hshows.cursor, hshows.clock]; exact hx.beyond, ?_, ?_⟩
  · intro limit old' now' found hcounted hbeyond hnow
    rw [hcounted] at hphase
    obtain ⟨hlength, rfl, rfl, rfl⟩ := hphase.counted
    rw [hlength] at htake
    rw [hshows.cursor] at hbeyond
    have hbehind : ((req.pending now d).toFinset.filter fun y ↦ y.stamp < x.stamp).card =
        ((req.pending now d).filter fun y ↦
          y.serverTimestamp.toInt < x.serverTimestamp.toInt).length := by
      rw [← List.toFinset_card_of_nodup (hd.nodup_pending.filter _)]
      congr 1
      ext y
      rw [Finset.mem_filter, List.mem_toFinset, List.mem_toFinset, List.mem_filter,
        decide_eq_true_eq]
      exact Iff.rfl
    rw [hshows.due hu hsince, List.toFinset_card_of_nodup hd.nodup_pending, hbehind]
    exact hx.counted t req user now _ rfl htake hbeyond hnow
  · intro old' now' total' page hloaded hcomplete
    rw [hloaded] at hphase
    obtain ⟨hlength, rfl, hcard⟩ := hphase.loaded
    rw [hlength] at htake
    rw [hcard] at hcomplete
    rw [hshows.clock]
    exact hx.loaded t req user now _ rows rfl htake hcomplete

/-- Whatever a move does, the feed follows. -/
theorem Shows.move (hshows : Shows codec u s.toFeed d cur ret)
    (hs : (server codec verifyDetached).Step d m d') (hund : Undisturbed u d d')
    (htimely : ∀ x ∈ inbox u d', x ∉ inbox u d →
      s.Timely MessageModel.stamp MessageModel.expiresAt x) :
    ∃ s', Relation.ReflTransGen FeedStep s s' ∧ s'.phase = s.phase ∧
      Shows codec u s'.toFeed d' cur ret := by
  have hclock : s.clock ≤ d'.world.clock := by
    rw [hshows.clock]
    exact Int.ofNat_le.mpr hund.clock
  rcases Step.mail hs hund.kept with hsame | ⟨x, hx, hnew, hinsert⟩
  · refine ⟨{ s with clock := d'.world.clock }, .single (.tick s hclock), rfl, ?_⟩
    exact ⟨hshows.items.trans hsame.symm, rfl, hshows.cursor, hshows.returned⟩
  · refine ⟨{ s with items := insert x s.items, clock := d'.world.clock },
      .tail (.single (.add s (htimely x hx hnew))) (.tick _ hclock), rfl, ?_⟩
    refine ⟨?_, rfl, hshows.cursor, hshows.returned⟩
    rw [hinsert, ← hshows.items]

/-- A successful count has found what is pending. -/
theorem total_of_count {ω : Oracle} {w : World} {now : NaiveDateTime} {total : Nat}
    (hp : perform verifyDetached (.sql (.countMessages req.userHash req.sinceTimestamp.toInt64 now))
      ω d.world = some (.ok total, w)) :
    w.db = d.world.db ∧ total = (req.pending now d).length := by
  rcases perform_sql hp with ⟨-, e, he⟩ | ⟨hr, rfl⟩
  · exact nomatch he
  · refine ⟨rfl, ?_⟩
    obtain rfl := Except.ok.inj hr
    exact List.countP_eq_length_filter

/-- A successful load has found a page of what is pending, if every message has a positive stamp. -/
theorem page_of_load {ω : Oracle} {w : World} {now : NaiveDateTime} {rows : List MessageModel}
    (hd : Reachable codec verifyDetached d) (hu : req.userHash = u)
    (hp : perform verifyDetached (.sql (.loadMessages req.userHash req.loadSince now
      req.effectiveLimit)) ω d.world = some (.ok rows, w)) :
    w.db = d.world.db ∧ ((∀ x ∈ inbox u d, 0 < x.stamp) →
      IsPage MessageModel.stamp (· ∈ req.pending now d) req.effectiveLimit rows) := by
  rcases perform_sql hp with ⟨-, e, he⟩ | ⟨hr, rfl⟩
  · cases he
  refine ⟨rfl, fun hpositive ↦ ?_⟩
  obtain rfl := Except.ok.inj hr
  have hpage : IsPage MessageModel.stamp (fun x ↦ x ∈ d.world.db.messages ∧
      selectsMessage req.userHash req.loadSince now x = true) req.effectiveLimit
      (((d.world.db.messages.filter (selectsMessage req.userHash req.loadSince now)).insertionSort
        fun x y ↦ x.stamp ≤ y.stamp).take req.effectiveLimit) :=
    IsPage.of_take hd.nodup_messageIds.of_map
  simp only [Int64.le_iff_toInt_le]
  refine hpage.congr fun x ↦ ?_
  rw [mem_pending hu, inbox, Set.mem_ofPred_eq, and_assoc]
  refine and_congr_right fun hx ↦ ?_
  -- without a lower bound the load selects what is beyond 0
  subst hu
  unfold FetchMessagesRequest.loadSince
  split
  next =>
    simp [selectsMessage, after, MessageModel.stamp, Int64.lt_iff_toInt_lt]
    tauto
  next hzero =>
    have hzero : req.sinceTimestamp = 0 := by simpa using hzero
    simp only [selectsMessage, after, hzero, Bool.and_true, Bool.and_eq_true, decide_eq_true_eq]
    constructor
    · rintro ⟨hu, hnow⟩
      exact ⟨hu, hpositive x ⟨hx, hu⟩, hnow⟩
    · rintro ⟨hu, -, hnow⟩
      exact ⟨hu, hnow⟩

/-- The next operation of the poll, which the feed has just followed. -/
theorem FetchMessagesRequest.PhaseAt.next {o : Op} {r : Res o} {ω : Oracle}
    (h : req.PhaseAt old now total rows n s.phase)
    (hnth : (req.loadedPast user now total rows)[n]? = some ⟨o, r⟩)
    (hp : perform verifyDetached o ω d.world = some (r, d'.world))
    (hd : Reachable codec verifyDetached d) (hshows : Shows codec u s.toFeed d' cur ret)
    (hu : req.userHash = u) (hsince : req.sinceTimestamp = cur)
    (hpositive : ∀ x ∈ s.items, 0 < x.stamp)
    (hshort : (d'.world.db.messages.filter fun x ↦ x.recipientHashId = u).length < 2 ^ 32) :
    ∃ s', Relation.ReflTransGen FeedStep s s' ∧ s'.toFeed = s.toFeed ∧
      req.PhaseAt old now total rows (n + 1) s'.phase := by
  have hsame (hdb : d'.world.db = d.world.db) (now : NaiveDateTime) :
      s.due MessageModel.stamp MessageModel.expiresAt now = (req.pending now d).toFinset := by
    rw [hshows.due hu hsince, pending, pending, hdb]
  rcases n with _ | _ | _ | _ | _ | n
  · exact ⟨s, .refl, rfl, h⟩
  · exact ⟨s, .refl, rfl, h⟩
  · -- the clock
    cases hnth
    obtain ⟨rfl, hw⟩ := Prod.mk.inj (Option.some.inj hp)
    refine ⟨{ s with phase := .timed req.effectiveLimit old s.clock }, .single (.read s h), rfl, ?_⟩
    rw [hshows.clock, ← hw]
    rfl
  · -- the count
    cases hnth
    obtain ⟨hdb, rfl⟩ := total_of_count hp
    refine ⟨_, .single (.count s h), rfl, _, ⟨?_, Nat.lt_of_le_of_lt ?_ hshort⟩, rfl⟩
    · rw [hsame hdb, List.toFinset_card_of_nodup hd.nodup_pending]
    · rw [hdb]
      refine (List.Nodup.subperm hd.nodup_pending fun x hx ↦ ?_).length_le
      exact mem_inbox_list.mpr ((mem_pending hu).mp hx).1
  · -- the page
    cases hnth
    obtain ⟨found, hfound, hphase⟩ := h
    obtain ⟨hdb, hload⟩ := page_of_load hd hu hp
    have hpage := hload fun x hx ↦ hpositive x (by
      rw [hshows.items, mem_mail, inbox, hdb]
      exact hx)
    have hdue : IsPage MessageModel.stamp
        (· ∈ s.due MessageModel.stamp MessageModel.expiresAt now) req.effectiveLimit rows :=
      hpage.congr fun x ↦ by rw [hsame hdb, List.mem_toFinset]
    refine ⟨_, .single (.load s hphase hdue), rfl, ?_, hpage.nodup, hfound.2⟩
    rw [hfound.1]
  · cases hnth

/-- In its own step a thread performs one operation, and in other steps none. -/
theorem Step.past_cases (hs : (server codec verifyDetached).Step d m d') (t : Nat) :
    past t d'.trace = past t d.trace ∨ ∃ o, ∃ r : Res o, ∃ ω,
      past t d'.trace = past t d.trace ++ [⟨o, r⟩] ∧
      perform verifyDetached o ω d.world = some (r, d'.world) := by
  cases hs with
  | spawn j => exact .inl rfl
  | act ha => exact .inl rfl
  | @step t' ω j o k r w ht hp =>
      by_cases e : t' = t
      · subst e
        exact .inr ⟨o, r, ω, by simp, hp⟩
      · exact .inl (by simp [past_singleton_ne e])

/-- How far the feed has come with a poll whose last operations are known. -/
structure Mirrored (codec : Codec) (u : Bytes) (req : FetchMessagesRequest) (cur : UInt64)
    (ret : List ZenthSignalEnvelope) (old : Finset MessageModel) (now total : Nat)
    (rows : List MessageModel) (done : Past) (d : State) (s : Polled MessageModel) : Prop where
  sound : s.Sound MessageModel.stamp MessageModel.expiresAt
  shows : Shows codec u s.toFeed d cur ret
  phase : req.PhaseAt old now total rows done.length s.phase

theorem Mirrored.move (h : Mirrored codec u req cur ret old now total rows (past t d.trace) d s)
    (hd : Reachable codec verifyDetached d) (hu : req.userHash = u)
    (hsince : req.sinceTimestamp = cur) (hs : (server codec verifyDetached).Step d m d')
    (hund : Undisturbed u d d') (hin : InTime u cur (some (t, req)) d d')
    (hpast : past t d'.trace <+: req.loadedPast user now total rows) :
    ∃ s', Mirrored codec u req cur ret old now total rows (past t d'.trace) d' s' := by
  have hbefore : past t d.trace <+: req.loadedPast user now total rows := by
    rcases Step.past_cases hs t with hsame | ⟨o, r, ω, hown, -⟩
    · rwa [← hsame]
    · exact (List.prefix_append _ _).trans (hown ▸ hpast)
  obtain ⟨s₁, hsteps, hphase, hshows⟩ := h.shows.move hs hund fun x hx hnew ↦
    (hin.arrives x hx hnew).timely h.shows hd hu hsince hbefore h.phase
  have hsound := h.sound.steps hsteps
  rcases Step.past_cases hs t with hsame | ⟨o, r, ω, hown, hp⟩
  · exact ⟨s₁, hsound, hshows, by rw [hsame, hphase]; exact h.phase⟩
  · have hnth : (req.loadedPast user now total rows)[(past t d.trace).length]? = some ⟨o, r⟩ := by
      obtain ⟨rest, hrest⟩ := hpast
      rw [← hrest, hown, List.append_assoc, List.getElem?_append_right le_rfl, Nat.sub_self]
      rfl
    obtain ⟨s', hsteps', hfeed, hphase'⟩ := FetchMessagesRequest.PhaseAt.next (s := s₁)
      (hphase ▸ h.phase) hnth hp hd hshows hu hsince hsound.positive hin.short
    refine ⟨s', hsound.steps hsteps', hfeed ▸ hshows, ?_⟩
    rw [hown, List.length_append]
    exact hphase'

end

/-- The invariant of a client that follows its mailbox. -/
structure CaughtUp (codec : Codec) (verifyDetached : Bytes → Bytes → Bytes → Bool) (u : Bytes)
    (c : State) (cur : UInt64) (ret : List ZenthSignalEnvelope) (s : Polled MessageModel) :
    Prop where
  reachable : Reachable codec verifyDetached c
  sound : s.Sound MessageModel.stamp MessageModel.expiresAt
  shows : Shows codec u s.toFeed c cur ret
  idle : s.phase = .idle

theorem CaughtUp.move {s : Polled MessageModel} (h : CaughtUp codec verifyDetached u d cur ret s)
    (hs : (server codec verifyDetached).Step d m d') (hund : Undisturbed u d d')
    (hin : InTime u cur none d d') : ∃ s', CaughtUp codec verifyDetached u d' cur ret s' := by
  obtain ⟨s', hsteps, hphase, hshows⟩ := h.shows.move hs hund fun x hx hnew ↦ by
    have hx := hin.arrives x hx hnew
    refine ⟨hx.positive, ?_, fun _ _ _ _ hcounted ↦ ?_, fun _ _ _ _ hloaded ↦ ?_⟩
    · rw [h.shows.cursor, h.shows.clock]
      exact hx.beyond
    · exact nomatch h.idle.symm.trans hcounted
    · exact nomatch h.idle.symm.trans hloaded
  exact ⟨s', h.reachable.run (hs.run_cons Machine.run_nil), h.sound.steps hsteps, hshows,
    hphase.trans h.idle⟩

theorem CaughtUp.idles {s : Polled MessageModel} (h : CaughtUp codec verifyDetached u c cur ret s)
    (hrun : (server codec verifyDetached).run c ms = some c')
    (hmeets : Meets codec verifyDetached u (InTime u) cur none c ms) :
    ∃ s', CaughtUp codec verifyDetached u c' cur ret s' := by
  refine Machine.Along.invariant (I := fun d ↦ ∃ s', CaughtUp codec verifyDetached u d cur ret s')
    ?_ hmeets hrun ⟨s, h⟩
  rintro d m d' ⟨s', h⟩ hd hs
  obtain ⟨hund, hin⟩ := hd d' hs.next
  exact h.move hs hund hin

/-- Up to its last operation, the feed follows a poll. -/
theorem CaughtUp.mirrored {s : Polled MessageModel} {user : User} {now total : Nat}
    {rows : List MessageModel} (h : CaughtUp codec verifyDetached u c cur ret s)
    (hu : req.userHash = u) (hsince : req.sinceTimestamp = cur)
    (hrun : (server codec verifyDetached).run c ms = some d)
    (hmeets : Meets codec verifyDetached u (InTime u) cur (some (c.pool.length, req)) c ms)
    (hpast : past c.pool.length d.trace <+: req.loadedPast user now total rows) :
    ∃ s', Mirrored codec u req cur ret (mail u c) now total rows (past c.pool.length d.trace) d
      s' := by
  refine (Machine.Along.invariant (I := fun d ↦ Reachable codec verifyDetached d ∧
    (past c.pool.length d.trace <+: req.loadedPast user now total rows →
      ∃ s', Mirrored codec u req cur ret (mail u c) now total rows (past c.pool.length d.trace) d
        s')) ?_ hmeets hrun ⟨h.reachable, fun _ ↦ ?_⟩).2 hpast
  · rintro e m e' ⟨he, hI⟩ hmove hs
    obtain ⟨hund, hin⟩ := hmove e' hs.next
    refine ⟨he.run (hs.run_cons Machine.run_nil), fun hprefix ↦ ?_⟩
    obtain ⟨ext, hext⟩ := Machine.trace_of_run (hs.run_cons Machine.run_nil)
    have hgrows : past c.pool.length e.trace <+: past c.pool.length e'.trace := by
      rw [hext, past_append]
      exact List.prefix_append _ _
    obtain ⟨s', hs'⟩ := hI (hgrows.trans hprefix)
    exact hs'.move he hu hsince hs hund hin hprefix
  · refine ⟨{ s with phase := .begun req.effectiveLimit s.items }, h.sound.start _, h.shows, ?_⟩
    rw [h.reachable.no_past, h.shows.items]
    rfl

/-- A poll that is answered has taken all its steps, and reads the clock in the last of them. -/
theorem Polls.last {D : Demand} (hpoll : Polls codec verifyDetached u D c cur req resp c')
    (hc : Reachable codec verifyDetached c) :
    ∃ ms d user now total rows, (server codec verifyDetached).run c ms = some d ∧
      Meets codec verifyDetached u D cur (some (c.pool.length, req)) c ms ∧
      past c.pool.length d.trace = req.loadedPast user now total rows ∧ c'.world = d.world ∧
      past c.pool.length c'.trace = req.answeredPast user now total rows d.world.clock ∧
      resp = FetchMessagesRequest.response total rows d.world.clock codec := by
  obtain ⟨ms, d, ω, hrun, hmeets, hlast⟩ := hpoll.run
  have hc' := (hc.run hrun).run (Machine.run_cons.mpr ⟨c', hlast, Machine.run_nil⟩)
  obtain ⟨key, hsigned⟩ := hpoll.signed
  rcases hc'.request_answer (fetchMessages_done req) hpoll.answered with
    hfail | hunsigned | ⟨user, now, total, rows, ts, hpast, hreply⟩
  · exact nomatch hfail
  · exact absurd hsigned (hunsigned _ _ _)
  obtain rfl : resp = FetchMessagesRequest.response total rows ts codec :=
    Payload.fetchMessages.inj (congrArg Reply.payload hreply)
  cases Machine.step_of_next hlast with
  | @step _ _ j o k r w ht hp =>
      have hsplit : past c.pool.length d.trace ++ [⟨o, r⟩] =
          req.answeredPast user now total rows ts := by
        rw [← hpast]
        simp
      obtain ⟨hloaded, he⟩ := List.append_inj' hsplit rfl
      cases he
      obtain ⟨rfl, rfl⟩ := Prod.mk.inj (Option.some.inj hp)
      exact ⟨_, d, user, now, total, rows, hrun, hmeets, hloaded, rfl, hpast, rfl⟩

/-- What a poll has made of the feed when it is answered. -/
structure Answered (codec : Codec) (u : Bytes) (c c' : State) (cur : UInt64)
    (ret : List ZenthSignalEnvelope) (resp : FetchMessagesResponse) (s : Polled MessageModel) :
    Prop where
  sound : s.Sound MessageModel.stamp MessageModel.expiresAt
  shows : Shows codec u s.toFeed c' (if resp.remainingCount = 0 then resp.timestamp else cur)
    (ret ++ resp.messages)
  phase : ∃ now : Nat, s.phase = .answered (mail u c) now resp.remainingCount.toNat ∧
    ∀ now' : Nat, Did (past c.pool.length c'.trace) .clock now' → now ≤ now'

theorem CaughtUp.polls {s : Polled MessageModel} (h : CaughtUp codec verifyDetached u c cur ret s)
    (hpoll : Polls codec verifyDetached u (InTime u) c cur req resp c') :
    ∃ s', Answered codec u c c' cur ret resp s' := by
  obtain ⟨ms, d, user, now, total, rows, hrun, hmeets, hloaded, hworld, hpast, rfl⟩ :=
    hpoll.last h.reachable
  have hprefix : past c.pool.length d.trace <+: req.loadedPast user now total rows := by
    rw [hloaded]
  obtain ⟨s', hsound, hshows, hphase⟩ := h.mirrored hpoll.user hpoll.since hrun hmeets hprefix
  rw [hloaded] at hphase
  obtain ⟨hphase, hnodup, hshort⟩ := hphase
  have hnow : (now : Int) ≤ d.world.clock := by
    have hloaded := hsound.phase
    rw [hphase] at hloaded
    exact hshows.clock ▸ hloaded.now_le
  have hcard := List.toFinset_card_of_nodup hnodup
  have hremaining : (UInt32.ofNat (total - rows.length)).toNat = total - rows.length := by
    rw [UInt32.toNat_ofNat']
    omega
  have hcomplete : total ≤ rows.length ↔ UInt32.ofNat (total - rows.length) = 0 := by
    rw [← UInt32.toNat_inj, hremaining, UInt32.toNat_zero, Nat.sub_eq_zero_iff_le]
  refine ⟨_, hsound.answer hphase ((toMillis d.world.clock).toUInt64.toInt64.toInt),
    ⟨?_, ?_, ?_, fun x hx ↦ ?_⟩, now, ?_, fun now' hnow' ↦ ?_⟩
  · rw [hshows.items, mail, mail, hworld]
  · rw [hworld]
    exact hshows.clock
  · show (if total ≤ rows.toFinset.card then (toMillis d.world.clock).toUInt64.toInt64.toInt
      else s'.cursor) = (if UInt32.ofNat (total - rows.length) = 0 then
        (toMillis d.world.clock).toUInt64 else cur).toInt64.toInt
    rw [hcard]
    by_cases hall : total ≤ rows.length
    · rw [if_pos hall, if_pos (hcomplete.mp hall)]
    · rw [if_neg hall, if_neg (hcomplete.not.mp hall)]
      exact hshows.cursor
  · rcases Finset.mem_union.mp hx with hx | hx
    · exact List.mem_append_left _ (hshows.returned x hx)
    · exact List.mem_append_right _ (List.mem_map_of_mem (List.mem_toFinset.mp hx))
  · show Phase.answered (mail u c) now (total - rows.toFinset.card) = _
    rw [hcard]
    exact congrArg _ hremaining.symm
  · rw [hpast] at hnow'
    have hreads : now' = now ∨ now' = d.world.clock := by
      simpa [Did, FetchMessagesRequest.answeredPast, FetchMessagesRequest.loadedPast,
        FetchMessagesRequest.countedPast, FetchMessagesRequest.timedPast,
        FetchMessagesRequest.signedPast] using hnow'
    omega

/-- A client that follows its mailbox does so as the feed does. -/
theorem Following.caughtUp (h : Following codec verifyDetached u (InTime u) c cur ret) :
    ∃ s, CaughtUp codec verifyDetached u c cur ret s := by
  induction h with
  | start clock instant =>
      refine ⟨⟨⟨∅, clock, 0, ∅⟩, .idle⟩, ⟨clock, instant, [], rfl⟩, ⟨?_, ?_, trivial⟩,
        ⟨rfl, rfl, rfl, ?_⟩, rfl⟩
      · exact fun x hx ↦ absurd hx (Finset.notMem_empty x)
      · exact fun x hx ↦ absurd hx (Finset.notMem_empty x)
      · exact fun x hx ↦ absurd hx (Finset.notMem_empty x)
  | idle _ hrun hmeets ih =>
      obtain ⟨s, hs⟩ := ih
      exact hs.idles hrun hmeets
  | @poll c c' cur ret req resp _ hpoll ih =>
      obtain ⟨s, hs⟩ := ih
      obtain ⟨s', hs'⟩ := hs.polls hpoll
      obtain ⟨ms, d, ω, hrun, -, hlast⟩ := hpoll.run
      refine ⟨{ s' with phase := .idle }, ?_, (Polled.Step.finish s').sound hs'.sound, hs'.shows, rfl⟩
      exact (hs.reachable.run hrun).run (Machine.run_cons.mpr ⟨c', hlast, Machine.run_nil⟩)

/-- **Polling.**  If every message arrives in time, a poll of a client that follows its mailbox
accounts for all the messages there were when it began. -/
theorem no_message_lost (h : Following codec verifyDetached u (InTime u) c cur ret)
    (hpoll : Polls codec verifyDetached u (InTime u) c cur req resp c') (now : Nat)
    (hnow : Did (past c.pool.length c'.trace) .clock now) : Accounted codec u c now ret resp := by
  obtain ⟨s, hs⟩ := h.caughtUp
  obtain ⟨s', hs'⟩ := hs.polls hpoll
  obtain ⟨now₀, hphase, hfirst⟩ := hs'.phase
  have haccounts := hs'.sound.phase
  rw [hphase] at haccounts
  have hnodup : c.world.db.messages.Nodup := hs.reachable.nodup_messageIds.of_map
  unfold Accounted
  rw [← List.toFinset_card_of_nodup (hnodup.filter _)]
  refine (Finset.card_le_card fun x hx ↦ ?_).trans haccounts
  obtain ⟨hx, hfilter⟩ := List.mem_filter.mp (List.mem_toFinset.mp hx)
  obtain ⟨hu, hexp, hnot⟩ := of_decide_eq_true hfilter
  refine Finset.mem_filter.mpr ⟨mem_mail.mpr ⟨hx, hu⟩, ?_, ?_⟩
  · exact (Int.ofNat_le.mpr (hfirst now hnow)).trans_lt hexp
  · rw [Finset.union_empty]
    exact fun hret ↦ hnot (hs'.shows.returned x hret)

namespace Sample

/-- The clock goes on, the messages stay, and there are a few more that satisfy `p`. -/
def Adds (signed : List (Bytes × Bytes)) (p : MessageModel → Bool) (d : State)
    (m : Move Job Oracle Act) : Prop :=
  ∀ d' ∈ (system signed).next d m, d.world.clock ≤ d'.world.clock ∧
    (∀ x ∈ d.world.db.messages, x ∈ d'.world.db.messages) ∧
    (∀ x ∈ d'.world.db.messages, x ∈ d.world.db.messages ∨ p x = true) ∧
    d'.world.db.messages.length < 2 ^ 32

instance {signed : List (Bytes × Bytes)} {p : MessageModel → Bool} (d : State)
    (m : Move Job Oracle Act) : Decidable (Adds signed p d m) := by
  unfold Adds
  infer_instance

theorem meets_of_adds {signed : List (Bytes × Bytes)} {p : MessageModel → Bool} {D : Demand}
    {poll : Option (Nat × FetchMessagesRequest)} (h : (system signed).Along (Adds signed p) c ms)
    (hD : ∀ d d' : State, (∀ x ∈ d'.world.db.messages, x ∈ d.world.db.messages ∨ p x = true) →
      d'.world.db.messages.length < 2 ^ 32 → D cur poll d d') :
    Meets Sample.codec (Sample.verify signed) u D cur poll c ms := by
  refine h.mono fun d m hadds d' hnext ↦ ?_
  obtain ⟨hclock, hkept, hadded, hshort⟩ := hadds d' hnext
  exact ⟨⟨hclock, fun x hx ↦ ⟨hkept x hx.1, hx.2⟩⟩, hD d d' hadded hshort⟩

/-- A poll of user 2 that takes six steps after the run `ms`. -/
theorem polls_of_final {signed : List (Bytes × Bytes)} {ms : Moves} {D : Demand} (t : Nat)
    (req : FetchMessagesRequest) (resp : FetchMessagesResponse) (hc : final signed ms = some c) (hu : req.userHash = u)
    (hpool : (final signed ms).map (fun c ↦ c.pool.length) = some t)
    (hmeets : Meets Sample.codec (Sample.verify signed) u D req.sinceTimestamp (some (t, req)) c
      (.spawn (.request (.fetchMessages req)) :: steps t 6))
    (hanswer : ((final signed (ms ++ .spawn (.request (.fetchMessages req)) :: steps t 6)).bind
      fun c' ↦ c'.answered t) =
        some (.request (.fetchMessages req), ⟨true, .fetchMessages resp, ""⟩))
    (hrun : (final signed (ms ++ .spawn (.request (.fetchMessages req)) :: steps t 6)).map (fun c' ↦
      (verified (past t c'.trace), readsUpTo 6000000 (past t c'.trace))) =
        some ([(key 2, req.signedData, req.dilithiumSignature)], true)) :
    ∃ c', final signed (ms ++ .spawn (.request (.fetchMessages req)) :: steps t 6) = some c' ∧
      Polls Sample.codec (Sample.verify signed) u D c req.sinceTimestamp req resp c' ∧
      ∀ now : Nat, Did (past c.pool.length c'.trace) .clock now → now ≤ 6000000 := by
  obtain ⟨c', hc', hview⟩ := Option.map_eq_some_iff.mp hrun
  obtain ⟨hverified, hreads⟩ := Prod.mk.inj hview
  have hlen : c.pool.length = t := by simpa [hc] using hpool
  have hsteps : (system signed).run c
      (.spawn (.request (.fetchMessages req)) :: steps t 5 ++ [.step t .none]) = some c' := by
    obtain ⟨c₁, h₁, h₂⟩ := Machine.run_append.mp hc'
    obtain rfl := Option.some.inj (hc.symm.trans h₁)
    exact h₂
  have hsplit : (.spawn (.request (.fetchMessages req)) :: steps t 6 : Moves) =
      (.spawn (.request (.fetchMessages req)) :: steps t 5) ++ [.step t .none] := rfl
  rw [hsplit] at hmeets
  obtain ⟨d, hd, hstep⟩ := Machine.run_append.mp hsteps
  obtain ⟨c₂, hlast, hend⟩ := Machine.run_cons.mp hstep
  obtain rfl := Option.some.inj hend
  rw [hc', Option.bind_some] at hanswer
  subst hlen
  refine ⟨c₂, hc', ⟨hu, rfl, ⟨_, d, .none, hd, hmeets.left, hlast⟩, hanswer, key 2, ?_⟩, ?_⟩
  · exact did_of_verified (hverified ▸ List.mem_singleton.mpr rfl)
  · exact fun now hnow ↦ of_decide_eq_true (List.all_eq_true.mp hreads _ hnow)

/-- User 2 polls with the timestamp of the first response. -/
def fetchSince : FetchMessagesRequest := ⟨word 2, 6000, 0, 4, signature⟩

def followSigned : List (Bytes × Bytes) := (key 2, fetchSince.signedData) :: drainSigned

/-- User 1 is sending a message, and the server has just stamped it. -/
def stampedRun : Moves :=
  .act (.tick 5000000 0) :: registers 0 1 ++ registers 1 2 ++
    .spawn (.request (.sendMessage envelope)) :: steps 2 4 ++ [.act (.tick 6000000 0)]

/-- User 2 polls, and then the message is stored. -/
def storedRun : Moves :=
  stampedRun ++ .spawn (.request (.fetchMessages fetchAll)) :: steps 3 6 ++ steps 2 1

/-- A poll at 6 s that finds nothing. -/
def nothing : FetchMessagesResponse := { timestamp := 6000 }

end Sample

/-- A poll reads the clock. -/
theorem Polls.reads {D : Demand} (hpoll : Polls codec verifyDetached u D c cur req resp c')
    (hc : Reachable codec verifyDetached c) :
    ∃ now : Nat, Did (past c.pool.length c'.trace) .clock now := by
  obtain ⟨ms, d, user, now, total, rows, -, -, -, -, hpast, -⟩ := hpoll.last hc
  refine ⟨now, ?_⟩
  rw [hpast]
  simp [Did, FetchMessagesRequest.answeredPast, FetchMessagesRequest.loadedPast,
    FetchMessagesRequest.countedPast, FetchMessagesRequest.timedPast]

open Sample in
/-- The message is stamped before the first poll and stored after it: no poll returns it or counts
it. -/
theorem message_between_polls_lost : ∃ c c' : State, ∃ now : Nat,
    Following Sample.codec (Sample.verify followSigned) (word 2) (fun _ _ _ _ ↦ True) c 6000 [] ∧
    Polls Sample.codec (Sample.verify followSigned) (word 2) (fun _ _ _ _ ↦ True) c 6000 fetchSince
      nothing c' ∧
    Did (past c.pool.length c'.trace) .clock now ∧
    ¬ Accounted Sample.codec (word 2) c now [] nothing := by
  have hviews : (final followSigned storedRun).map (fun c ↦ (c.pool.length,
      c.world.db.messages.map fun x ↦ (x.recipientHashId, x.expiresAt))) =
        some (4, [(word 2, neverExpires)]) := by decide +kernel
  obtain ⟨c, hc, hview⟩ := Option.map_eq_some_iff.mp hviews
  obtain ⟨hpool, hmessages⟩ := Prod.mk.inj hview
  obtain ⟨c₂, hc₂, hstored⟩ := Machine.run_append.mp hc
  obtain ⟨c₁, hc₁, -⟩ := Machine.run_append.mp hc₂
  -- nothing is demanded of the moves
  have hadds : (system followSigned).Along (Adds followSigned fun _ ↦ true)
      (.start (.initial 0 0)) (storedRun ++ .spawn (.request (.fetchMessages fetchSince)) ::
        steps 4 6) := Machine.along_of_check (by decide +kernel)
  have hmeets {c : State} {ms : Moves} {cur : UInt64} {poll : Option (Nat × FetchMessagesRequest)}
      (h : (system followSigned).Along (Adds followSigned fun _ ↦ true) c ms) :
      Meets Sample.codec (Sample.verify followSigned) (word 2) (fun _ _ _ _ ↦ True) cur poll c ms :=
    meets_of_adds h fun _ _ _ _ ↦ trivial
  obtain ⟨c₃, hc₃, hfirst, -⟩ := polls_of_final (u := word 2) 3 fetchAll nothing hc₁ rfl
    (by decide +kernel) (hmeets (hadds.left.left.right hc₁)) (by decide +kernel) (by decide +kernel)
  obtain rfl : c₂ = c₃ := Option.some.inj (hc₂.symm.trans hc₃)
  obtain ⟨c', hc', hsecond, hreads⟩ := polls_of_final (u := word 2) 4 fetchSince nothing hc rfl
    (by rw [hc]; exact congrArg some hpool) (hmeets (hadds.right hc)) (by decide +kernel)
    (by decide +kernel)
  obtain ⟨now, hnow⟩ := hsecond.reads ⟨0, 0, _, hc⟩
  refine ⟨c, c', now, ?_, hsecond, hnow, fun haccounted ↦ ?_⟩
  · exact .idle (.poll (.idle (.start 0 0) hc₁ (hmeets hadds.left.left.left)) hfirst) hstored
      (hmeets (hadds.left.right hc₂))
  · obtain ⟨x, hx⟩ := List.length_eq_one_iff.mp
      ((List.length_map _).symm.trans (congrArg List.length hmessages))
    rw [hx] at hmessages
    obtain ⟨hu, hexp⟩ := Prod.mk.inj (List.cons.inj hmessages).1
    have hle := hreads now hnow
    have hlost : now < x.expiresAt := by
      rw [hexp]
      exact (Int.ofNat_le.mpr hle).trans_lt (by decide)
    rw [Accounted, hx, List.filter_cons_of_pos (by simp [hu, hlost, nothing])] at haccounted
    exact nomatch haccounted

namespace Sample

/-- User 2 polls at 5 s, and from there at 6 s. -/
def fetchFrom : FetchMessagesRequest := ⟨word 2, 5000, 0, 4, signature⟩

def twiceSigned : List (Bytes × Bytes) := (key 2, fetchFrom.signedData) :: drainSigned

/-- The users have accounts at 5 s. -/
def earlyRun : Moves := .act (.tick 5000000 0) :: registers 0 1 ++ registers 1 2

/-- User 2 polls, and at 6 s user 1 sends a message. -/
def polledRun : Moves :=
  earlyRun ++ .spawn (.request (.fetchMessages fetchAll)) :: steps 2 6 ++
    .act (.tick 6000000 0) :: .spawn (.request (.sendMessage envelope)) :: steps 3 7

/-- No message comes. -/
theorem meets_of_none {signed : List (Bytes × Bytes)} {poll : Option (Nat × FetchMessagesRequest)}
    (h : (system signed).Along (Adds signed fun _ ↦ false) c ms) :
    Meets Sample.codec (Sample.verify signed) u (InTime u) cur poll c ms := by
  refine meets_of_adds h fun d d' hadded hshort ↦ ⟨fun x hx hnew ↦ ?_, ?_⟩
  · exact absurd ⟨(hadded x hx.1).resolve_right Bool.false_ne_true, hx.2⟩ hnew
  · exact (List.length_filter_le _ _).trans_lt hshort

/-- Messages come while no poll is under way, stamped after the cursor. -/
theorem meets_of_later {signed : List (Bytes × Bytes)} (hcur : 0 ≤ cur.toInt64.toInt)
    (h : (system signed).Along
      (Adds signed fun x ↦ decide (cur.toInt64.toInt < x.serverTimestamp.toInt)) c ms) :
    Meets Sample.codec (Sample.verify signed) u (InTime u) cur none c ms := by
  refine meets_of_adds h fun d d' hadded hshort ↦ ⟨fun x hx hnew ↦ ?_, ?_⟩
  · have hbeyond := of_decide_eq_true ((hadded x hx.1).resolve_left fun h ↦ hnew ⟨h, hx.2⟩)
    exact ⟨hcur.trans_lt hbeyond, .inl hbeyond, nofun, nofun⟩
  · exact (List.length_filter_le _ _).trans_lt hshort

end Sample

open Sample in
/-- The message that is stored between the polls is returned by the second one, which has the
timestamp of the first one. -/
theorem no_message_lost_polledRun : ∃ c c' : State, ∃ now : Nat, ∃ x,
    Following Sample.codec (Sample.verify twiceSigned) (word 2) (InTime (word 2)) c 5000 [] ∧
    Polls Sample.codec (Sample.verify twiceSigned) (word 2) (InTime (word 2)) c 5000 fetchFrom
      (fetched 6000000) c' ∧
    Did (past c.pool.length c'.trace) .clock now ∧ c.world.db.messages = [x] ∧
    Accounted Sample.codec (word 2) c now [] (fetched 6000000) := by
  have hviews : (final twiceSigned polledRun).map (fun c ↦ (c.pool.length,
      c.world.db.messages.length, (system twiceSigned).check
        (fun d m ↦ decide (Adds twiceSigned (fun _ ↦ false) d m)) c
          (.spawn (.request (.fetchMessages fetchFrom)) :: steps 4 6))) = some (4, 1, true) := by
    decide +kernel
  obtain ⟨c, hc, hview⟩ := Option.map_eq_some_iff.mp hviews
  obtain ⟨hpool, hlength, hcheck⟩ : _ ∧ _ ∧ _ := by simpa only [Prod.mk.injEq] using hview
  obtain ⟨x, hx⟩ := List.length_eq_one_iff.mp hlength
  obtain ⟨c₂, hc₂, hsent⟩ := Machine.run_append.mp hc
  obtain ⟨c₁, hc₁, -⟩ := Machine.run_append.mp hc₂
  -- no message comes up to the first answer, and then one that is stamped after it
  have hnone : (system twiceSigned).Along (Adds twiceSigned fun _ ↦ false)
      (.start (.initial 0 0)) (earlyRun ++ .spawn (.request (.fetchMessages fetchAll)) ::
        steps 2 6) := Machine.along_of_check (by decide +kernel)
  have hlater : (system twiceSigned).Along (Adds twiceSigned fun x ↦
      decide ((5000 : UInt64).toInt64.toInt < x.serverTimestamp.toInt)) (.start (.initial 0 0))
        polledRun := Machine.along_of_check (by decide +kernel)
  obtain ⟨c₃, hc₃, hfirst, -⟩ := polls_of_final (u := word 2) (D := InTime (word 2)) 2 fetchAll
    { timestamp := 5000 } hc₁ rfl (by decide +kernel) (meets_of_none (hnone.right hc₁))
    (by decide +kernel) (by decide +kernel)
  obtain rfl : c₂ = c₃ := Option.some.inj (hc₂.symm.trans hc₃)
  have hfollows : Following Sample.codec (Sample.verify twiceSigned) (word 2) (InTime (word 2))
      c 5000 [] :=
    .idle (.poll (.idle (.start 0 0) hc₁ (meets_of_none hnone.left)) hfirst) hsent
      (meets_of_later (by decide) (hlater.right hc₂))
  obtain ⟨c', hc', hpoll, -⟩ := polls_of_final (u := word 2) (D := InTime (word 2)) 4 fetchFrom
    (fetched 6000000) hc rfl (by rw [hc]; exact congrArg some hpool)
    (meets_of_none (Machine.along_of_check hcheck)) (by decide +kernel) (by decide +kernel)
  obtain ⟨now, hnow⟩ := hpoll.reads ⟨0, 0, _, hc⟩
  exact ⟨c, c', now, x, hfollows, hpoll, hnow, hx, no_message_lost hfollows hpoll now hnow⟩

end ZenthDht
