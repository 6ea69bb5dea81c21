import ZenthDht.Spec.Relay

/-!
# The mailbox of a device

The server and the client of one device, as a `Mailbox`.  `Client` is what holds of every state
of a run in which the client keeps to its loop, and `Mirrors` relates such a state to a mailbox:
the visible rows of the device are stored, and what the device has received is returned.  Every
move is an operation of the mailbox or leaves it as it is (`Mirrors.step`), so every state of a
run mirrors a mailbox (`mirrors_of_run`), and the invariant of the mailbox says what the client
can rely on.
-/

namespace ZenthDht

open Conc

/-! ## The client -/

/-- The thread at a place of the pool, with the threads before and after it. -/
theorem pool_split {pool : Pool} {t : Nat} {th : Thread Res Job (Option Reply)}
    (h : pool[t]? = some th) :
    ∃ l₁ l₂, pool = l₁ ++ th :: l₂ ∧ ∀ th', pool.set t th' = l₁ ++ th' :: l₂ := by
  obtain ⟨hlt, rfl⟩ := List.getElem?_eq_some_iff.mp h
  refine ⟨pool.take t, pool.drop (t + 1), ?_, fun th' ↦ List.set_eq_take_append_cons_drop.trans
    (if_pos hlt)⟩
  rw [← List.drop_eq_getElem_cons hlt, List.take_append_drop]

section

variable {d : Bytes} {pool : Pool} {th : Thread Res Job (Option Reply)}

theorem relayBusy_iff : relayBusy d th = true ↔
    (∃ o k, th.rest = .perform o k) ∧ th.job.mailbox = some d := by
  obtain ⟨job, rest⟩ := th
  cases rest with
  | ret a => simp [relayBusy]
  | perform o k => simp [relayBusy]

/-- Only a RELAY_FETCH of the device that has been answered is a page. -/
theorem relayPage_of_mailbox (h : th.job.mailbox ≠ some d) : relayPage d th = [] := by
  unfold relayPage
  split
  next req reply =>
    have hne : req.forDeviceDilithiumPubkey ≠ d := fun he ↦ h (congrArg some he)
    exact if_neg hne
  · rfl

@[simp] theorem relayPage_perform {job : Job} {o : Op} {k : Res o → Handler (Option Reply)} :
    relayPage d ⟨job, .perform o k⟩ = [] := by
  unfold relayPage
  split
  next h => exact nomatch h
  · rfl

/-- The client has at most one request at a time, which names its cursor. -/
structure AtCursor (d : Bytes) (pool : Pool) : Prop where
  position : ∀ th ∈ pool, relayBusy d th = true → th.job.position = relayCursor d pool
  last : pool.Pairwise fun th th' ↦ relayBusy d th = true → th'.job.mailbox ≠ some d

theorem relayReturned_append {l₁ l₂ : Pool} :
    relayReturned d (l₁ ++ l₂) = relayReturned d l₁ ++ relayReturned d l₂ := List.flatMap_append

theorem relayReturned_cons {l : Pool} :
    relayReturned d (th :: l) = relayPage d th ++ relayReturned d l := List.flatMap_cons

theorem relayReturned_of_mailbox {l : Pool} (h : ∀ th ∈ l, th.job.mailbox ≠ some d) :
    relayReturned d l = [] :=
  List.flatMap_eq_nil_iff.mpr fun th hth ↦ relayPage_of_mailbox (h th hth)

theorem AtCursor.spawn (h : AtCursor d pool) {job : Job} {rest : Handler (Option Reply)}
    (hin : InLoop d pool job) (hpage : relayPage d ⟨job, rest⟩ = []) :
    AtCursor d (pool ++ [⟨job, rest⟩]) ∧
      relayReturned d (pool ++ [⟨job, rest⟩]) = relayReturned d pool := by
  have hreturned : relayReturned d (pool ++ [⟨job, rest⟩]) = relayReturned d pool := by
    rw [relayReturned_append, relayReturned_cons, hpage]
    exact List.append_nil _
  refine ⟨⟨fun th hth hbusy ↦ ?_, ?_⟩, hreturned⟩
  · rw [relayCursor, hreturned]
    rcases List.mem_append.mp hth with hth | hth
    · exact h.position th hth hbusy
    · obtain rfl := List.mem_singleton.mp hth
      exact (hin (relayBusy_iff.mp hbusy).2).2
  · refine List.pairwise_append.mpr ⟨h.last, List.pairwise_singleton _ _, fun th hth th' hth' ↦ ?_⟩
    obtain rfl := List.mem_singleton.mp hth'
    intro hbusy hjob
    exact absurd hbusy (by rw [(hin hjob).1 th hth]; exact Bool.false_ne_true)

variable {t : Nat} {job : Job} {o : Op} {k : Res o → Handler (Option Reply)}
  {rest : Handler (Option Reply)}

/-- A step of a thread that has no page for the device. -/
theorem AtCursor.step (h : AtCursor d pool) (ht : pool[t]? = some ⟨job, .perform o k⟩)
    (hpage : relayPage d ⟨job, rest⟩ = []) :
    AtCursor d (pool.set t ⟨job, rest⟩) ∧
      relayReturned d (pool.set t ⟨job, rest⟩) = relayReturned d pool := by
  obtain ⟨l₁, l₂, rfl, hset⟩ := pool_split ht
  have hreturned : relayReturned d (l₁ ++ ⟨job, rest⟩ :: l₂) =
      relayReturned d (l₁ ++ ⟨job, .perform o k⟩ :: l₂) := by
    simp only [relayReturned_append, relayReturned_cons, hpage, relayPage_perform]
  have hbusy : relayBusy d ⟨job, rest⟩ = true → relayBusy d ⟨job, .perform o k⟩ = true :=
    fun hb ↦ relayBusy_iff.mpr ⟨⟨o, k, rfl⟩, (relayBusy_iff.mp hb).2⟩
  rw [hset]
  refine ⟨⟨fun th hth hb ↦ ?_, ?_⟩, hreturned⟩
  · rw [relayCursor, hreturned]
    rcases List.mem_append.mp hth with hth | hth
    · exact h.position th (List.mem_append_left _ hth) hb
    · rcases List.mem_cons.mp hth with rfl | hth
      · exact h.position ⟨job, .perform o k⟩ (List.mem_append_right _ List.mem_cons_self) (hbusy hb)
      · exact h.position th (List.mem_append_right _ (List.mem_cons_of_mem _ hth)) hb
  · obtain ⟨h₁, h₂, h₃⟩ := List.pairwise_append.mp h.last
    obtain ⟨h₄, h₅⟩ := List.pairwise_cons.mp h₂
    refine List.pairwise_append.mpr ⟨h₁, List.pairwise_cons.mpr ⟨fun th hth hb ↦ h₄ th hth (hbusy hb),
      h₅⟩, fun th hth th' hth' ↦ ?_⟩
    rcases List.mem_cons.mp hth' with rfl | hth'
    · exact h₃ th hth ⟨job, .perform o k⟩ List.mem_cons_self
    · exact h₃ th hth th' (List.mem_cons_of_mem _ hth')

/-- A RELAY_FETCH of the device is answered. -/
theorem AtCursor.answer (h : AtCursor d pool) (ht : pool[t]? = some ⟨job, .perform o k⟩)
    (hjob : job.mailbox = some d) {a : Option Reply} :
    AtCursor d (pool.set t ⟨job, .ret a⟩) ∧ relayReturned d (pool.set t ⟨job, .ret a⟩) =
      relayReturned d pool ++ relayPage d ⟨job, .ret a⟩ := by
  obtain ⟨l₁, l₂, rfl, hset⟩ := pool_split ht
  have hbusy : relayBusy d ⟨job, .perform o k⟩ = true := relayBusy_iff.mpr ⟨⟨o, k, rfl⟩, hjob⟩
  obtain ⟨h₁, h₂, h₃⟩ := List.pairwise_append.mp h.last
  obtain ⟨h₄, h₅⟩ := List.pairwise_cons.mp h₂
  have hafter : ∀ th ∈ l₂, th.job.mailbox ≠ some d := fun th hth ↦ h₄ th hth hbusy
  have hbefore : ∀ th ∈ l₁, relayBusy d th = false := fun th hth ↦ by
    by_contra hb
    exact h₃ th hth _ List.mem_cons_self (Bool.eq_true_of_not_eq_false hb) hjob
  have hidle : ∀ th ∈ l₁ ++ ⟨job, .ret a⟩ :: l₂, relayBusy d th = false := fun th hth ↦ by
    rcases List.mem_append.mp hth with hth | hth
    · exact hbefore th hth
    · rcases List.mem_cons.mp hth with rfl | hth
      · rfl
      · by_contra hb
        exact hafter th hth (relayBusy_iff.mp (Bool.eq_true_of_not_eq_false hb)).2
  rw [hset]
  refine ⟨⟨fun th hth hb ↦ ?_, ?_⟩, ?_⟩
  · exact absurd hb (by rw [hidle th hth]; exact Bool.false_ne_true)
  · exact List.pairwise_of_forall_mem_list fun th hth _ _ hb ↦
      absurd hb (by rw [hidle th hth]; exact Bool.false_ne_true)
  · simp only [relayReturned_append, relayReturned_cons, relayPage_perform,
      relayReturned_of_mailbox hafter, List.append_nil]

end

/-! ## The steps of a fetch -/

/-- The operation thread `t` performs next. -/
def nextOp (pool : Pool) (t : Nat) : Option Op :=
  match pool[t]? with
  | some ⟨_, .perform o _⟩ => some o
  | _ => none

/-- The client of `d` keeps to its loop, and the clock is not set back. -/
def RelayClient (d : Bytes) (c : PgState) : Move Job PgOracle PgAct → Prop
  | .spawn job => InLoop d c.pool job
  | .act (.server (.tick clock _)) => c.world.clock ≤ clock
  | _ => True

section

variable {codec : Codec} {verifyDetached : Bytes → Bytes → Bytes → Bool} {d : Bytes}
variable {c c' : PgState} {m : Move Job PgOracle PgAct} {t : Nat} {job : Job} {o : Op}
  {k : Res o → Handler (Option Reply)} {r : Res o}

/-- What is known of every state of a run with the client of `d`. -/
structure Client (codec : Codec) (verifyDetached : Bytes → Bytes → Bytes → Bool) (d : Bytes)
    (c : PgState) : Prop where
  traced : (postgres codec verifyDetached).Traced c
  numbered : Numbered c.world c.trace
  cursor : AtCursor d c.pool
  clocks : ∀ {t r}, (t, ⟨.clock, r⟩) ∈ c.trace → r ≤ c.world.clock

theorem Client.guard (h : Client codec verifyDetached d c)
    (ht : c.pool[t]? = some ⟨job, .perform o k⟩) : Guard codec job (past t c.trace) o :=
  ((h.traced.1 t _ ht).obeys (code_obeys codec job)).1

/-- The only statement of a RELAY_FETCH. -/
theorem Client.load (h : Client codec verifyDetached d c) {req : RelayFetchRequest} {s : Stmt}
    {k : Res (.sql s) → Handler (Option Reply)}
    (ht : c.pool[t]? = some ⟨.request (.relayFetch req), .perform (.sql s) k⟩) :
    ∃ now : Nat, now ≤ c.world.clock ∧ s = req.load now := by
  have hreach : (code codec (.request (.relayFetch req))).Reaches (past t c.trace) _ :=
    h.traced.1 t _ ht
  obtain ⟨now, hnow, hs⟩ := ((hreach.obeys (code_relayOrder codec _)).1 req rfl).2 s rfl
  exact ⟨now, h.clocks (did_past.mp hnow), hs⟩

section

variable {w : PgWorld}

/-- The history of the thread that takes a step. -/
theorem reaches_step (hT : (postgres codec verifyDetached).Traced c)
    (ht : c.pool[t]? = some ⟨job, .perform o k⟩) (r : Res o) :
    (code codec job).Reaches (past t c.trace ++ [⟨o, r⟩]) (k r) :=
  .snoc r (hT.1 t _ ht)

/-- A RELAY_FETCH that has loaded its page returns it. -/
theorem answer_of_load (hT : (postgres codec verifyDetached).Traced c) {req : RelayFetchRequest}
    {now : Nat} {k : Res (.sql (req.load now)) → Handler (Option Reply)}
    (ht : c.pool[t]? = some ⟨.request (.relayFetch req), .perform (.sql (req.load now)) k⟩)
    (rows : List (Nat × Bytes × Bytes)) : k (.ok rows) = .ret (some (relayAnswer rows)) := by
  have hobeys := (reaches_step hT ht (.ok rows)).obeys (code_relayOrder codec _)
  have hlast : ¬ ∀ e ∈ past t c.trace ++ [⟨.sql (req.load now), .ok rows⟩], okStmt e = none :=
    fun hnone ↦ nomatch hnone _ (List.mem_append_right _ (List.mem_singleton.mpr rfl))
  cases hk : k (.ok rows) with
  | perform o' k' =>
      rw [hk] at hobeys
      exact absurd (hobeys.1 req rfl).1 hlast
  | ret a =>
      rw [hk] at hobeys
      rcases hobeys req rfl with ⟨hnone, -⟩ | ⟨before, rows', now', hpast, rfl⟩
      · exact absurd hnone hlast
      · obtain ⟨-, he⟩ := List.append_inj' hpast rfl
        cases (List.cons.inj he).1
        rfl

/-- The page it returns is the one it has loaded. -/
theorem relayPage_answer {req : RelayFetchRequest} (hd : req.forDeviceDilithiumPubkey = d)
    {page : List RelayMessage} :
    relayPage d ⟨.request (.relayFetch req), .ret (some (relayAnswer
      (page.map fun x ↦ (x.id, x.ciphertext, x.nonce))))⟩ = page.map RelayMessage.entry := by
  simp [relayPage, hd, relayAnswer, Reply.entries, RelayMessage.entry]

/-- Before the load it has no page to return. -/
theorem relayPage_of_obeys {past : Past} {rest : Handler (Option Reply)}
    (hobeys : rest.Obeys (RelayOrder job) (RelayAnswer job) past)
    (hno : ∀ req, job = .request (.relayFetch req) → req.forDeviceDilithiumPubkey = d →
      ∀ before now rows, past ≠ before ++ [⟨.sql (req.load now), .ok rows⟩]) :
    relayPage d ⟨job, rest⟩ = [] := by
  cases rest with
  | perform o' k' => exact relayPage_perform
  | ret a =>
      unfold relayPage
      split
      next req reply heq =>
        obtain ⟨rfl, ha⟩ := Thread.mk.inj heq
        obtain rfl := Program.ret.inj ha
        split
        next hd =>
          rcases hobeys req rfl with ⟨-, hempty⟩ | ⟨before, rows, now, hpast, -⟩
          · exact (hempty reply rfl).1
          · exact absurd hpast (hno req rfl hd before now rows)
        · rfl
      · rfl

/-- Whether an event is the load of a page for `d`. -/
def LoadsFor (d : Bytes) (job : Job) (e : Event Res) : Prop :=
  ∃ req now rows, job = .request (.relayFetch req) ∧ req.forDeviceDilithiumPubkey = d ∧
    e = ⟨.sql (req.load now), .ok rows⟩

theorem relayPage_of_not_loads (hT : (postgres codec verifyDetached).Traced c)
    (ht : c.pool[t]? = some ⟨job, .perform o k⟩) (hno : ¬ LoadsFor d job ⟨o, r⟩) :
    relayPage d ⟨job, k r⟩ = [] := by
  refine relayPage_of_obeys ((reaches_step hT ht r).obeys (code_relayOrder codec _))
    fun req hjob hd before now rows hpast ↦ hno ⟨req, now, rows, hjob, hd, ?_⟩
  obtain ⟨-, he⟩ := List.append_inj' hpast rfl
  exact (List.cons.inj he).1

end

theorem Client.step (h : Client codec verifyDetached d c) (hclient : RelayClient d c m)
    (hs : (postgres codec verifyDetached).Step c m c') : Client codec verifyDetached d c' := by
  have htraced := hs.traced h.traced
  cases hs with
  | spawn j =>
      have hpage : relayPage d ⟨j, code codec j⟩ = [] :=
        relayPage_of_obeys (code_relayOrder codec j) (by simp)
      exact ⟨htraced, h.numbered, (h.cursor.spawn hclient hpage).1, h.clocks⟩
  | @act a w ha =>
      refine ⟨htraced, h.numbered.act ha, h.cursor, fun hmem ↦ (h.clocks hmem).trans ?_⟩
      rcases actPg_cases ha with ⟨a', rfl, -, -, -, ⟨clock, instant, rfl, rfl⟩ | hclock⟩ | ⟨-, rfl⟩
      · exact hclient
      · exact hclock.ge
      · exact le_rfl
  | @step t ω j o k r w ht hp =>
      have hclocks : ∀ {t' r'}, (t', ⟨.clock, r'⟩) ∈ c.trace ++ [(t, ⟨o, r⟩)] → r' ≤ w.clock := by
        intro t' r' hmem
        rw [performPg_clock hp]
        rcases List.mem_append.mp hmem with hmem | hmem
        · exact h.clocks hmem
        · cases List.mem_singleton.mp hmem
          exact (performPg_readsClock hp).le
      refine ⟨htraced, h.numbered.step hp, ?_, hclocks⟩
      by_cases hload : LoadsFor d j ⟨o, r⟩
      · obtain ⟨req, now, rows, rfl, hd, he⟩ := hload
        cases he
        have hret : k (.ok rows) = .ret (some (relayAnswer rows)) := answer_of_load h.traced ht rows
        rw [hret]
        exact (h.cursor.answer ht (congrArg some hd)).1
      · exact (h.cursor.step ht (relayPage_of_not_loads h.traced ht hload)).1

/-! ## The mailbox of a device -/

/-- An INSERT for `d` that has drawn its id before commits while the id is beyond the cursor of
`d`, or with an entry that has already expired. -/
def CommitsBeyond (d : Bytes) (c : PgState) : Move Job PgOracle PgAct → Prop
  | .step t (.commit id) =>
    match nextOp c.pool t with
    | some (.sql (.insertRelay n)) => n.forDeviceDilithiumPubkey = d →
        relayCursor d c.pool < id ∨ n.expiresAt ≤ c.world.clock
    | _ => True
  | _ => True

/-- No entry for `d` expires before it is read: it commits beyond the cursor, and none beyond the
cursor has expired when a page is loaded. -/
def NoneExpired (d : Bytes) (c : PgState) : Move Job PgOracle PgAct → Prop
  | .step t (.commit id) =>
    match nextOp c.pool t with
    | some (.sql (.insertRelay n)) => n.forDeviceDilithiumPubkey = d → relayCursor d c.pool < id
    | _ => True
  | .step t _ =>
    match nextOp c.pool t with
    | some (.sql (.loadRelay d' _ now _)) => d' = d → ∀ x ∈ c.world.rows,
        x.forDeviceDilithiumPubkey = d → relayCursor d c.pool < x.id → now < x.expiresAt
    | _ => True
  | _ => True

/-- The mailbox `b` is that of the device `d`.  With `strict`, no entry has expired unread. -/
structure Mirrors (strict : Prop) (d : Bytes) (c : PgState)
    (b : Mailbox RelayMessage.id RelayMessage.expiresAt) : Prop where
  stored : ∀ x, x ∈ b.stored ↔ x ∈ c.world.rows ∧ x.forDeviceDilithiumPubkey = d
  returned : relayReturned d c.pool = b.returned.map RelayMessage.entry
  pushed : ∀ x, x ∈ b.pushed ↔ RelayPushed d c.trace x
  skipped : ∀ x ∈ b.skipped, x.expiresAt ≤ c.world.clock ∧ ¬ strict
  purged : ∀ x ∈ b.purged, x.expiresAt ≤ c.world.clock

variable {strict : Prop} {b : Mailbox RelayMessage.id RelayMessage.expiresAt}

theorem Mirrors.cursor (h : Mirrors strict d c b) : relayCursor d c.pool = b.cursor := by
  rw [relayCursor, h.returned, Mailbox.cursor, lastId, lastId, List.getLast?_map, Option.map_map]
  rfl

/-- The cursor is an id that was drawn. -/
theorem Mirrors.cursor_lt (h : Mirrors strict d c b) (hn : Numbered c.world c.trace) :
    b.cursor < c.world.next := by
  rw [Mailbox.cursor, lastId]
  cases hlast : b.returned.getLast? with
  | none => exact hn.pos
  | some x =>
      have hx := b.returned_pushed x (List.mem_of_getLast? hlast)
      obtain ⟨t, n, hmem, -⟩ := (h.pushed x).mp hx
      exact (hn.ids hmem).1

theorem Mirrors.initial (clock instant : Nat) :
    Mirrors strict d (.start ⟨.initial clock instant, []⟩) .empty :=
  ⟨fun x ↦ by simp [Mailbox.empty, Config.start, PgWorld.rows, World.initial, Db.migrated], rfl,
    fun x ↦ by simp [Mailbox.empty, Config.start, RelayPushed], nofun, nofun⟩

/-- An event that is not an INSERT pushes nothing. -/
theorem pushed_of_other {tr : History} {e : Event Res} {x : RelayMessage}
    (he : ∀ n id, e ≠ ⟨.sql (.insertRelay n), .ok id⟩) :
    RelayPushed d (tr ++ [(t, e)]) x ↔ RelayPushed d tr x := by
  refine ⟨fun h ↦ h.snoc.resolve_right ?_, fun h ↦ h.append⟩
  rintro ⟨n, rfl, -⟩
  exact he n x.id rfl

/-- A page is loaded for the device. -/
theorem Mirrors.fetch (h : Mirrors strict d c b) (hc : Client codec verifyDetached d c)
    {req : RelayFetchRequest} {now : Nat} {k : Res (.sql (req.load now)) → Handler (Option Reply)}
    {rows : List (Nat × Bytes × Bytes)} {ω : PgOracle} {w : PgWorld}
    (hd : req.forDeviceDilithiumPubkey = d)
    (ht : c.pool[t]? = some ⟨.request (.relayFetch req), .perform (.sql (req.load now)) k⟩)
    (hp : performPg verifyDetached (.sql (req.load now)) ω c.world = some (.ok rows, w)) :
    ∃ page, IsPage RelayMessage.id (b.Unread (now : Nat)) req.effectiveLimit page ∧
      rows = page.map fun x ↦ (x.id, x.ciphertext, x.nonce) := by
  have hbusy : relayBusy d ⟨.request (.relayFetch req), .perform (.sql (req.load now)) k⟩ = true :=
    relayBusy_iff.mpr ⟨⟨_, _, rfl⟩, congrArg some hd⟩
  have hpos : req.sinceId.toInt = b.cursor :=
    (hc.cursor.position _ (List.mem_of_getElem? ht) hbusy).trans (congrArg Nat.cast h.cursor)
  obtain ⟨q, hq⟩ : ∃ q : RelayMessage → Bool, q = fun x ↦ x.forDeviceDilithiumPubkey = d &&
      decide (req.sinceId.toInt < x.id) && decide ((now : NaiveDateTime) < x.expiresAt) := ⟨_, rfl⟩
  have hpage : IsPage RelayMessage.id (fun x ↦ x ∈ c.world.rows ∧ q x = true) req.effectiveLimit _ :=
    IsPage.of_take hc.numbered.nodup
  have hunread : (fun x ↦ x ∈ c.world.rows ∧ q x = true) = b.Unread (now : NaiveDateTime) := by
    funext x
    simp only [hq, Mailbox.Unread, h.stored, hpos, Bool.and_eq_true, decide_eq_true_eq,
      Int.ofNat_lt, eq_iff_iff]
    tauto
  rw [hunread] at hpage
  refine ⟨_, hpage, ?_⟩
  rw [performPg_load hp, hq, hd]

theorem nextOp_of_pool (ht : c.pool[t]? = some ⟨job, .perform o k⟩) : nextOp c.pool t = some o := by
  simp only [nextOp, ht]

variable {w : PgWorld} {ω : PgOracle}

/-- The state after thread `t` has taken a step. -/
abbrev stepped (c : PgState) (t : Nat) (job : Job) (k : Res o → Handler (Option Reply)) (r : Res o)
    (w : PgWorld) : PgState := ⟨w, c.pool.set t ⟨job, k r⟩, c.trace ++ [(t, ⟨o, r⟩)]⟩

/-- A step that returns no page to the device and pushes nothing. -/
theorem Mirrors.of_stored (h : Mirrors strict d c b) (hc : Client codec verifyDetached d c)
    (ht : c.pool[t]? = some ⟨job, .perform o k⟩)
    (hp : performPg verifyDetached o ω c.world = some (r, w)) (hload : ¬ LoadsFor d job ⟨o, r⟩)
    (hins : ∀ n id, (⟨o, r⟩ : Event Res) ≠ ⟨.sql (.insertRelay n), .ok id⟩)
    {b' : Mailbox RelayMessage.id RelayMessage.expiresAt}
    (hstored : ∀ x, x ∈ b'.stored ↔ x ∈ w.rows ∧ x.forDeviceDilithiumPubkey = d)
    (hreturned : b'.returned = b.returned) (hpushed : b'.pushed = b.pushed)
    (hskipped : b'.skipped = b.skipped)
    (hpurged : ∀ x ∈ b'.purged, x.expiresAt ≤ c.world.clock) :
    Mirrors strict d (stepped c t job k r w) b' where
  stored := hstored
  returned := by
    rw [(hc.cursor.step ht (relayPage_of_not_loads hc.traced ht hload)).2, h.returned, hreturned]
  pushed x := by rw [hpushed, h.pushed, pushed_of_other hins]
  skipped x hx := by
    rw [performPg_clock hp]
    exact h.skipped x (hskipped ▸ hx)
  purged x hx := by
    rw [performPg_clock hp]
    exact hpurged x hx

theorem noneExpired_load {req : RelayFetchRequest} {now : Nat}
    {k : Res (.sql (req.load now)) → Handler (Option Reply)} {rows : List (Nat × Bytes × Bytes)}
    (ht : c.pool[t]? = some ⟨job, .perform (.sql (req.load now)) k⟩)
    (hp : performPg verifyDetached (.sql (req.load now)) ω c.world = some (.ok rows, w)) :
    NoneExpired d c (.step t ω) ↔ (req.forDeviceDilithiumPubkey = d → ∀ x ∈ c.world.rows,
      x.forDeviceDilithiumPubkey = d → relayCursor d c.pool < x.id → (now : Nat) < x.expiresAt) := by
  cases ω with
  | commit id => exact nomatch hp
  | abort id e => exact nomatch hp
  | server ω =>
      simp only [NoneExpired, nextOp_of_pool ht]
      rfl

theorem Mirrors.load (h : Mirrors strict d c b) (hc : Client codec verifyDetached d c)
    {req : RelayFetchRequest} {now : Nat} {k : Res (.sql (req.load now)) → Handler (Option Reply)}
    {rows : List (Nat × Bytes × Bytes)} (hd : req.forDeviceDilithiumPubkey = d)
    (hB : strict → NoneExpired d c (.step t ω))
    (ht : c.pool[t]? = some ⟨.request (.relayFetch req), .perform (.sql (req.load now)) k⟩)
    (hp : performPg verifyDetached (.sql (req.load now)) ω c.world = some (.ok rows, w)) :
    ∃ b', Mirrors strict d (stepped c t (.request (.relayFetch req)) k (.ok rows) w) b' := by
  obtain ⟨page, hpage, rfl⟩ := h.fetch hc hd ht hp
  obtain ⟨now', hnow, hs⟩ := hc.load ht
  have hrows : w.rows = c.world.rows := performPg_rows hp
  have hclock := performPg_clock hp
  refine ⟨b.fetch (now : Nat) hpage, fun x ↦ hrows ▸ h.stored x, ?_, fun x ↦ ?_, ?_, fun x hx ↦ ?_⟩
  · have hret := answer_of_load hc.traced ht (page.map fun x ↦ (x.id, x.ciphertext, x.nonce))
    simp only [hret]
    rw [(hc.cursor.answer ht (congrArg some hd)).2, h.returned, relayPage_answer hd, Mailbox.fetch,
      List.map_append]
  · rw [pushed_of_other (by rintro n id ⟨⟩)]
    exact h.pushed x
  · rw [hclock]
    rintro x (hx | ⟨hx, hcur, hexp⟩)
    · exact h.skipped x hx
    · refine ⟨hexp.trans ?_, fun hstrict ↦ ?_⟩
      · rw [(Stmt.loadRelay.inj hs).2.2.1]
        exact Int.ofNat_le.mpr hnow
      · have hnone := (noneExpired_load ht hp).mp (hB hstrict) hd x ((h.stored x).mp hx).1
          ((h.stored x).mp hx).2 (h.cursor ▸ hcur)
        exact absurd hexp (not_le.mpr hnone)
  · rw [hclock]
    exact h.purged x hx

/-- An entry that becomes visible at or below the cursor has expired. -/
theorem commits_expired (h : Mirrors strict d c b) (hc : Client codec verifyDetached d c)
    {n : NewRelayMessage} {id : Nat} {k : Res (.sql (.insertRelay n)) → Handler (Option Reply)}
    (hA : CommitsBeyond d c (.step t ω)) (hB : strict → NoneExpired d c (.step t ω))
    (ht : c.pool[t]? = some ⟨job, .perform (.sql (.insertRelay n)) k⟩)
    (hp : performPg verifyDetached (.sql (.insertRelay n)) ω c.world = some (.ok id, w))
    (hd : n.forDeviceDilithiumPubkey = d) (hle : id ≤ b.cursor) :
    n.expiresAt ≤ c.world.clock ∧ ¬ strict := by
  rcases performPg_insert hp with ⟨-, rfl, -⟩ | ⟨rfl, -⟩
  · exact absurd (h.cursor_lt hc.numbered) (not_lt.mpr hle)
  · simp only [CommitsBeyond, NoneExpired, nextOp_of_pool ht, h.cursor] at hA hB
    exact ⟨(hA hd).resolve_left (not_lt.mpr hle),
      fun hstrict ↦ absurd (hB hstrict hd) (not_lt.mpr hle)⟩

theorem Mirrors.insert (h : Mirrors strict d c b) (hc : Client codec verifyDetached d c)
    {n : NewRelayMessage} {id : Nat} {k : Res (.sql (.insertRelay n)) → Handler (Option Reply)}
    (hA : CommitsBeyond d c (.step t ω)) (hB : strict → NoneExpired d c (.step t ω))
    (ht : c.pool[t]? = some ⟨job, .perform (.sql (.insertRelay n)) k⟩)
    (hp : performPg verifyDetached (.sql (.insertRelay n)) ω c.world = some (.ok id, w)) :
    ∃ b', Mirrors strict d (stepped c t job k (.ok id) w) b' := by
  have hrows : w.rows = c.world.rows ++ [n.row id] := performPg_rows hp
  have hclock := performPg_clock hp
  have hreturned : relayReturned d (c.pool.set t ⟨job, k (.ok id)⟩) = relayReturned d c.pool :=
    (hc.cursor.step ht (relayPage_of_not_loads hc.traced ht (by
      rintro ⟨req, now, rows, -, -, ⟨⟩⟩))).2
  by_cases hd : n.forDeviceDilithiumPubkey = d
  · have hfresh : ∀ y ∈ b.pushed, y.id ≠ (n.row id).id := fun y hy he ↦ by
      obtain ⟨t', n', hmem, -⟩ := (h.pushed y).mp hy
      rw [he] at hmem
      exact hc.numbered.fresh hp hmem
    refine ⟨b.push (n.row id) hfresh, fun x ↦ ?_, hreturned.trans h.returned, fun x ↦ ?_, ?_,
      fun x hx ↦ hclock ▸ h.purged x hx⟩
    · rw [hrows, List.mem_append, List.mem_singleton]
      simp only [Mailbox.push, Set.mem_insert_iff, h.stored]
      constructor
      · rintro (rfl | hx)
        · exact ⟨.inr rfl, hd⟩
        · exact ⟨.inl hx.1, hx.2⟩
      · rintro ⟨hx | rfl, hxd⟩
        · exact .inr ⟨hx, hxd⟩
        · exact .inl rfl
    · simp only [Mailbox.push, Set.mem_insert_iff, h.pushed]
      constructor
      · rintro (rfl | hx)
        · exact ⟨t, n, List.mem_append_right _ (List.mem_singleton.mpr rfl), hd, rfl⟩
        · exact hx.append
      · intro hx
        rcases hx.snoc with hold | ⟨n', he, -, hrow⟩
        · exact .inr hold
        · cases he
          exact .inl hrow
    · rw [hclock]
      rintro x (hx | ⟨rfl, hle⟩)
      · exact h.skipped x hx
      · exact commits_expired h hc hA hB ht hp hd hle
  · refine ⟨b, fun x ↦ ?_, hreturned.trans h.returned, fun x ↦ ?_, hclock ▸ h.skipped,
      hclock ▸ h.purged⟩
    · rw [h.stored, hrows, List.mem_append, List.mem_singleton]
      refine ⟨fun hx ↦ ⟨.inl hx.1, hx.2⟩, ?_⟩
      rintro ⟨hx | rfl, hxd⟩
      · exact ⟨hx, hxd⟩
      · exact absurd hxd hd
    · rw [h.pushed]
      refine ⟨fun hx ↦ hx.append, fun hx ↦ hx.snoc.resolve_right ?_⟩
      rintro ⟨n', he, hd', -⟩
      cases he
      exact hd hd'

/-- Every move of the server and the device is an operation of the mailbox, or leaves it as it
is. -/
theorem Mirrors.step (h : Mirrors strict d c b) (hc : Client codec verifyDetached d c)
    (hclient : RelayClient d c m) (hA : CommitsBeyond d c m) (hB : strict → NoneExpired d c m)
    (hs : (postgres codec verifyDetached).Step c m c') : ∃ b', Mirrors strict d c' b' := by
  cases hs with
  | spawn j =>
      have hpage : relayPage d ⟨j, code codec j⟩ = [] :=
        relayPage_of_obeys (code_relayOrder codec j) (by simp)
      exact ⟨b, h.stored, (hc.cursor.spawn hclient hpage).2.trans h.returned, h.pushed, h.skipped,
        h.purged⟩
  | @act a w ha =>
      rcases actPg_cases ha with ⟨a', rfl, hperm, -, -, hclock⟩ | ⟨-, rfl⟩
      · have hle : (c.world.clock : Int) ≤ w.clock := by
          rcases hclock with ⟨clock, instant, rfl, rfl⟩ | hclock
          · exact Int.ofNat_le.mpr hclient
          · rw [hclock]
        exact ⟨b, fun x ↦ by rw [h.stored, hperm.mem_iff], h.returned, h.pushed,
          fun x hx ↦ ⟨(h.skipped x hx).1.trans hle, (h.skipped x hx).2⟩,
          fun x hx ↦ (h.purged x hx).trans hle⟩
      · exact ⟨b, h.stored, h.returned, h.pushed, h.skipped, h.purged⟩
  | @step t ω j o k r w ht hp =>
      by_cases hload : LoadsFor d j ⟨o, r⟩
      · obtain ⟨req, now, rows, rfl, hd, he⟩ := hload
        cases he
        exact h.load hc hd hB ht hp
      have hguard := hc.guard ht
      have hrows := performPg_rows hp
      unfold relayEffect at hrows
      split at hrows
      next n id he =>
        cases he
        exact h.insert hc hA hB ht hp
      next d' i m he =>
        cases he
        obtain ⟨req, rfl, rfl, rfl, -⟩ := hguard
        have hins : ∀ n id, (⟨.sql (.deleteRelayUpTo req.forDeviceDilithiumPubkey req.upToId),
          .ok m⟩ : Event Res) ≠ ⟨.sql (.insertRelay n), .ok id⟩ := nofun
        by_cases hd : req.forDeviceDilithiumPubkey = d
        · have hpos := hc.cursor.position _ (List.mem_of_getElem? ht)
            (relayBusy_iff.mpr ⟨⟨_, _, rfl⟩, congrArg some hd⟩)
          have hpos : req.upToId.toInt = b.cursor := hpos.trans (congrArg Nat.cast h.cursor)
          refine ⟨b.ack, h.of_stored hc ht hp hload hins (fun x ↦ ?_) rfl rfl rfl h.purged⟩
          rw [hrows, hpos, hd, List.mem_filter]
          simp only [Mailbox.ack, Set.mem_ofPred_eq, h.stored]
          grind
        · refine ⟨b, h.of_stored hc ht hp hload hins (fun x ↦ ?_) rfl rfl rfl h.purged⟩
          rw [hrows, h.stored, List.mem_filter]
          grind
      next n m he =>
        cases he
        obtain ⟨tick, now, -, -, hnow, rfl⟩ := hguard
        have hle : (now : Int) ≤ c.world.clock := Int.ofNat_le.mpr (hc.clocks (did_past.mp hnow))
        refine ⟨b.purge (now : Nat), h.of_stored hc ht hp hload (by nofun) (fun x ↦ ?_) rfl rfl rfl ?_⟩
        · rw [hrows, List.mem_filter]
          simp only [Mailbox.purge, Set.mem_ofPred_eq, h.stored]
          grind
        · rintro x (hx | hx)
          · exact h.purged x hx
          · exact (le_of_lt hx).trans hle
      next hno hnodel hnopurge =>
        exact ⟨b, h.of_stored hc ht hp hload hno (fun x ↦ by rw [hrows, h.stored]) rfl rfl rfl
          h.purged⟩

variable {ms : PgMoves} {clock instant : Nat}

/-- Every state of a run is that of a mailbox. -/
theorem mirrors_of_run
    (hrun : (postgres codec verifyDetached).run (.start ⟨.initial clock instant, []⟩) ms = some c)
    (halong : (postgres codec verifyDetached).Along (fun c m ↦ RelayClient d c m ∧
      CommitsBeyond d c m ∧ (strict → NoneExpired d c m)) (.start ⟨.initial clock instant, []⟩) ms) :
    Client codec verifyDetached d c ∧ ∃ b, Mirrors strict d c b := by
  have htraced : (postgres codec verifyDetached).Traced (.start ⟨.initial clock instant, []⟩) :=
    Machine.traced_of_run Machine.run_nil
  refine halong.invariant (I := fun c ↦ Client codec verifyDetached d c ∧ ∃ b, Mirrors strict d c b)
    ?_ hrun ⟨⟨htraced, .initial clock instant, ?_, nofun⟩, .empty, .initial clock instant⟩
  · rintro c m c' ⟨hc, b, hb⟩ ⟨hclient, hA, hB⟩ hs
    exact ⟨hc.step hclient hs, hb.step hc hclient hA hB hs⟩
  · exact ⟨nofun, .nil⟩

theorem Mirrors.entry_of_returned (h : Mirrors strict d c b) {x : RelayMessage}
    (hx : x ∈ b.returned) : x.entry ∈ relayReturned d c.pool := by
  rw [h.returned]
  exact List.mem_map_of_mem hx

/-- A visible entry at or below the cursor was returned, or it has expired. -/
theorem Mirrors.passed (h : Mirrors strict d c b) {x : RelayMessage} (hx : x ∈ c.world.rows)
    (hd : x.forDeviceDilithiumPubkey = d) (hle : x.id ≤ relayCursor d c.pool) :
    x.entry ∈ relayReturned d c.pool ∨ x.expiresAt ≤ c.world.clock ∧ ¬ strict :=
  (b.passed x ((h.stored x).mpr ⟨hx, hd⟩) (hle.trans_eq h.cursor)).imp h.entry_of_returned (h.skipped x)

/-- The last step was an acknowledgement for the device `d`. -/
def Acks (d : Bytes) (tr tr' : History) : Prop :=
  ∃ t i n, tr' = tr ++ [(t, ⟨.sql (.deleteRelayUpTo d i), .ok n⟩)]

/-- An acknowledgement removes entries up to the cursor. -/
theorem Mirrors.acked (h : Mirrors strict d c b) (hc : Client codec verifyDetached d c)
    (hs : (postgres codec verifyDetached).Step c m c') (hack : Acks d c.trace c'.trace)
    {x : RelayMessage} (hx : x ∈ c.world.rows) (hx' : x ∉ c'.world.rows) :
    x.entry ∈ relayReturned d c.pool ∨ x.expiresAt ≤ c.world.clock ∧ ¬ strict := by
  obtain ⟨t, i, n, htrace⟩ := hack
  cases hs with
  | spawn j => simp at htrace
  | act ha => simp at htrace
  | @step u ω j o k r w hu hp =>
      cases (List.cons.inj (List.append_cancel_left htrace)).1
      obtain ⟨req, rfl, rfl, rfl, -⟩ := hc.guard hu
      rw [performPg_rows hp] at hx'
      have hpos := hc.cursor.position _ (List.mem_of_getElem? hu)
        (relayBusy_iff.mpr ⟨⟨_, _, rfl⟩, rfl⟩)
      have hpos : req.upToId.toInt = relayCursor req.forDeviceDilithiumPubkey c.pool := hpos
      simp only [relayEffect, List.mem_filter, hx, hpos, true_and, Bool.not_eq_true',
        Bool.not_eq_false, Bool.and_eq_true, decide_eq_true_eq, Int.ofNat_le] at hx'
      exact h.passed hx hx'.1 hx'.2

end

end ZenthDht
