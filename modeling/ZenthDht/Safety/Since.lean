import ZenthDht.Data.Signed
import ZenthDht.Safety.FriendPolls
import ZenthDht.Spec.Fetch
import Mathlib.Data.UInt
import Mathlib.Data.Int.ConditionallyCompleteOrder
import Mathlib.Order.ConditionallyCompleteLattice.Basic

/-!
# The since filters

Four polls select rows later than `since_timestamp`, a `u64`.  Two of them cast it to `i64`, which
wraps from `2 ^ 63` on; the other two make a date of the cast number, and of the epoch where there
is no such date.  PostgreSQL refuses a statement with a date before its own first one, so between
the first date of `chrono` and that of PostgreSQL these two select nothing.  A later
`since_timestamp` selects fewer rows exactly where no limit between the two values brings rows back
(`since_narrows`).
-/

namespace ZenthDht

open Conc Stmt

variable {codec : Codec} {verifyDetached : Bytes → Bytes → Bytes → Bool}
variable {c : State} {t : Nat} {db : Db} {now : NaiveDateTime} {u : Bytes} {s s' : UInt64}

/-! ## The polls -/

/-- The polls with a since filter. -/
inductive Poll
  | messages
  | friendRequests
  | friendResponses
  | myAccepted

namespace Poll

/-- The rows a poll loads. -/
abbrev Row : Poll → Type
  | messages => MessageModel
  | friendRequests => FriendRequestModel
  | friendResponses => FriendResponseModel
  | myAccepted => Bytes × Bytes × Bytes × NaiveDateTime

/-- The filter on a number. -/
def sinceNumber (s : UInt64) : Option Int64 := if 0 < s then some s.toInt64 else none

/-- The filter on a date. -/
def sinceDate (s : UInt64) : Option NaiveDateTime := if 0 < s then some (fromTimestamp s) else none

/-- The statement that loads the rows of the user `u` since `s`. -/
def load (u : Bytes) (s : UInt64) (now : NaiveDateTime) (limit : Nat) : Poll → Stmt
  | messages => .loadMessages u (sinceNumber s) now limit
  | friendRequests => .loadFriendRequests u (sinceNumber s)
  | friendResponses => .loadFriendResponses u (sinceDate s)
  | myAccepted => .loadAccepted u (sinceDate s)

end Poll

/-- The poll a request makes, with the user and the `since_timestamp` in it. -/
def Call.poll : Call → Option (Poll × Bytes × UInt64)
  | .fetchMessages req => some (.messages, req.userHash, req.sinceTimestamp)
  | .fetchFriendRequests req => some (.friendRequests, req.userHash, req.sinceTimestamp)
  | .fetchFriendResponses req => some (.friendResponses, req.userHash, req.sinceTimestamp)
  | .fetchMyAccepted req => some (.myAccepted, req.userHash, req.sinceTimestamp)
  | _ => none

/-- The statements of a poll: it reads the row of the user, and loads. -/
def Poll.Loads (p : Poll) (u : Bytes) (s : UInt64) : Op → Prop
  | .sql (.selectUser v) => v = u
  | .sql (.countMessages v _ _) => v = u
  | .sql stmt => ∃ now limit, stmt = p.load u s now limit
  | _ => True

/-- The queries that the handler of a poll makes are its own, for the user and the value it was
sent. -/
theorem poll_loads {call : Call} {p : Poll} (h : call.poll = some (p, u, s)) :
    (processCall codec call).Obeys (fun _ o ↦ p.Loads u s o) (fun _ _ ↦ True) [] := by
  cases call with
  | fetchMessages req =>
      obtain ⟨rfl, rfl, rfl⟩ := h
      refine Program.Obeys.bind_any ?_ fun past r ↦ trivial
      unfold fetchMessages
      refine obeys_sql rfl (fun e ↦ by cases e <;> trivial) fun user ↦ ?_
      refine obeys_call trivial fun valid ↦ ?_
      split
      · trivial
      refine obeys_utcNow trivial fun now ↦ ?_
      refine obeys_sql rfl (fun e ↦ trivial) fun total ↦ ?_
      refine obeys_sql ⟨now, _, rfl⟩ (fun e ↦ trivial) fun rows ↦ ?_
      exact obeys_currentMillis trivial fun ts ↦ trivial
  | fetchFriendRequests req =>
      obtain ⟨rfl, rfl, rfl⟩ := h
      refine Program.Obeys.bind_any ?_ fun past r ↦ trivial
      unfold fetchFriendRequests
      iterate 3
        split
        · trivial
      refine obeys_sql rfl (fun e ↦ by cases e <;> trivial) fun user ↦ ?_
      refine obeys_call trivial fun valid ↦ ?_
      split
      · trivial
      refine obeys_sql ⟨0, 0, rfl⟩ (fun e ↦ trivial) fun rows ↦ ?_
      exact obeys_currentTimestamp trivial fun ts ↦ trivial
  | fetchFriendResponses req =>
      obtain ⟨rfl, rfl, rfl⟩ := h
      refine Program.Obeys.bind_any ?_ fun past r ↦ trivial
      unfold fetchFriendResponses
      iterate 2
        split
        · trivial
      refine obeys_sql rfl (fun e ↦ by cases e <;> trivial) fun user ↦ ?_
      refine obeys_call trivial fun valid ↦ ?_
      split
      · trivial
      refine obeys_sql ⟨0, 0, rfl⟩ (fun e ↦ trivial) fun rows ↦ ?_
      exact obeys_currentTimestamp trivial fun ts ↦ trivial
  | fetchMyAccepted req =>
      obtain ⟨rfl, rfl, rfl⟩ := h
      refine Program.Obeys.bind_any ?_ fun past r ↦ trivial
      unfold fetchMyAccepted
      iterate 2
        split
        · trivial
      refine obeys_sql rfl (fun e ↦ by cases e <;> trivial) fun user ↦ ?_
      refine obeys_call trivial fun valid ↦ ?_
      split
      · trivial
      refine obeys_sql ⟨0, 0, rfl⟩ (fun e ↦ trivial) fun rows ↦ ?_
      exact obeys_currentTimestamp trivial fun ts ↦ trivial
  | _ => exact nomatch h

/-! ## What a poll selects -/

/-- The rows a statement has returned. -/
def returned {α : Type} (r : Except DieselError (List α)) : Set α :=
  {x | ∃ rows, r = .ok rows ∧ x ∈ rows}

namespace Poll

/-- The rows the poll selects, on whatever page they are. -/
def selected (db : Db) (now : NaiveDateTime) (u : Bytes) (s : UInt64) : (p : Poll) → Set p.Row
  | messages => {x | ∃ limit, x ∈ returned ((messages.load u s now limit).exec now db).1}
  | friendRequests => returned ((friendRequests.load u s now 0).exec now db).1
  | friendResponses => returned ((friendResponses.load u s now 0).exec now db).1
  | myAccepted => returned ((myAccepted.load u s now 0).exec now db).1

/-- The rows the poll would select without a filter. -/
def Candidate (db : Db) (now : NaiveDateTime) (u : Bytes) : (p : Poll) → p.Row → Prop
  | messages, x => x ∈ db.messages ∧ x.recipientHashId = u ∧ now < x.expiresAt
  | friendRequests, x => x ∈ db.friendRequests ∧ x.targetHashId = u
  | friendResponses, x => x ∈ db.friendResponses ∧ x.requesterHashId = u
  | myAccepted, x => ∃ r ∈ db.friendResponses, r.responderHashId = u ∧ r.accepted = true ∧
      ∃ y ∈ db.friendRequests, y.id = r.requestId ∧
        x = (y.requesterHashId, y.preKeyBundle, r.dilithiumSignature, r.createdAt)

/-- What the filter of a poll looks at. -/
def key : (p : Poll) → p.Row → Int
  | messages, x => x.serverTimestamp.toInt
  | friendRequests, x => x.timestamp.toInt
  | friendResponses, x => x.createdAt
  | myAccepted, x => x.2.2.2

/-- The bound that a date sets; above everything where PostgreSQL refuses the statement. -/
def bound (t : NaiveDateTime) : WithTop Int := if t < timestampMin then ⊤ else (t : Int)

/-- The lower bound of what a poll selects. -/
def lower (s : UInt64) : Poll → Option (WithTop Int)
  | messages | friendRequests => (sinceNumber s).map fun n ↦ (n.toInt : WithTop Int)
  | friendResponses | myAccepted => (sinceDate s).map bound

end Poll

theorem mem_returned {α : Type} {rows : List α} {x : α} :
    x ∈ returned (.ok rows : Except DieselError (List α)) ↔ x ∈ rows := by
  constructor
  · rintro ⟨_, ⟨⟩, hx⟩
    exact hx
  · intro hx
    exact ⟨rows, rfl, hx⟩

theorem after_number {since : Option Int64} {x : Int64} : after since x = true ↔
    ∀ b ∈ since.map (fun n ↦ (n.toInt : WithTop Int)), b < (x.toInt : WithTop Int) := by
  cases since with
  | none => simp [after]
  | some b => simp [after, Int64.lt_iff_toInt_lt]

/-- What a load with a date returns: nothing, or the rows after the date. -/
theorem mem_returned_date {α : Type} {since : Option NaiveDateTime} {rows : List α} {x : α} :
    x ∈ returned (if since.any fun t ↦ t < timestampMin then .error timestampOutOfRange
      else .ok rows) ↔ (∀ t ∈ since, timestampMin ≤ t) ∧ x ∈ rows := by
  cases since with
  | none => simp [mem_returned]
  | some t =>
      by_cases hlt : t < timestampMin
      · simp [hlt, returned]
      · simp [hlt, mem_returned, Int.not_lt.mp hlt]

theorem after_date {since : Option NaiveDateTime} {x : NaiveDateTime} :
    (∀ b ∈ since.map Poll.bound, b < (x : WithTop Int)) ↔
      (∀ t ∈ since, timestampMin ≤ t) ∧ after since x = true := by
  cases since with
  | none => simp [after]
  | some t =>
      simp only [Option.map_some, Option.mem_def, Option.some.injEq, forall_eq', Poll.bound, after,
        decide_eq_true_eq]
      split
      next hlt => simp [hlt]
      next hle => simp [Int.not_lt.mp hle]

/-- A page that is large enough has all the rows. -/
theorem mem_page {since : Option Int64} {x : MessageModel} :
    (∃ limit, x ∈ returned ((Stmt.loadMessages u since now limit).exec now db).1) ↔
      x ∈ db.messages ∧ selectsMessage u since now x = true := by
  rw [← List.mem_filter, ← List.mem_insertionSort fun x y ↦ x.serverTimestamp ≤ y.serverTimestamp]
  constructor
  · rintro ⟨limit, hx⟩
    exact List.mem_of_mem_take (mem_returned.mp hx)
  · intro hx
    obtain ⟨i, hi⟩ := List.mem_iff_getElem?.mp hx
    refine ⟨i + 1, mem_returned.mpr (List.mem_of_getElem? (i := i) ?_)⟩
    rw [List.getElem?_take, if_pos (Nat.lt_succ_self i)]
    exact hi

/-- The filter drops the rows up to its bound, and no other ones. -/
theorem Poll.mem_selected (p : Poll) {x : p.Row} :
    x ∈ p.selected db now u s ↔ p.Candidate db now u x ∧
      ∀ b ∈ p.lower s, b < (p.key x : WithTop Int) := by
  cases p with
  | messages =>
      refine mem_page.trans ?_
      simp only [selectsMessage, Bool.and_eq_true, decide_eq_true_eq, after_number, Candidate,
        lower, key, and_assoc]
  | friendRequests =>
      refine mem_returned.trans ?_
      simp only [List.mem_insertionSort, List.mem_filter, Bool.and_eq_true, decide_eq_true_eq,
        after_number, Candidate, lower, key, and_assoc]
  | friendResponses =>
      simp only [selected, load, Stmt.exec, apply_ite Prod.fst, mem_returned_date, List.mem_filter,
        Bool.and_eq_true, decide_eq_true_eq, Candidate, lower, key, after_date]
      constructor
      · rintro ⟨hrange, hx, hu, hafter⟩
        exact ⟨⟨hx, hu⟩, hrange, hafter⟩
      · rintro ⟨⟨hx, hu⟩, hrange, hafter⟩
        exact ⟨hrange, hx, hu, hafter⟩
  | myAccepted =>
      simp only [selected, load, Stmt.exec, apply_ite Prod.fst, mem_returned_date, List.mem_flatMap,
        List.mem_map, List.mem_filter, Bool.and_eq_true, decide_eq_true_eq, Candidate, lower, key,
        after_date]
      constructor
      · rintro ⟨hrange, r, ⟨hr, ⟨hu, ha⟩, hafter⟩, y, ⟨hy, hid⟩, rfl⟩
        exact ⟨⟨r, hr, hu, ha, y, hy, hid, rfl⟩, hrange, hafter⟩
      · rintro ⟨⟨r, hr, hu, ha, y, hy, hid, rfl⟩, hrange, hafter⟩
        exact ⟨hrange, r, ⟨hr, ⟨hu, ha⟩, hafter⟩, y, ⟨hy, hid⟩, rfl⟩

/-- The places in the order of its rows that a poll can be asked about. -/
def Poll.Place (k : Int) : Poll → Prop
  | messages | friendRequests => ∃ n : Int64, k = n.toInt
  | friendResponses | myAccepted => True

/-- A state with a row for the user at a place of the order. -/
theorem Poll.exists_candidate (p : Poll) {k : Int} (hk : p.Place k) (u : Bytes) :
    ∃ db now x, p.Candidate db now u x ∧ p.key x = k := by
  cases p with
  | messages =>
      obtain ⟨n, rfl⟩ := hk
      let x : MessageModel := ⟨1, [], [], u, [], [], 0, n, false, 0, 1⟩
      exact ⟨{ messages := [x] }, 0, x, ⟨List.mem_singleton.mpr rfl, rfl, Int.one_pos⟩, rfl⟩
  | friendRequests =>
      obtain ⟨n, rfl⟩ := hk
      let x : FriendRequestModel := ⟨1, [], u, [], [], none, n, 0⟩
      exact ⟨{ friendRequests := [x] }, 0, x, ⟨List.mem_singleton.mpr rfl, rfl⟩, rfl⟩
  | friendResponses =>
      let x : FriendResponseModel := ⟨1, 1, [], u, true, none, [], false, k⟩
      exact ⟨{ friendResponses := [x] }, 0, x, ⟨List.mem_singleton.mpr rfl, rfl⟩, rfl⟩
  | myAccepted =>
      let x : FriendResponseModel := ⟨1, 1, u, [], true, none, [], false, k⟩
      let y : FriendRequestModel := ⟨1, [], [], [], [], none, 0, 0⟩
      exact ⟨{ friendRequests := [y], friendResponses := [x] }, 0, ([], [], [], k),
        ⟨x, List.mem_singleton.mpr rfl, rfl, rfl, y, List.mem_singleton.mpr rfl, rfl, rfl⟩, rfl⟩

/-- Between a bound of the poll and a higher one there is a place for a row. -/
theorem Poll.exists_place (p : Poll) {a : WithTop Int} (ha : a ∈ p.lower s)
    (hbelow : ∀ b ∈ p.lower s', b < a) :
    ∃ k : Int, p.Place k ∧ (∀ b ∈ p.lower s', b < (k : WithTop Int)) ∧ (k : WithTop Int) ≤ a := by
  have hnumber (ha : a ∈ (sinceNumber s).map fun n ↦ (n.toInt : WithTop Int)) :
      ∃ n : Int64, a = (n.toInt : WithTop Int) := by
    obtain ⟨n, -, rfl⟩ := Option.map_eq_some_iff.mp ha
    exact ⟨n, rfl⟩
  have hdate (hplace : ∀ k, p.Place k) : ∃ k : Int, p.Place k ∧
      (∀ b ∈ p.lower s', b < (k : WithTop Int)) ∧ (k : WithTop Int) ≤ a := by
    induction a with
    | coe k => exact ⟨k, hplace k, hbelow, le_rfl⟩
    | top =>
        -- the earlier poll is refused, and the later one is not
        cases hb : p.lower s' with
        | none => exact ⟨0, hplace 0, nofun, le_top⟩
        | some b =>
            obtain ⟨b, rfl⟩ := WithTop.ne_top_iff_exists.mp (hbelow b hb).ne
            refine ⟨b + 1, hplace _, ?_, le_top⟩
            rintro _ ⟨⟩
            exact WithTop.coe_lt_coe.mpr (Int.lt_succ b)
  cases p with
  | messages | friendRequests =>
      obtain ⟨n, rfl⟩ := hnumber ha
      exact ⟨n.toInt, ⟨n, rfl⟩, hbelow, le_rfl⟩
  | friendResponses | myAccepted => exact hdate fun _ ↦ trivial

/-- A later filter selects fewer rows in every state if and only if its bound is not lower. -/
theorem Poll.selected_subset_iff (p : Poll) :
    (∀ db now u, p.selected db now u s' ⊆ p.selected db now u s) ↔
      ∀ a ∈ p.lower s, ∃ b ∈ p.lower s', a ≤ b := by
  constructor
  · intro hsub a ha
    by_contra hnone
    have hbelow (b : WithTop Int) (hb : b ∈ p.lower s') : b < a :=
      not_le.mp fun hle ↦ hnone ⟨b, hb, hle⟩
    obtain ⟨k, hk, hafter, hka⟩ := p.exists_place ha hbelow
    obtain ⟨db, now, x, hx, rfl⟩ := p.exists_candidate hk []
    have hselected : x ∈ p.selected db now [] s' := p.mem_selected.mpr ⟨hx, hafter⟩
    exact hka.not_gt ((p.mem_selected.mp (hsub db now [] hselected)).2 a ha)
  · intro hle db now u x hx
    obtain ⟨hx, hafter⟩ := p.mem_selected.mp hx
    refine p.mem_selected.mpr ⟨hx, fun a ha ↦ ?_⟩
    obtain ⟨b, hb, hab⟩ := hle a ha
    exact lt_of_le_of_lt hab (hafter b hb)

/-! ## The limits -/

/-- The last second of the calendar. -/
def lastSecond : Nat := 8210266876799

/-- The first `u64` whose cast is a second of the calendar again. -/
def firstWrapped : Nat := 2 ^ 64 - 8334601228800

/-- The first of these that PostgreSQL has a date for. -/
def firstKnown : Nat := 2 ^ 64 - 210866803200

/-- The first value is 0, or no limit of the poll between the two brings rows back. -/
def Poll.SameSide (s s' : UInt64) : Poll → Prop
  | messages | friendRequests => s = 0 ∨ s'.toNat < 2 ^ 63 ∨ 2 ^ 63 ≤ s.toNat
  | friendResponses | myAccepted => s = 0 ∨ s'.toNat ≤ lastSecond ∨
      lastSecond < s.toNat ∧ s'.toNat < firstWrapped ∨
      firstWrapped ≤ s'.toNat ∧ s'.toNat < firstKnown ∨ firstKnown ≤ s.toNat

theorem lastSecond_eq : lastSecond = 8210266876799 := rfl

theorem firstWrapped_eq : firstWrapped = 18446735739108322816 := rfl

theorem firstKnown_eq : firstKnown = 18446743862842748416 := rfl

/-- The date that `from_timestamp` makes of the number, or the epoch. -/
theorem fromTimestamp_eq (s : UInt64) : fromTimestamp s =
    if s.toNat ≤ lastSecond then seconds s.toNat
    else if s.toNat < firstWrapped then 0
    else seconds (s.toNat - 2 ^ 64) := by
  have hs : s.toNat < 2 ^ 64 := s.toNat_lt
  have hlimit := lastSecond_eq
  have hwrap := firstWrapped_eq
  have hrange (n : Int) : (naiveDateTimeMin ≤ seconds n ∧ seconds n ≤ naiveDateTimeMax) ↔
      -8334601228800 ≤ n ∧ n ≤ 8210266876799 := by
    change (-8334601228800000000 ≤ n * 1000000 ∧ n * 1000000 ≤ 8210266876799999999) ↔ _
    omega
  unfold fromTimestamp
  simp only [hrange, toInt_toInt64]
  by_cases hsign : s.toNat < 2 ^ 63
  · rw [if_pos hsign]
    by_cases hlast : s.toNat ≤ lastSecond
    · rw [if_pos ⟨by omega, by omega⟩, if_pos hlast]
    · rw [if_neg (by omega), if_neg hlast, if_pos (by omega)]
  · rw [if_neg hsign, if_neg (by omega : ¬ s.toNat ≤ lastSecond)]
    by_cases hfirst : s.toNat < firstWrapped
    · rw [if_neg (by omega), if_pos hfirst]
    · rw [if_pos ⟨by omega, by omega⟩, if_neg hfirst]

/-- PostgreSQL knows all dates of the cast but those between the two first ones. -/
theorem fromTimestamp_lt (s : UInt64) : fromTimestamp s < timestampMin ↔
    firstWrapped ≤ s.toNat ∧ s.toNat < firstKnown := by
  have hs : s.toNat < 2 ^ 64 := s.toNat_lt
  have hlimit := lastSecond_eq
  have hwrap := firstWrapped_eq
  have hknown := firstKnown_eq
  have hmin (n : Int) : seconds n < timestampMin ↔ n < -210866803200 := by
    change n * 1000000 < -210866803200000000 ↔ _
    omega
  have hzero : seconds 0 = 0 := rfl
  rw [fromTimestamp_eq, ← hzero]
  repeat' split
  all_goals
    rw [hmin]
    omega

/-- The order of the dates is that of the numbers between the limits. -/
theorem fromTimestamp_le (hpos : 0 < s.toNat) (h : s.toNat ≤ s'.toNat) :
    fromTimestamp s ≤ fromTimestamp s' ↔ s'.toNat ≤ lastSecond ∨
      lastSecond < s.toNat ∧ s'.toNat < firstWrapped ∨ firstWrapped ≤ s.toNat := by
  have hs : s'.toNat < 2 ^ 64 := s'.toNat_lt
  have hlimit := lastSecond_eq
  have hwrap := firstWrapped_eq
  have hseconds (m n : Int) : seconds m ≤ seconds n ↔ m ≤ n := by
    change m * 1000000 ≤ n * 1000000 ↔ _
    omega
  have hzero : seconds 0 = 0 := rfl
  rw [fromTimestamp_eq, fromTimestamp_eq, ← hzero]
  repeat' split
  all_goals
    rw [hseconds]
    omega

/-- The order of the bounds: those that PostgreSQL refuses are above all others. -/
theorem Poll.bound_le (hpos : 0 < s.toNat) (h : s.toNat ≤ s'.toNat) :
    bound (fromTimestamp s) ≤ bound (fromTimestamp s') ↔ s'.toNat ≤ lastSecond ∨
      lastSecond < s.toNat ∧ s'.toNat < firstWrapped ∨
      firstWrapped ≤ s'.toNat ∧ s'.toNat < firstKnown ∨ firstKnown ≤ s.toNat := by
  have hlimit := lastSecond_eq
  have hwrap := firstWrapped_eq
  have hknown := firstKnown_eq
  have hdate := fromTimestamp_le hpos h
  simp only [bound, fromTimestamp_lt]
  split
  next hrefused =>
    split
    next hrefused' => simp [hrefused']
    next hknown' =>
      rw [top_le_iff]
      refine iff_of_false WithTop.coe_ne_top ?_
      omega
  next hknown' =>
    split
    next hrefused' => simp [hrefused']
    next hknown'' =>
      rw [WithTop.coe_le_coe, hdate]
      omega

/-- A later filter has no lower bound than an earlier one between the limits, and nowhere else. -/
theorem Poll.lower_le (p : Poll) (h : s ≤ s') :
    (∀ a ∈ p.lower s, ∃ b ∈ p.lower s', a ≤ b) ↔ p.SameSide s s' := by
  have hle : s.toNat ≤ s'.toNat := UInt64.le_iff_toNat_le.mp h
  by_cases hs : s = 0
  · subst hs
    cases p <;> simp [lower, sinceNumber, sinceDate, SameSide]
  have hpos : 0 < s.toNat := Nat.pos_of_ne_zero fun h ↦ hs (UInt64.toNat_inj.mp h)
  have hs₀ : 0 < s := UInt64.lt_iff_toNat_lt.mpr hpos
  have hs₀' : 0 < s' := UInt64.lt_iff_toNat_lt.mpr (Nat.lt_of_lt_of_le hpos hle)
  have hnumber : s.toInt64.toInt ≤ s'.toInt64.toInt ↔ s'.toNat < 2 ^ 63 ∨ 2 ^ 63 ≤ s.toNat :=
    Int64.le_iff_toInt_le.symm.trans (toInt64_le h)
  have hdate := bound_le hpos hle
  cases p <;> simp [lower, sinceNumber, sinceDate, SameSide, hs, hs₀, hs₀', hnumber, hdate]

/-- A later `since_timestamp` selects fewer rows in every state exactly on one side of the limits. -/
theorem since_narrows (p : Poll) (h : s ≤ s') :
    (∀ db now u, p.selected db now u s' ⊆ p.selected db now u s) ↔ p.SameSide s s' :=
  p.selected_subset_iff.trans (p.lower_le h)

namespace Sample

/-- User 1 asks for the friendship of user 2, at the timestamp 1 of its clock. -/
def askedRun : Moves :=
  registers 0 1 ++ registers 1 2 ++
  .spawn (.request (.contact ⟨word 1, word 2, [3], signature, [], 1⟩)) :: steps 2 6

end Sample

open Sample in
/-- The friend requests of user 2 from 0 and from 5 on. -/
theorem since_narrows_askedRun : ∃ c : State, final friendSigned askedRun = some c ∧
    Poll.friendRequests.selected c.world.db c.world.clock (word 2) 5 ⊆
      Poll.friendRequests.selected c.world.db c.world.clock (word 2) 1 := by
  have hrun : (final friendSigned askedRun).isSome = true := by decide +kernel
  obtain ⟨c, hc⟩ := Option.isSome_iff_exists.mp hrun
  have hle : (1 : UInt64) ≤ 5 := by decide
  exact ⟨c, hc, (since_narrows .friendRequests hle).mpr (.inr (.inl (by decide))) _ _ _⟩

open Sample in
/-- From 5 on user 2 has no friend request, from `2 ^ 63` on it has the one of user 1. -/
theorem narrows_not_across_sign : ∃ c : State, final friendSigned askedRun = some c ∧
    ¬ Poll.friendRequests.selected c.world.db c.world.clock (word 2) (2 ^ 63) ⊆
      Poll.friendRequests.selected c.world.db c.world.clock (word 2) 5 := by
  have hrun : ((final friendSigned askedRun).map fun c ↦
      c.world.db.friendRequests.map fun x ↦ (x.targetHashId, x.timestamp)) =
      some [(word 2, 1)] := by decide +kernel
  obtain ⟨c, hc, hview⟩ := Option.map_eq_some_iff.mp hrun
  obtain ⟨x, hx, hkey⟩ : ∃ x ∈ c.world.db.friendRequests,
      (x.targetHashId, x.timestamp) = (word 2, 1) := by
    rw [← List.mem_map, hview]
    exact List.mem_singleton.mpr rfl
  obtain ⟨hu, ht⟩ := Prod.mk.inj hkey
  have hcandidate : Poll.friendRequests.Candidate c.world.db c.world.clock (word 2) x := ⟨hx, hu⟩
  have hone : Poll.friendRequests.key x = 1 := congrArg Int64.toInt ht
  refine ⟨c, hc, fun hsub ↦ ?_⟩
  have hselected := (Poll.mem_selected _).mp (hsub ((Poll.mem_selected _).mpr ⟨hcandidate, ?_⟩))
  · have hlower : Poll.friendRequests.lower 5 = some ((5 : Int) : WithTop Int) := rfl
    have hlt := hselected.2 _ hlower
    rw [hone] at hlt
    exact absurd (WithTop.coe_lt_coe.mp hlt) (by decide)
  · have hpos : (0 : UInt64) < 2 ^ 63 := by decide +kernel
    have hcast : (2 ^ 63 : UInt64).toInt64.toInt = -2 ^ 63 := by decide +kernel
    have hlower : Poll.friendRequests.lower (2 ^ 63) = some ((-2 ^ 63 : Int) : WithTop Int) := by
      rw [Poll.lower, Poll.sinceNumber, if_pos hpos, Option.map_some, hcast]
    intro b hb
    obtain rfl := Option.some.inj (hlower.symm.trans hb)
    rw [hone]
    exact WithTop.coe_lt_coe.mpr (by decide)

end ZenthDht
