import ZenthDht.Data.Firsts
import ZenthDht.Safety.PrekeyAnswers
import ZenthDht.Safety.Prekeys

/-!
# The queue of one-time pre-keys

The rows of a user in the order of their ids are a queue: UPLOAD_PREKEYS and REPLENISH_PREKEYS
append the pre-keys whose id is new, FETCH_PREKEY_BUNDLE marks the first row that is not marked,
and nothing else touches them.  So as long as requests run one after another, the marked rows come
before the others, what has been served is a prefix of what has been accepted, and the counts that
are reported are those of the rest (`prekeys_fifo`).
-/

namespace ZenthDht

open Conc Stmt

variable {codec : Codec} {verifyDetached : Bytes → Bytes → Bytes → Bool}
variable {c c' c₁ c₂ : State} {db db' : Db} {now : NaiveDateTime} {s : Stmt} {u : Bytes}

/-! ## Rows -/

/-- The id and the key of a one-time pre-key, as requests and responses have them. -/
abbrev PrekeyPair : Type := UInt32 × Bytes

def OneTimePreKey.pair (k : OneTimePreKey) : PrekeyPair := (k.preKeyId, k.publicKey)

def NewOneTimePrekey.pair (p : NewOneTimePrekey) : PrekeyPair := (p.prekeyId.toUInt32, p.publicKey)

def OneTimePrekey.pair (x : OneTimePrekey) : PrekeyPair := (x.prekeyId.toUInt32, x.publicKey)

/-- Ids survive the column of type `INTEGER`. -/
theorem pair_newPrekeys (u : Bytes) (ks : List OneTimePreKey) :
    (newPrekeys u ks).map NewOneTimePrekey.pair = ks.map OneTimePreKey.pair := by
  rw [newPrekeys, List.map_map]
  refine List.map_congr_left fun k _ ↦ ?_
  simp only [Function.comp_apply, NewOneTimePrekey.pair, OneTimePreKey.pair,
    UInt32.toUInt32_toInt32]

/-- An INSERT of pre-keys of `u` appends rows: those of the pairs whose id is new. -/
theorem insertPrekeys_rows (now : NaiveDateTime) {ps : List NewOneTimePrekey}
    (hps : ∀ p ∈ ps, p.userHashId = u) {rows l : List OneTimePrekey} {seq n : Nat}
    (hrows : l.Perm (rows.filter fun x ↦ x.userHashId = u))
    (hsorted : l.Pairwise fun x y ↦ x.id < y.id) (hbelow : ∀ x ∈ l, x.id < seq) :
    ∃ new, (l ++ new).Perm ((ps.foldl (insertPrekey now) (rows, seq, n)).1.filter fun x ↦
        x.userHashId = u) ∧ (l ++ new).Pairwise (fun x y ↦ x.id < y.id) ∧
      (∀ x ∈ new, x.used = false) ∧
      (ps.foldl (insertPrekey now) (rows, seq, n)).2.2 = n + new.length ∧
      (l ++ new).map OneTimePrekey.pair =
        addFirsts Prod.fst (l.map OneTimePrekey.pair) (ps.map NewOneTimePrekey.pair) := by
  induction ps generalizing rows l seq n with
  | nil => exact ⟨[], by simpa using hrows, by simpa using hsorted, nofun, rfl, by simp⟩
  | cons p ps ih =>
      obtain ⟨hp, hps⟩ := List.forall_mem_cons.mp hps
      -- a row of `u` with the id of the pair, in the table as in the queue
      have hany : (rows.any fun x ↦ x.userHashId = p.userHashId && x.prekeyId = p.prekeyId) =
          (l.map OneTimePrekey.pair).any fun x ↦ x.1 = p.pair.1 := by
        rw [Bool.eq_iff_iff, List.any_map, List.any_eq_true, List.any_eq_true]
        have hid {x : OneTimePrekey} : x.prekeyId.toUInt32 = p.prekeyId.toUInt32 ↔
            x.prekeyId = p.prekeyId :=
          ⟨fun h ↦ by simpa using congrArg UInt32.toInt32 h, congrArg _⟩
        simp only [Function.comp_apply, Bool.and_eq_true, decide_eq_true_eq, OneTimePrekey.pair,
          NewOneTimePrekey.pair, hid, hrows.mem_iff, List.mem_filter, hp]
        exact ⟨fun ⟨x, hx, hu, hi⟩ ↦ ⟨x, ⟨hx, hu⟩, hi⟩, fun ⟨x, ⟨hx, hu⟩, hi⟩ ↦ ⟨x, hx, hu, hi⟩⟩
      simp only [List.foldl_cons, insertPrekey, List.map_cons, addFirsts_cons, addFirst, hany]
      split
      · exact ih hps hrows hsorted fun x hx ↦ Nat.lt_succ_of_lt (hbelow x hx)
      · obtain ⟨new, hrows', hsorted', hunused, hlen, hpairs⟩ := @ih hps
          (rows ++ [⟨seq, p.userHashId, p.prekeyId, p.publicKey, false, now⟩])
          (l ++ [⟨seq, p.userHashId, p.prekeyId, p.publicKey, false, now⟩]) (seq + 1) (n + 1)
          (by simpa [hp] using hrows.append_right _)
          (by
            rw [List.pairwise_append]
            refine ⟨hsorted, List.pairwise_singleton _ _, fun x hx y hy ↦ ?_⟩
            obtain rfl := List.mem_singleton.mp hy
            exact hbelow x hx)
          (by
            rw [List.forall_mem_append]
            exact ⟨fun x hx ↦ Nat.lt_succ_of_lt (hbelow x hx), by simp⟩)
        refine ⟨⟨seq, p.userHashId, p.prekeyId, p.publicKey, false, now⟩ :: new, ?_, ?_, ?_, ?_, ?_⟩
        · rwa [List.append_cons]
        · rwa [List.append_cons]
        · exact List.forall_mem_cons.mpr ⟨rfl, hunused⟩
        · rw [hlen, List.length_cons]
          omega
        · rw [List.append_cons, hpairs, List.map_append]
          rfl

/-- An INSERT of pre-keys of others. -/
theorem insertPrekeys_others (now : NaiveDateTime) {ps : List NewOneTimePrekey}
    (hps : ∀ p ∈ ps, p.userHashId ≠ u) (rows : List OneTimePrekey) (seq n : Nat) :
    ((ps.foldl (insertPrekey now) (rows, seq, n)).1.filter fun x ↦ x.userHashId = u) =
      rows.filter fun x ↦ x.userHashId = u := by
  induction ps generalizing rows seq n with
  | nil => rfl
  | cons p ps ih =>
      obtain ⟨hp, hps⟩ := List.forall_mem_cons.mp hps
      simp only [List.foldl_cons, insertPrekey]
      split
      · exact ih hps _ _ _
      · rw [ih hps, List.filter_append]
        simp [hp]

/-- The rows of `u` in the order of their ids: those of `marked` are used, those of `rest` are
not. -/
structure Db.PrekeyQueue (db : Db) (u : Bytes) (marked rest : List OneTimePrekey) : Prop where
  serial : Serial OneTimePrekey.id db.oneTimePrekeys db.seq.oneTimePrekeys
  rows : (marked ++ rest).Perm (db.oneTimePrekeys.filter fun x ↦ x.userHashId = u)
  sorted : (marked ++ rest).Pairwise fun x y ↦ x.id < y.id
  used : ∀ x ∈ marked, x.used = true
  unused : ∀ x ∈ rest, x.used = false

namespace Db.PrekeyQueue

variable {marked rest : List OneTimePrekey}

theorem same (h : db.PrekeyQueue u marked rest) (hs : db.Same db') :
    db'.PrekeyQueue u marked rest :=
  { h with
    serial := hs.seq ▸ h.serial.perm hs.oneTimePrekeys
    rows := h.rows.trans (hs.oneTimePrekeys.filter _) }

theorem mem (h : db.PrekeyQueue u marked rest) {x : OneTimePrekey} :
    x ∈ marked ++ rest ↔ x ∈ db.oneTimePrekeys ∧ x.userHashId = u := by
  rw [h.rows.mem_iff, List.mem_filter, decide_eq_true_eq]

/-- There are no more rows than ids that were drawn. -/
theorem length_le (h : db.PrekeyQueue u marked rest) :
    (marked ++ rest).length ≤ db.seq.oneTimePrekeys := by
  rw [h.rows.length_eq]
  exact (List.length_filter_le _ _).trans h.serial.length_le

/-! ## What is read -/

/-- The unused rows of the table, in the order of their ids. -/
theorem select_eq (h : db.PrekeyQueue u marked rest) :
    (db.oneTimePrekeys.filter fun x ↦ x.userHashId = u && !x.used).insertionSort
      (fun x y ↦ x.id ≤ y.id) = rest := by
  have hfilter : ((marked ++ rest).filter fun x ↦ !x.used).Perm
      (db.oneTimePrekeys.filter fun x ↦ x.userHashId = u && !x.used) := by
    have hperm := h.rows.filter fun x ↦ !x.used
    rw [List.filter_filter] at hperm
    refine hperm.trans (.of_eq (List.filter_congr fun x _ ↦ ?_))
    exact Bool.and_comm _ _
  have hrest : (marked ++ rest).filter (fun x ↦ !x.used) = rest := by
    rw [List.filter_append, List.filter_eq_nil_iff.mpr, List.nil_append,
      List.filter_eq_self.mpr]
    · exact fun x hx ↦ by rw [h.unused x hx]; rfl
    · exact fun x hx ↦ by rw [h.used x hx]; simp
  rw [hrest] at hfilter
  have hsorted : rest.Pairwise fun x y ↦ x.id < y.id := (List.pairwise_append.mp h.sorted).2.1
  refine @List.Perm.eq_of_pairwise _ (fun x y ↦ x.id ≤ y.id) _ _ ?_
    (List.pairwise_insertionSort _ _) (hsorted.imp Nat.le_of_lt)
    ((List.perm_insertionSort _ _).trans hfilter.symm)
  intro x y hx hy hxy hyx
  have hx' := List.mem_of_mem_filter ((List.perm_insertionSort _ _).mem_iff.mp hx)
  have hy' := (h.mem.mp (List.mem_append_right _ hy)).1
  exact h.serial.eq_of_key hx' hy' (Nat.le_antisymm hxy hyx)

/-- A selection gives the head of the rest. -/
theorem select (h : db.PrekeyQueue u marked rest) :
    ((selectUnusedPrekey u).exec now db).1 =
      first (rest.map fun x ↦ (x.id, x.prekeyId, x.publicKey)) := by
  simp only [Stmt.exec, h.select_eq]

/-- A count is that of the rest. -/
theorem count (h : db.PrekeyQueue u marked rest) :
    ((countUnusedPrekeys u).exec now db).1 = .ok rest.length := by
  simp only [Stmt.exec]
  rw [← h.select_eq, List.length_insertionSort, List.countP_eq_length_filter]

/-! ## What is written -/

/-- A selected row is marked. -/
theorem mark {x : OneTimePrekey} (h : db.PrekeyQueue u marked (x :: rest)) :
    ((markPrekeyUsed x.id).exec now db).2.PrekeyQueue u
      (marked ++ [{ x with used := true }]) rest := by
  obtain ⟨-, htail, hcross⟩ := List.pairwise_append.mp h.sorted
  obtain ⟨hhead, -⟩ := List.pairwise_cons.mp htail
  -- marking the row `x` leaves the other rows of the queue alone
  have hmap : (marked ++ x :: rest).map
      (fun y ↦ if y.id = x.id then { y with used := true } else y) =
      (marked ++ [{ x with used := true }]) ++ rest := by
    have hother {l : List OneTimePrekey} (hne : ∀ y ∈ l, y.id ≠ x.id) :
        l.map (fun y ↦ if y.id = x.id then { y with used := true } else y) = l := by
      refine (List.map_congr_left fun y hy ↦ ?_).trans (List.map_id l)
      exact if_neg (hne y hy)
    rw [List.map_append, List.map_cons, if_pos rfl, List.append_assoc, List.singleton_append,
      hother fun y hy ↦ Nat.ne_of_lt (hcross y hy x List.mem_cons_self),
      hother fun y hy ↦ Nat.ne_of_gt (hhead y hy)]
  refine ⟨serial_oneTimePrekeys_exec h.serial, ?_, ?_, ?_, fun y hy ↦ ?_⟩
  · rw [← hmap]
    have hperm := h.rows.map fun y ↦ if y.id = x.id then { y with used := true } else y
    refine hperm.trans (.of_eq ?_)
    simp only [Stmt.exec]
    rw [List.filter_map]
    congr 1
    refine List.filter_congr fun y _ ↦ ?_
    simp only [Function.comp_apply]
    split <;> rfl
  · have hsorted := h.sorted
    rw [← hmap]
    refine hsorted.map _ fun y z hyz ↦ ?_
    split <;> split <;> exact hyz
  · rw [List.forall_mem_append]
    exact ⟨h.used, by simp⟩
  · exact h.unused y (List.mem_cons_of_mem _ hy)

/-- An INSERT of pre-keys of `u` that succeeds appends those whose id is new, and returns their
number. -/
theorem insert (h : db.PrekeyQueue u marked rest) {ps : List NewOneTimePrekey}
    (hps : ∀ p ∈ ps, p.userHashId = u) {n : Nat}
    (hok : ((insertPrekeys ps).exec now db).1 = .ok n) :
    ∃ new, ((insertPrekeys ps).exec now db).2.PrekeyQueue u marked (rest ++ new) ∧
      n = new.length ∧ (marked ++ (rest ++ new)).map OneTimePrekey.pair =
        addFirsts Prod.fst ((marked ++ rest).map OneTimePrekey.pair)
          (ps.map NewOneTimePrekey.pair) := by
  obtain ⟨new, hrows, hsorted, hunused, hlen, hpairs⟩ := insertPrekeys_rows now hps (n := 0) h.rows
    h.sorted fun x hx ↦ h.serial.below x (h.mem.mp hx).1
  have hserial := @serial_oneTimePrekeys_exec now db (.insertPrekeys ps) h.serial
  simp only [Stmt.exec] at hok hserial ⊢
  split at hok
  · exact nomatch hok
  next hfk =>
    rw [if_neg hfk] at hserial ⊢
    rw [List.append_assoc] at hrows hsorted hpairs
    obtain rfl := Except.ok.inj hok
    refine ⟨new, ⟨hserial, hrows, hsorted, h.used, ?_⟩, by rw [hlen, Nat.zero_add], hpairs⟩
    exact List.forall_mem_append.mpr ⟨h.unused, hunused⟩

end Db.PrekeyQueue

/-- The statement leaves the pre-keys of `u` alone. -/
def Stmt.Spares (db : Db) (u : Bytes) : Stmt → Prop
  | .insertPrekeys ps => ∀ p ∈ ps, p.userHashId ≠ u
  | .markPrekeyUsed i => ∀ x ∈ db.oneTimePrekeys, x.userHashId = u → x.id ≠ i
  | .deleteUser v => v ≠ u
  | _ => True

theorem Stmt.Spares.rows (hs : s.Spares db u) :
    ((s.exec now db).2.oneTimePrekeys.filter fun x ↦ x.userHashId = u) =
      db.oneTimePrekeys.filter fun x ↦ x.userHashId = u := by
  cases s with
  | insertPrekeys ps =>
      simp only [Stmt.exec]
      split
      · rfl
      · exact insertPrekeys_others now hs _ _ _
  | markPrekeyUsed i =>
      simp only [Stmt.exec]
      rw [List.filter_map]
      have hfilter : db.oneTimePrekeys.filter ((fun x ↦ decide (x.userHashId = u)) ∘
          fun x ↦ if x.id = i then { x with used := true } else x) =
          db.oneTimePrekeys.filter fun x ↦ x.userHashId = u := by
        refine List.filter_congr fun x _ ↦ ?_
        simp only [Function.comp_apply]
        split <;> rfl
      rw [hfilter]
      refine (List.map_congr_left fun x hx ↦ ?_).trans (List.map_id _)
      obtain ⟨hx, hu⟩ := List.mem_filter.mp hx
      exact if_neg (hs x hx (of_decide_eq_true hu))
  | deleteUser v =>
      simp only [Stmt.exec]
      split
      · simp only [removeUser, removeFriendRequests, List.filter_filter]
        refine List.filter_congr fun x _ ↦ ?_
        by_cases hu : x.userHashId = u
        · simp [hu, Ne.symm hs]
        · simp [hu]
      · rfl
  | _ =>
      simp only [Stmt.exec]
      repeat' split
      all_goals rfl

theorem Db.PrekeyQueue.spared {marked rest : List OneTimePrekey}
    (h : db.PrekeyQueue u marked rest) (hs : s.Spares db u) :
    (s.exec now db).2.PrekeyQueue u marked rest :=
  { h with
    serial := serial_oneTimePrekeys_exec h.serial
    rows := h.rows.trans (.of_eq hs.rows.symm) }

/-- No pre-key of `u` is touched at the event, whatever the rows. -/
def Passive (u : Bytes) (e : Event Res) : Prop := ∀ db s, okStmt e = some s → s.Spares db u

/-- Events that touch no pre-key of `u` leave the queue as it is. -/
theorem Replays.queue {past : Past} {marked rest : List OneTimePrekey} (hr : Replays past db db')
    (hp : ∀ e ∈ past, Passive u e) (h : db.PrekeyQueue u marked rest) :
    db'.PrekeyQueue u marked rest := by
  induction past generalizing db with
  | nil => exact h.same hr
  | cons e past ih =>
      obtain ⟨db₁, he, hr⟩ := hr
      obtain ⟨hpe, hp⟩ := List.forall_mem_cons.mp hp
      refine ih hr hp ?_
      obtain ⟨o, r⟩ := e
      cases o with
      | sql s =>
          obtain ⟨db₀, now, hsame, ⟨rfl, rfl⟩ | ⟨rfl, -⟩⟩ := he
          · have h₀ := h.same hsame
            rcases exec_ok_or_unchanged now db₀ s with ⟨a, hok⟩ | ⟨seq, hdb⟩
            · refine h₀.spared (hpe db₀ s ?_)
              rw [hok]
              rfl
            · refine { h₀ with serial := serial_oneTimePrekeys_exec h₀.serial, rows := ?_ }
              rw [hdb]
              exact h₀.rows
          · exact h.same hsame
      | _ => exact h.same he

/-! ## Single events -/

section

variable {marked rest : List OneTimePrekey}

/-- What a statement that does not fail for a reason of its own has returned. -/
theorem Effect.executed {r : Except DieselError s.Out} (h : Effect db db' ⟨.sql s, r⟩)
    (hr : ∀ e, r ≠ .error (.other e)) :
    ∃ db₀ now, db.Same db₀ ∧ r = (s.exec now db₀).1 ∧ db' = (s.exec now db₀).2 := by
  obtain ⟨db₀, now, hsame, ⟨hr', hdb⟩ | ⟨-, e, he⟩⟩ := h
  · exact ⟨db₀, now, hsame, hr', hdb⟩
  · exact absurd he (hr e)

theorem Effect.insertPrekeys {v : Bytes} {ks : List OneTimePreKey} {n : Nat}
    (h : Effect db db' ⟨.sql (.insertPrekeys (newPrekeys v ks)), .ok n⟩)
    (hq : db.PrekeyQueue u marked rest) :
    ∃ new, db'.PrekeyQueue u marked (rest ++ new) ∧ (v = u → n = new.length) ∧
      (marked ++ (rest ++ new)).map OneTimePrekey.pair =
        addFirsts Prod.fst ((marked ++ rest).map OneTimePrekey.pair)
          (if v = u then ks.map OneTimePreKey.pair else []) := by
  obtain ⟨db₀, now, hsame, hok, rfl⟩ := h.executed nofun
  have hps : ∀ p ∈ newPrekeys v ks, p.userHashId = v := by
    simp [newPrekeys]
  have h₀ := hq.same hsame
  split
  next hv =>
    subst hv
    obtain ⟨new, hnew, hlen, hpairs⟩ := h₀.insert hps hok.symm
    exact ⟨new, hnew, fun _ ↦ hlen, by rw [hpairs, pair_newPrekeys]⟩
  next hv =>
    refine ⟨[], ?_, fun h ↦ absurd h hv, by simp⟩
    rw [List.append_nil]
    exact h₀.spared fun p hp heq ↦ hv ((hps p hp).symm.trans heq)

theorem Effect.countUnusedPrekeys {n : Nat}
    (h : Effect db db' ⟨.sql (.countUnusedPrekeys u), .ok n⟩)
    (hq : db.PrekeyQueue u marked rest) : n = rest.length ∧ db'.PrekeyQueue u marked rest := by
  obtain ⟨db₀, now, hsame, hok, rfl⟩ := h.executed nofun
  have h₀ := hq.same hsame
  rw [h₀.count] at hok
  exact ⟨Except.ok.inj hok, h₀⟩

theorem Effect.selectNone (h : Effect db db' ⟨.sql (.selectUnusedPrekey u), .error .notFound⟩)
    (hq : db.PrekeyQueue u marked rest) : rest = [] := by
  obtain ⟨db₀, now, hsame, hok, rfl⟩ := h.executed nofun
  rw [(hq.same hsame).select] at hok
  cases rest with
  | nil => rfl
  | cons x rest => exact nomatch hok

/-- A selection and the mark of the row it has given: the head of the queue moves. -/
theorem Effect.serve {v : Bytes} {id : Nat} {prekeyId : Int32} {publicKey : Bytes} {n : Nat}
    {db₁ : Db} (h : Effect db db₁ ⟨.sql (.selectUnusedPrekey v), .ok (id, prekeyId, publicKey)⟩)
    (h' : Effect db₁ db' ⟨.sql (.markPrekeyUsed id), .ok n⟩)
    (hq : db.PrekeyQueue u marked rest) :
    if v = u then ∃ x rest', rest = x :: rest' ∧ x.pair = (prekeyId.toUInt32, publicKey) ∧
      db'.PrekeyQueue u (marked ++ [{ x with used := true }]) rest'
    else db'.PrekeyQueue u marked rest := by
  obtain ⟨db₀, now, hsame, hok, rfl⟩ := h.executed nofun
  obtain ⟨db₂, now', hsame', -, rfl⟩ := h'.executed nofun
  have h₀ := hq.same hsame
  have h₂ : db₂.PrekeyQueue u marked rest := h₀.same hsame'
  split
  next hv =>
    subst hv
    rw [h₀.select] at hok
    cases rest with
    | nil => exact nomatch hok
    | cons x rest =>
        simp only [List.map_cons, first, Except.ok.injEq, Prod.mk.injEq] at hok
        obtain ⟨rfl, rfl, rfl⟩ := hok
        exact ⟨x, rest, rfl, rfl, h₂.mark⟩
  next hv =>
    obtain ⟨x, hx, rfl, hxv, -⟩ := selectUnusedPrekey_sound hok.symm
    refine h₂.spared fun y hy hyu hid ↦ hv ?_
    obtain rfl := h₂.serial.eq_of_key hy (hsame'.oneTimePrekeys.mem_iff.mp hx) hid
    exact hxv.symm.trans hyu

end

/-! ## Exchanges -/

/-- The event is an INSERT of pre-keys that succeeded. -/
def insertsPrekeys : Event Res → Bool
  | ⟨.sql (.insertPrekeys _), .ok _⟩ => true
  | _ => false

/-- The pairs that an UPLOAD_PREKEYS or REPLENISH_PREKEYS submits for `u`. -/
def Call.pairs (u : Bytes) : Call → List PrekeyPair
  | .uploadPrekeys req =>
    if req.usernameHash = u then req.oneTimePrekeys.map OneTimePreKey.pair else []
  | .replenishPrekeys req =>
    if req.usernameHash = u then req.newPrekeys.map OneTimePreKey.pair else []
  | _ => []

/-- Those that it has submitted to the table. -/
def Exchange.batch (u : Bytes) (e : Exchange) : List PrekeyPair :=
  if e.past.any insertsPrekeys then e.call.pairs u else []

/-- The one-time pre-key of `u` that a successful FETCH_PREKEY_BUNDLE has served. -/
def Exchange.served (u : Bytes) (e : Exchange) : Option PrekeyPair :=
  match e.call with
  | .fetchPrekeyBundle req =>
    if req.targetHash = u && e.reply.any (·.success) then
      (e.past.findSome? selectedPrekey).map fun x ↦ (x.prekeyId.toUInt32, x.publicKey)
    else none
  | _ => none

/-- The pairs accepted for `u`: of those that were submitted, the ones whose id did not occur
earlier. -/
def acceptedFor (u : Bytes) (es : List Exchange) : List PrekeyPair :=
  firsts Prod.fst (es.flatMap (·.batch u))

/-- The one-time pre-keys of `u` that were served. -/
def servedFor (u : Bytes) (es : List Exchange) : List PrekeyPair := es.filterMap (·.served u)

/-- What a successful answer reports, where `accepted` and `served` is what has been accepted and
served for `u` before. -/
def Exchange.Reports (u : Bytes) (accepted served : List PrekeyPair) (e : Exchange) : Prop :=
  ∀ reply, e.reply = some reply → reply.success = true →
    match e.call with
    | .uploadPrekeys req => req.usernameHash = u → ∃ resp, reply.payload = .uploadPrekeys resp ∧
        accepted.length + resp.prekeysStored.toNat =
          (addFirsts Prod.fst accepted (e.batch u)).length
    | .replenishPrekeys req => req.usernameHash = u →
        ∃ resp, reply.payload = .replenishPrekeys resp ∧ resp.totalPrekeys.toNat =
          ((addFirsts Prod.fst accepted (e.batch u)).drop served.length).length
    | .checkPrekeyCount req => req.usernameHash = u →
        ∃ resp, reply.payload = .checkPrekeyCount resp ∧
          resp.oneTimePrekeyCount.toNat = (accepted.drop served.length).length
    | .fetchPrekeyBundle req => req.targetHash = u →
        e.served u = accepted[served.length]? ∧ ∃ resp bundle,
          reply.payload = .fetchPrekeyBundle resp ∧ resp.bundle = some bundle ∧
          ∀ k ∈ e.served u, (bundle.preKeyId, bundle.preKeyPublic) = k
    | _ => True

/-- How a request on one-time pre-keys that starts from the rows `db` is answered: with success
exactly if it is genuine and the database does not fail.  Its pairs are submitted to the table if it
succeeds, and otherwise not, unless it fails at the count after the INSERT. -/
def Exchange.Decided (codec : Codec) (verifyDetached : Bytes → Bytes → Bytes → Bool) (u : Bytes)
    (db : Db) (e : Exchange) : Prop :=
  e.call.onPrekeys = true → ∃ reply, e.reply = some reply ∧
    (reply.success = true ↔ e.call.Genuine codec verifyDetached db e.past ∧ Healthy e.past) ∧
    (reply.success = true → e.batch u = e.call.pairs u) ∧
    (reply.success = false → e.batch u = [] ∨
      ∃ v err, Did e.past (.sql (.countUnusedPrekeys v)) (.error err))

/-- The exchange has removed the account `u`. -/
def Exchange.Deletes (u : Bytes) (e : Exchange) : Prop :=
  ∃ n, Did e.past (.sql (.deleteUser u)) (.ok n)

/-- The exchange has created the account `u`. -/
def Exchange.Registers (u : Bytes) (e : Exchange) : Prop :=
  ∃ req reply, e.call = .register req ∧ req.usernameHash = u ∧ e.reply = some reply ∧
    reply.success = true

/-- What an exchange does to the queue of `u`. -/
def Exchange.Moves (u : Bytes) (e : Exchange) (db' : Db) (marked rest : List OneTimePrekey) :
    Prop :=
  ∃ marked' rest', db'.PrekeyQueue u marked' rest' ∧
    (marked' ++ rest').map OneTimePrekey.pair =
      addFirsts Prod.fst ((marked ++ rest).map OneTimePrekey.pair) (e.batch u) ∧
    marked'.map OneTimePrekey.pair = marked.map OneTimePrekey.pair ++ (e.served u).toList ∧
    (db'.seq.oneTimePrekeys ≤ 2 ^ 31 →
      e.Reports u ((marked ++ rest).map OneTimePrekey.pair) (marked.map OneTimePrekey.pair))

/-- An exchange that has inserted and marked nothing touches no pre-key. -/
theorem passive_of_idle {past : Past} (hidle : Idle past)
    (hdel : ∀ n, ¬ Did past (.sql (.deleteUser u)) (.ok n)) : ∀ e ∈ past, Passive u e := by
  intro e he db s hs
  obtain ⟨a, rfl⟩ := ok_of_okStmt hs
  have hstores := hidle _ he
  cases s with
  | insertPrekeys ps => exact nomatch hstores
  | markPrekeyUsed i => exact nomatch hstores
  | deleteUser v =>
      rintro rfl
      exact hdel a he
  | _ => trivial

/-- The requests that insert or mark one-time pre-keys. -/
def Call.writesPrekeys : Call → Bool
  | .uploadPrekeys _ | .replenishPrekeys _ | .fetchPrekeyBundle _ => true
  | _ => false

/-- All other requests are idle. -/
theorem Reachable.idle {t : Nat} {call : Call} (hc : Reachable codec verifyDetached c)
    (hruns : Runs c t (.request call)) (hcall : call.writesPrekeys = false) :
    Idle (past t c.trace) := by
  intro e he
  by_contra hstores
  obtain ⟨q, hq⟩ := List.getElem?_of_mem (mem_past.mp he)
  obtain ⟨clock, instant, ms, h⟩ := hc
  obtain ⟨o, r⟩ := e
  obtain ⟨job, hjob, hguard⟩ := guard_at (code_obeys codec) h hq
  obtain rfl := hjob.unique hruns
  unfold storesPrekeys at hstores
  split at hstores
  next ps n heq =>
    obtain ⟨rfl, -⟩ := Sigma.mk.inj heq
    obtain ⟨req, hreq, -⟩ | ⟨req, hreq, -⟩ := hguard
    · obtain rfl := Job.request.inj hreq
      exact nomatch hcall
    · obtain rfl := Job.request.inj hreq
      exact nomatch hcall
  next i n heq =>
    obtain ⟨rfl, -⟩ := Sigma.mk.inj heq
    obtain ⟨req, -, -, hreq, -⟩ := hguard
    obtain rfl := Job.request.inj hreq
    exact nomatch hcall
  · exact hstores rfl

section

variable {marked rest : List OneTimePrekey} {past : Past} {call : Call} {reply : Option Reply}

/-- An exchange that has inserted nothing has submitted nothing. -/
theorem batch_of_idle (hidle : Idle past) : (⟨call, reply, past⟩ : Exchange).batch u = [] := by
  have hnone : past.any insertsPrekeys = false := by
    rw [List.any_eq_false]
    intro e he hins
    have hstores := hidle e he
    unfold insertsPrekeys at hins
    split at hins
    · exact nomatch hstores
    · exact nomatch hins
  simp only [Exchange.batch, hnone, Bool.false_eq_true, if_false]

/-- An exchange that submits and serves nothing, and reports no success. -/
theorem moves_of_idle (hq : db.PrekeyQueue u marked rest) (hr : Replays past db db')
    (hidle : Idle past) (hdel : ¬ (⟨call, reply, past⟩ : Exchange).Deletes u)
    (hserved : (⟨call, reply, past⟩ : Exchange).served u = none)
    (hreports : db'.PrekeyQueue u marked rest → db'.seq.oneTimePrekeys ≤ 2 ^ 31 →
      (⟨call, reply, past⟩ : Exchange).Reports u ((marked ++ rest).map OneTimePrekey.pair)
        (marked.map OneTimePrekey.pair)) :
    (⟨call, reply, past⟩ : Exchange).Moves u db' marked rest := by
  have hq' := hr.queue (passive_of_idle hidle fun n hn ↦ hdel ⟨n, hn⟩) hq
  refine ⟨marked, rest, hq', ?_, by simp [hserved], hreports hq'⟩
  rw [batch_of_idle hidle, addFirsts_nil]

/-- Passive events and an INSERT. -/
theorem Replays.stored (past : Past) {v : Bytes} {ks : List OneTimePreKey} {n : Nat}
    (hr : Replays (past ++ [⟨.sql (.insertPrekeys (newPrekeys v ks)), .ok n⟩]) db db')
    (hpassive : ∀ e ∈ past, Passive u e) (hq : db.PrekeyQueue u marked rest) :
    ∃ new, db'.PrekeyQueue u marked (rest ++ new) ∧ (v = u → n = new.length) ∧
      (marked ++ (rest ++ new)).map OneTimePrekey.pair =
        addFirsts Prod.fst ((marked ++ rest).map OneTimePrekey.pair)
          (if v = u then ks.map OneTimePreKey.pair else []) := by
  obtain ⟨db₁, hr₁, db₂, he, hs⟩ := replays_append.mp hr
  obtain ⟨new, hnew, hlen, hpairs⟩ := he.insertPrekeys (hr₁.queue hpassive hq)
  exact ⟨new, hnew.same hs, hlen, hpairs⟩

/-- A count that is not beyond the ids is reported as it is. -/
theorem toNat_count {n m : Nat} (h : n ≤ m) (hm : m ≤ 2 ^ 31) : (UInt32.ofNat n).toNat = n := by
  rw [UInt32.toNat_ofNat']
  omega

end

section

variable {marked rest : List OneTimePrekey} {reply : Option Reply} {t : Nat}

theorem moves_upload {req : UploadPreKeysRequest} (hc : Reachable codec verifyDetached c)
    (hend : Ended c t (.uploadPrekeys req) reply)
    (hr : Replays (past t c.trace) db c.world.db) (hq : db.PrekeyQueue u marked rest)
    (hdel : ¬ (⟨.uploadPrekeys req, reply, past t c.trace⟩ : Exchange).Deletes u) :
    (⟨.uploadPrekeys req, reply, past t c.trace⟩ : Exchange).Moves u c.world.db marked rest := by
  obtain ⟨r, rfl, hdone⟩ := hend.uploadPrekeys_done hc
  obtain ⟨hidle, -, hfail⟩ | ⟨user, ts, n, -, -, hpast, rfl⟩ := hdone
  · refine moves_of_idle hq hr hidle hdel rfl fun _ _ reply hreply hsuccess ↦ ?_
    obtain rfl := Option.some.inj hreply
    exact absurd hsuccess (explained_fails hfail)
  · rw [hpast] at hr ⊢
    obtain ⟨new, hnew, hlen, hpairs⟩ := Replays.stored [_, _, _] hr
      (passive_of_idle (by simp [storesPrekeys]) (by simp [Did])) hq
    have hbatch : (⟨.uploadPrekeys req, some (.explained .uploadPrekeys (·.success) (·.errorMessage)
        (.ok { success := true, prekeysStored := UInt32.ofNat n })), req.storedPast user ts n⟩ :
        Exchange).batch u = if req.usernameHash = u then
          req.oneTimePrekeys.map OneTimePreKey.pair else [] := rfl
    refine ⟨marked, rest ++ new, hnew, by rw [hbatch, hpairs], by simp [Exchange.served], ?_⟩
    rintro hserial reply hreply - hu
    obtain rfl := Option.some.inj hreply
    refine ⟨_, rfl, ?_⟩
    have hle := hnew.length_le
    rw [hbatch, ← hpairs, hlen hu]
    simp only [List.length_map, List.length_append] at hle ⊢
    rw [toNat_count (by omega) hserial]
    omega

theorem moves_replenish {req : ReplenishPreKeysRequest} (hc : Reachable codec verifyDetached c)
    (hend : Ended c t (.replenishPrekeys req) reply)
    (hr : Replays (past t c.trace) db c.world.db) (hq : db.PrekeyQueue u marked rest)
    (hdel : ¬ (⟨.replenishPrekeys req, reply, past t c.trace⟩ : Exchange).Deletes u) :
    (⟨.replenishPrekeys req, reply, past t c.trace⟩ : Exchange).Moves u c.world.db marked rest := by
  obtain ⟨r, rfl, hdone⟩ := hend.replenishPrekeys_done hc
  -- the INSERT, followed by the count `k` of the pre-keys
  have hstored {user : User} {n : Nat} {k : Except DieselError Nat}
      (hpast : past t c.trace = req.storedPast user n ++
        [⟨.sql (.countUnusedPrekeys req.usernameHash), k⟩]) :
      ∃ new, c.world.db.PrekeyQueue u marked (rest ++ new) ∧
        (req.usernameHash = u → ∀ total, k = .ok total → total = (rest ++ new).length) ∧
        (marked ++ (rest ++ new)).map OneTimePrekey.pair =
          addFirsts Prod.fst ((marked ++ rest).map OneTimePrekey.pair)
            (if req.usernameHash = u then req.newPrekeys.map OneTimePreKey.pair else []) := by
    rw [hpast] at hr
    obtain ⟨db₁, hr₁, hr₂⟩ := replays_append.mp hr
    obtain ⟨new, hnew, -, hpairs⟩ := Replays.stored [_, _] hr₁
      (passive_of_idle (by simp [storesPrekeys]) (by simp [Did])) hq
    refine ⟨new, ?_, ?_, hpairs⟩
    · refine hr₂.queue (passive_of_idle ?_ (by simp [Did])) hnew
      simp [storesPrekeys]
    · rintro rfl total rfl
      obtain ⟨db₂, he, -⟩ := hr₂
      exact (he.countUnusedPrekeys hnew).1
  obtain ⟨hidle, -, hfail⟩ | ⟨user, n, e, hpast, hfail⟩ | ⟨user, n, total, -, hpast, rfl⟩ := hdone
  · refine moves_of_idle hq hr hidle hdel rfl fun _ _ reply hreply hsuccess ↦ ?_
    obtain rfl := Option.some.inj hreply
    exact absurd hsuccess (explained_fails hfail)
  · obtain ⟨new, hnew, -, hpairs⟩ := hstored hpast
    rw [hpast]
    refine ⟨marked, rest ++ new, hnew, hpairs, by simp [Exchange.served], ?_⟩
    rintro - reply hreply hsuccess
    obtain rfl := Option.some.inj hreply
    exact absurd hsuccess (explained_fails hfail)
  · obtain ⟨new, hnew, hcount, hpairs⟩ := hstored hpast
    rw [hpast]
    refine ⟨marked, rest ++ new, hnew, hpairs, by simp [Exchange.served], ?_⟩
    rintro hserial reply hreply - hu
    obtain rfl := Option.some.inj hreply
    refine ⟨_, rfl, ?_⟩
    have hle := hnew.length_le
    have hbatch : (⟨.replenishPrekeys req, some (.explained .replenishPrekeys (·.success)
        (·.errorMessage) (.ok { success := true, totalPrekeys := UInt32.ofNat total })),
        req.storedPast user n ++ [⟨.sql (.countUnusedPrekeys req.usernameHash), .ok total⟩]⟩ :
        Exchange).batch u = if req.usernameHash = u then
          req.newPrekeys.map OneTimePreKey.pair else [] := rfl
    rw [hbatch, ← hpairs, hcount hu total rfl]
    simp only [List.length_map, List.length_append, List.length_drop] at hle ⊢
    rw [toNat_count (by omega) hserial]
    omega

theorem moves_check {req : CheckPreKeyCountRequest} (hc : Reachable codec verifyDetached c)
    (hend : Ended c t (.checkPrekeyCount req) reply)
    (hr : Replays (past t c.trace) db c.world.db) (hq : db.PrekeyQueue u marked rest)
    (hdel : ¬ (⟨.checkPrekeyCount req, reply, past t c.trace⟩ : Exchange).Deletes u) :
    (⟨.checkPrekeyCount req, reply, past t c.trace⟩ : Exchange).Moves u c.world.db marked rest := by
  obtain ⟨r, rfl, ⟨hidle, hdone⟩⟩ := hend.checkPrekeyCount_done hc
  refine moves_of_idle hq hr hidle hdel rfl fun hq' hserial reply hreply hsuccess ↦ ?_
  rintro rfl
  obtain rfl := Option.some.inj hreply
  obtain ⟨-, hfail⟩ | ⟨user, n, resp, -, hpast, rfl, -, hn⟩ := hdone
  · exact absurd hsuccess (explained_fails hfail)
  refine ⟨resp, rfl, ?_⟩
  rw [hpast] at hr
  obtain ⟨db₁, hr₁, db₂, he, -⟩ := (@replays_append _ _ [_, _] _).mp hr
  obtain ⟨rfl, -⟩ := he.countUnusedPrekeys (hr₁.queue
    (passive_of_idle (by simp [storesPrekeys]) (by simp [Did])) hq)
  have hle := hq'.length_le
  simp only [hn, List.length_map, List.length_append, List.length_drop] at hle ⊢
  rw [toNat_count (by omega) hserial]
  omega

theorem moves_fetch {req : FetchPreKeyBundleRequest} (hc : Reachable codec verifyDetached c)
    (hend : Ended c t (.fetchPrekeyBundle req) reply)
    (hr : Replays (past t c.trace) db c.world.db) (hq : db.PrekeyQueue u marked rest)
    (hdel : ¬ (⟨.fetchPrekeyBundle req, reply, past t c.trace⟩ : Exchange).Deletes u) :
    (⟨.fetchPrekeyBundle req, reply, past t c.trace⟩ : Exchange).Moves u c.world.db marked rest := by
  obtain ⟨r, rfl, hdone⟩ := hend.fetchPrekeyBundle_done hc
  obtain ⟨hidle, -, hfail⟩ | ⟨requester, target, base, -, hpast, -, rfl⟩ |
    ⟨requester, target, base, id, prekeyId, publicKey, n, -, hpast, -, rfl⟩ := hdone
  · have hrefused : (Reply.explained .fetchPrekeyBundle (·.success) (·.errorMessage) r).success =
        false := Bool.eq_false_of_not_eq_true (explained_fails hfail)
    refine moves_of_idle hq hr hidle hdel (by simp [Exchange.served, hrefused])
      fun _ _ reply hreply hsuccess ↦ ?_
    obtain rfl := Option.some.inj hreply
    rw [hrefused] at hsuccess
    cases hsuccess
  · -- no pre-key is left
    rw [hpast] at hr hdel ⊢
    have hserved : (⟨.fetchPrekeyBundle req, some (.explained .fetchPrekeyBundle (·.success)
        (·.errorMessage) (.ok { success := true, bundle := some base })),
        req.foundPast requester target ++
          [⟨.sql (.selectUnusedPrekey req.targetHash), .error .notFound⟩]⟩ : Exchange).served u =
        none := ite_self _
    refine moves_of_idle hq hr (by simp [FetchPreKeyBundleRequest.foundPast, storesPrekeys]) hdel
      hserved fun _ _ reply hreply _ ↦ ?_
    rintro rfl
    obtain rfl := Option.some.inj hreply
    rw [hserved]
    refine ⟨?_, _, base, rfl, rfl, by simp⟩
    obtain ⟨db₁, hr₁, db₂, he, -⟩ := replays_append.mp hr
    obtain rfl := he.selectNone (hr₁.queue (passive_of_idle
      (by simp [FetchPreKeyBundleRequest.foundPast, storesPrekeys])
      (by simp [FetchPreKeyBundleRequest.foundPast, Did])) hq)
    simp
  · -- the head of the queue is served
    rw [hpast] at hr ⊢
    obtain ⟨db₁, hr₁, db₂, he, db₃, he', hs⟩ := replays_append.mp hr
    have hserve := he.serve he' (hr₁.queue (passive_of_idle
      (by simp [FetchPreKeyBundleRequest.foundPast, storesPrekeys])
      (by simp [FetchPreKeyBundleRequest.foundPast, Did])) hq)
    have hsel : List.findSome? selectedPrekey (req.foundPast requester target ++
        [⟨.sql (.selectUnusedPrekey req.targetHash), .ok (id, prekeyId, publicKey)⟩,
         ⟨.sql (.markPrekeyUsed id), .ok n⟩]) =
        some ⟨req.targetHash, id, prekeyId, publicKey⟩ := rfl
    have hserved (reply : Reply) (hsuccess : reply.success = true) :
        (⟨.fetchPrekeyBundle req, some reply, req.foundPast requester target ++
          [⟨.sql (.selectUnusedPrekey req.targetHash), .ok (id, prekeyId, publicKey)⟩,
           ⟨.sql (.markPrekeyUsed id), .ok n⟩]⟩ : Exchange).served u =
        if req.targetHash = u then some (prekeyId.toUInt32, publicKey) else none := by
      simp only [Exchange.served, Option.any_some, hsuccess, Bool.and_true, decide_eq_true_eq, hsel,
        Option.map_some]
    rw [Exchange.Moves, hserved _ rfl]
    split at hserve
    next hu =>
      obtain ⟨x, rest, rfl, hx, hnew⟩ := hserve
      rw [if_pos hu]
      refine ⟨_, rest, hnew.same hs, ?_, ?_, ?_⟩
      · simp [Exchange.batch, Call.pairs, OneTimePrekey.pair]
      · rw [List.map_append, ← hx]
        rfl
      · rintro - reply hreply - -
        obtain rfl := Option.some.inj hreply
        rw [hserved _ rfl, if_pos hu]
        refine ⟨by simp [hx], _, _, rfl, rfl, ?_⟩
        rintro _ ⟨⟩
        rfl
    next hu =>
      rw [if_neg hu]
      refine ⟨marked, rest, hserve.same hs, ?_, by simp, ?_⟩
      · simp [Exchange.batch, Call.pairs]
      · rintro - reply - - hu'
        exact absurd hu' hu

/-- **One exchange.**  A request that runs alone appends to the queue what it submits, and takes
from its head what it serves. -/
theorem Ended.moves {call : Call} (hc : Reachable codec verifyDetached c)
    (hend : Ended c t call reply) (hr : Replays (past t c.trace) db c.world.db)
    (hq : db.PrekeyQueue u marked rest)
    (hdel : ¬ (⟨call, reply, past t c.trace⟩ : Exchange).Deletes u) :
    (⟨call, reply, past t c.trace⟩ : Exchange).Moves u c.world.db marked rest := by
  cases call with
  | uploadPrekeys req => exact moves_upload hc hend hr hq hdel
  | replenishPrekeys req => exact moves_replenish hc hend hr hq hdel
  | checkPrekeyCount req => exact moves_check hc hend hr hq hdel
  | fetchPrekeyBundle req => exact moves_fetch hc hend hr hq hdel
  | _ =>
      exact moves_of_idle hq hr (hc.idle hend.runs rfl) hdel rfl fun _ _ _ _ _ ↦ trivial

/-- **One answer.**  What a request on one-time pre-keys that runs alone answers, and whether its
pairs are submitted. -/
theorem Ended.decided {call : Call} (hc : Reachable codec verifyDetached c) (hkeyed : db.Keyed)
    (hend : Ended c t call reply) (hr : Replays (past t c.trace) db c.world.db) :
    (⟨call, reply, past t c.trace⟩ : Exchange).Decided codec verifyDetached u db := by
  intro hcall
  obtain ⟨r, rfl, hsuccess⟩ := hend.success_iff hc hkeyed hr hcall
  refine ⟨r, rfl, hsuccess, ?_⟩
  cases call with
  | uploadPrekeys req =>
      obtain ⟨r, hreply, hdone⟩ := hend.uploadPrekeys_done hc
      obtain rfl := Option.some.inj hreply
      obtain ⟨hidle, -, hfail⟩ | ⟨user, ts, n, -, -, hpast, rfl⟩ := hdone
      · exact ⟨fun h ↦ absurd h (explained_fails hfail), fun _ ↦ .inl (batch_of_idle hidle)⟩
      · rw [hpast]
        exact ⟨fun _ ↦ rfl, fun h ↦ by cases h⟩
  | replenishPrekeys req =>
      obtain ⟨r, hreply, hdone⟩ := hend.replenishPrekeys_done hc
      obtain rfl := Option.some.inj hreply
      obtain ⟨hidle, -, hfail⟩ | ⟨user, n, e, hpast, hfail⟩ | ⟨user, n, total, -, hpast, rfl⟩ := hdone
      · exact ⟨fun h ↦ absurd h (explained_fails hfail), fun _ ↦ .inl (batch_of_idle hidle)⟩
      · refine ⟨fun h ↦ absurd h (explained_fails hfail), fun _ ↦ .inr ⟨req.usernameHash, e, ?_⟩⟩
        simp [hpast, Did]
      · rw [hpast]
        exact ⟨fun _ ↦ rfl, fun h ↦ by cases h⟩
  | checkPrekeyCount req => exact ⟨fun _ ↦ ite_self _, fun _ ↦ .inl (ite_self _)⟩
  | fetchPrekeyBundle req => exact ⟨fun _ ↦ ite_self _, fun _ ↦ .inl (ite_self _)⟩
  | _ => cases hcall

theorem InSequence.decided {e : Exchange} {es : List Exchange}
    (h : InSequence codec verifyDetached c (e :: es) c') (hc : Reachable codec verifyDetached c) :
    e.Decided codec verifyDetached u c.world.db := by
  obtain ⟨d, hone, -⟩ := @InSequence.split _ _ _ _ [e] _ h
  obtain ⟨call, reply, ms, hrun, halone, hend, rfl⟩ := hone.single
  exact hend.decided (hc.run hrun) hc.keyed (hc.replays hrun halone)

end

/-! ## Accounts -/

/-- An INSERT that counts no row inserts none. -/
theorem insertPrekeys_none (now : NaiveDateTime) (ps : List NewOneTimePrekey)
    (rows : List OneTimePrekey) (seq n : Nat) :
    n ≤ (ps.foldl (insertPrekey now) (rows, seq, n)).2.2 ∧
      ((ps.foldl (insertPrekey now) (rows, seq, n)).2.2 = n →
        (ps.foldl (insertPrekey now) (rows, seq, n)).1 = rows) := by
  induction ps generalizing rows seq n with
  | nil => exact ⟨le_rfl, fun _ ↦ rfl⟩
  | cons p ps ih =>
      simp only [List.foldl_cons, insertPrekey]
      split
      · exact ih rows (seq + 1) n
      · obtain ⟨hle, -⟩ := ih (rows ++ [⟨seq, p.userHashId, p.prekeyId, p.publicKey, false, now⟩])
          (seq + 1) (n + 1)
        exact ⟨by omega, fun heq ↦ by omega⟩

/-- Every one-time pre-key belongs to an account. -/
def Db.PrekeysOwned (db : Db) : Prop :=
  ∀ x ∈ db.oneTimePrekeys, db.hasUser x.userHashId = true

theorem Db.PrekeysOwned.same (h : db.PrekeysOwned) (hs : db.Same db') : db'.PrekeysOwned :=
  fun x hx ↦ hs.hasUser _ ▸ h x (hs.oneTimePrekeys.mem_iff.mpr hx)

theorem Db.PrekeysOwned.exec (h : db.PrekeysOwned) : (s.exec now db).2.PrekeysOwned := by
  intro x hx
  -- the account was there before the statement
  have huser : db.hasUser x.userHashId = true := by
    rcases mem_oneTimePrekeys_exec hx with ⟨hx, -⟩ | ⟨y, hy, -, rfl⟩ | ⟨ps, rfl, p, hp, id, -, rfl⟩
    · exact h x hx
    · exact h y hy
    · simp only [Stmt.exec] at hx
      split at hx
      · exact h _ hx
      next hfk =>
        simp only [Bool.and_eq_true, decide_eq_true_eq, not_and, List.any_eq_true,
          Bool.not_eq_true', not_exists] at hfk
        by_cases hn : (ps.foldl (insertPrekey now) (db.oneTimePrekeys, db.seq.oneTimePrekeys, 0)).2.2
            = 0
        · rw [(insertPrekeys_none now ps _ _ 0).2 hn] at hx
          exact h _ hx
        · by_contra hno
          exact hfk hn p hp (Bool.eq_false_of_not_eq_true hno)
  refine hasUser_exec huser ?_
  rintro rfl
  simp only [Stmt.exec, if_pos huser, removeUser, List.mem_filter] at hx
  simp at hx

theorem Reachable.prekeysOwned (h : Reachable codec verifyDetached c) :
    c.world.db.PrekeysOwned := by
  refine h.induction (I := fun d ↦ d.world.db.PrekeysOwned) (fun _ _ x hx ↦ nomatch hx) ?_
  intro d m d' _ hI hs
  rcases Step.db hs with hsame | ⟨t, job, s, he⟩
  · exact hI.same hsame
  · rw [he.db]
    exact hI.exec

/-- What a REGISTER has done when it reports success. -/
theorem register_done (req : RegistrationRequest) :
    (register req).Obeys (fun _ o ↦ o ≠ .panic) (fun past r ↦ ∀ resp, r = .ok resp →
      resp.success = true → ∃ n, past = [⟨.sql (.insertUser req.newUser), .ok n⟩]) [] := by
  unfold register
  iterate 6
    split
    · exact nofun
  refine obeys_sql nofun (fun e ↦ ?_) fun n ↦ ?_
  · dsimp only
    split
    · rintro _ ⟨⟩ ⟨⟩
    · rintro _ ⟨⟩ ⟨⟩
  · rintro _ ⟨⟩ -
    exact ⟨n, rfl⟩

/-- An account is inserted where there is none. -/
theorem not_hasUser_of_insert {n : NewUser} {k : Nat}
    (hok : ((insertUser n).exec now db).1 = .ok k) : db.hasUser n.userHashId = false := by
  simp only [Stmt.exec] at hok
  split at hok
  · exact nomatch hok
  next hno => exact Bool.eq_false_of_not_eq_true hno

/-- A new account has no one-time pre-keys. -/
theorem Ended.registers {t : Nat} {call : Call} {reply : Option Reply} {d : State}
    (hd : Reachable codec verifyDetached d) (hc : Reachable codec verifyDetached c)
    (hend : Ended c t call reply) (hr : Replays (past t c.trace) d.world.db c.world.db)
    (hreg : (⟨call, reply, past t c.trace⟩ : Exchange).Registers u) :
    c.world.db.PrekeyQueue u [] [] := by
  obtain ⟨req, reply, rfl, rfl, rfl, hsuccess⟩ := hreg
  have hcall : (processCall codec (.register req)).Obeys (fun _ o ↦ o ≠ .panic)
      (fun past reply ↦ reply.success = true →
        ∃ n, past = [⟨.sql (.insertUser req.newUser), .ok n⟩]) [] := by
    refine (register_done req).bind fun past r h ↦ ?_
    cases r with
    | error e => exact fun h ↦ by cases h
    | ok resp => exact h resp rfl
  obtain ⟨_, hreply, hdone⟩ := hend.done hc hcall
  obtain rfl := Option.some.inj hreply
  obtain ⟨n, hpast⟩ := hdone hsuccess
  have hpassive : ∀ e ∈ past t c.trace, Passive req.usernameHash e := by
    rw [hpast]
    exact passive_of_idle (by simp [storesPrekeys]) (by simp [Did])
  refine hr.queue hpassive ⟨hd.keyed.oneTimePrekeys, ?_, List.Pairwise.nil, by simp, by simp⟩
  rw [hpast] at hr
  obtain ⟨db₁, he, -⟩ := hr
  obtain ⟨db₀, now, hsame, hok, -⟩ := he.executed (by simp)
  have hnone : db₀.hasUser req.usernameHash = false := not_hasUser_of_insert hok.symm
  rw [List.append_nil, List.filter_eq_nil_iff.mpr]
  intro x hx hu
  have howned := hd.prekeysOwned x hx
  rw [of_decide_eq_true hu, hsame.hasUser, hnone] at howned
  cases howned

/-! ## Runs -/

/-- Ids are only drawn. -/
theorem Replays.seq_le {past : Past} (hr : Replays past db db') :
    db.seq.oneTimePrekeys ≤ db'.seq.oneTimePrekeys := by
  induction past generalizing db with
  | nil => exact le_of_eq (congrArg Sequences.oneTimePrekeys (Db.Same.seq hr))
  | cons e past ih =>
      obtain ⟨db₁, he, hr⟩ := hr
      refine le_trans ?_ (ih hr)
      obtain ⟨o, r⟩ := e
      cases o with
      | sql s =>
          obtain ⟨db₀, now, hsame, ⟨-, rfl⟩ | ⟨rfl, -⟩⟩ := he
          · rw [hsame.seq]
            exact seq_oneTimePrekeys_exec
          · exact le_of_eq (congrArg Sequences.oneTimePrekeys hsame.seq)
      | _ => exact le_of_eq (congrArg Sequences.oneTimePrekeys (Db.Same.seq he))

/-- From a new account on, the queue has what was accepted, and what was served is marked. -/
theorem InSequence.queue {es : List Exchange} (h : InSequence codec verifyDetached c es c')
    (hc : Reachable codec verifyDetached c) (hq : c.world.db.PrekeyQueue u [] [])
    (hkept : ∀ e ∈ es, ¬ e.Deletes u) :
    ∃ marked rest, c'.world.db.PrekeyQueue u marked rest ∧
      (marked ++ rest).map OneTimePrekey.pair = acceptedFor u es ∧
      marked.map OneTimePrekey.pair = servedFor u es ∧
      (c'.world.db.seq.oneTimePrekeys ≤ 2 ^ 31 → ∀ l e l', es = l ++ e :: l' →
        e.Reports u (acceptedFor u l) (servedFor u l)) := by
  induction h with
  | nil => exact ⟨[], [], hq, rfl, rfl, fun _ l e l' hes ↦ by simp at hes⟩
  | @snoc es c₁ c₂ call reply ms h hrun halone hend ih =>
      have hkept' := List.forall_mem_append.mp hkept
      obtain ⟨marked, rest, hq₁, haccepted, hserved, hreports⟩ := ih hkept'.1
      have hc₁ := h.reachable hc
      have hr := hc₁.replays hrun halone
      obtain ⟨marked', rest', hq₂, haccepted', hserved', hreport⟩ :=
        hend.moves (hc₁.run hrun) hr hq₁ (hkept'.2 _ List.mem_cons_self)
      rw [haccepted] at haccepted' hreport
      rw [hserved] at hserved' hreport
      refine ⟨marked', rest', hq₂, ?_, ?_, fun hserial l e l' hes ↦ ?_⟩
      · rw [haccepted', acceptedFor, acceptedFor, List.flatMap_append, firsts_append]
        simp
      · rw [hserved', servedFor, servedFor, List.filterMap_append]
        cases hs : Exchange.served u ⟨call, reply, past c₁.pool.length c₂.trace⟩ with
        | none => simp [hs]
        | some k => simp [hs]
      · rcases List.eq_nil_or_concat l' with rfl | ⟨l'', e', rfl⟩
        · obtain ⟨rfl, he⟩ := List.append_inj' hes rfl
          obtain rfl := (List.cons.inj he).1
          exact hreport hserial
        · rw [List.concat_eq_append, ← List.cons_append, ← List.append_assoc] at hes
          obtain ⟨rfl, -⟩ := List.append_inj' hes rfl
          exact hreports (hr.seq_le.trans hserial) l e l'' rfl

/-- **The one-time pre-keys of a user are a queue.**  Let requests run one after another, and let
`reg` create the account `u`, which no later one removes.  Then what has been served for `u` is a
prefix of what has been accepted, no id is accepted twice, so no id that has been served is left,
and every request of `u` that succeeds reports what it did: an UPLOAD_PREKEYS the number of pairs it
appended, a CHECK_PREKEY_COUNT or REPLENISH_PREKEYS the length of the rest, a FETCH_PREKEY_BUNDLE
for `u` the first pair of the rest.  It succeeds if it is genuine on the rows it starts from and the
database does not fail, and its batch is accepted then.  (The ids of the rows are `SERIAL`, so
PostgreSQL draws less than `2 ^ 31` of them.) -/
theorem prekeys_fifo {clock instant : Nat} {es es' : List Exchange} {reg : Exchange}
    (h : InSequence codec verifyDetached (.start (.initial clock instant)) (es ++ reg :: es') c)
    (hserial : c.world.db.seq.oneTimePrekeys ≤ 2 ^ 31) (hreg : reg.Registers u)
    (hkept : ∀ e ∈ es', ¬ e.Deletes u) :
    servedFor u es' <+: acceptedFor u es' ∧
    ((acceptedFor u es').map Prod.fst).Nodup ∧
    (∀ k ∈ servedFor u es', ∀ k' ∈ (acceptedFor u es').drop (servedFor u es').length,
      k.1 ≠ k'.1) ∧
    ∀ l e l', es' = l ++ e :: l' → e.Reports u (acceptedFor u l) (servedFor u l) ∧
      ∀ d, InSequence codec verifyDetached (.start (.initial clock instant)) (es ++ reg :: l) d →
        InSequence codec verifyDetached d (e :: l') c →
        e.Decided codec verifyDetached u d.world.db := by
  have hstart : Reachable codec verifyDetached (.start (.initial clock instant)) :=
    ⟨clock, instant, [], rfl⟩
  obtain ⟨d, hd, hrest⟩ := h.split
  obtain ⟨d', hone, hrest⟩ := @InSequence.split _ _ _ _ [reg] _ hrest
  have hd₀ := hd.reachable hstart
  have hq : d'.world.db.PrekeyQueue u [] [] := by
    obtain ⟨call, reply, ms, hrun, halone, hend, rfl⟩ := hone.single
    exact hend.registers hd₀ (hd₀.run hrun) (hd₀.replays hrun halone) hreg
  obtain ⟨marked, rest, -, haccepted, hserved, hreports⟩ :=
    hrest.queue (hone.reachable hd₀) hq hkept
  have hids : ((acceptedFor u es').map Prod.fst).Nodup := nodup_firsts _
  have hsplit : acceptedFor u es' = servedFor u es' ++ rest.map OneTimePrekey.pair := by
    rw [← haccepted, ← hserved, List.map_append]
  refine ⟨hsplit ▸ List.prefix_append _ _, hids, fun k hk k' hk' ↦ ?_, fun l e l' hes ↦
    ⟨hreports hserial l e l' hes, fun d hd hrest ↦ hrest.decided (hd.reachable hstart)⟩⟩
  rw [hsplit, List.map_append, List.nodup_append] at hids
  rw [hsplit, List.drop_left] at hk'
  exact hids.2.2 _ (List.mem_map_of_mem hk) _ (List.mem_map_of_mem hk')

namespace Sample

def uploadRequest : UploadPreKeysRequest :=
  ⟨word 1, [⟨7, [1]⟩, ⟨4294967295, [2]⟩, ⟨7, [3]⟩], signature, 5⟩

def queueSigned : List (Bytes × Bytes) :=
  [(key 1, prekeyMessage (word 1) 5), (key 2, lookupMessage (word 2) (word 1) 5)]

/-- User 1 uploads three pre-keys, two of one id; user 2 is served the first, and user 1 uploads
them again. -/
def queueCalls : List (Call × Nat) :=
  [(.register ⟨word 2, [1], key 2, [1], [2], 0⟩, 1), (.register ⟨word 1, [1], key 1, [1], [1], 0⟩, 1),
   (.uploadPrekeys uploadRequest, 4), (.fetchPrekeyBundle ⟨word 2, word 1, signature, 5⟩, 5),
   (.uploadPrekeys uploadRequest, 4), (.checkPrekeyCount ⟨word 1, signature, 5⟩, 3)]

end Sample

open Sample in
/-- The pre-key that was served is not accepted again. -/
theorem prekeys_fifo_queueCalls : ∃ c e₀ reg es, InSequence Sample.codec (Sample.verify queueSigned)
      (.start (.initial 0 0)) ([e₀] ++ reg :: es) c ∧
    servedFor (word 1) es = [(7, [1])] ∧
    acceptedFor (word 1) es = [(7, [1]), (4294967295, [2])] ∧
    servedFor (word 1) es <+: acceptedFor (word 1) es := by
  have hlists : ((exchanges queueSigned (.start (.initial 0 0)) queueCalls).map fun x ↦
      (servedFor (word 1) (x.1.drop 2), acceptedFor (word 1) (x.1.drop 2))) =
      some ([(7, [1])], [(7, [1]), (4294967295, [2])]) := by decide +kernel
  have hreg : ((exchanges queueSigned (.start (.initial 0 0)) queueCalls).bind fun x ↦
      x.1[1]?.map fun e ↦ (e.call, e.reply.any (·.success))) =
      some (.register ⟨word 1, [1], key 1, [1], [1], 0⟩, true) := by decide +kernel
  have hkept : ((exchanges queueSigned (.start (.initial 0 0)) queueCalls).map fun x ↦
      (decide (x.2.world.db.seq.oneTimePrekeys ≤ 2 ^ 31), x.1.any fun e : Exchange ↦
        e.past.any fun e ↦ okStmt e = some (.deleteUser (word 1)))) = some (true, false) := by
    decide +kernel
  obtain ⟨⟨es, c⟩, hes, hlists⟩ := Option.map_eq_some_iff.mp hlists
  rw [hes] at hreg hkept
  obtain ⟨hserial, hkept⟩ := Prod.mk.inj (Option.some.inj hkept)
  obtain ⟨hserved, haccepted⟩ := Prod.mk.inj hlists
  obtain ⟨reg, hreg, hview⟩ := Option.map_eq_some_iff.mp hreg
  obtain ⟨hcall, hsuccess⟩ := Prod.mk.inj hview
  obtain ⟨reply, hreply, hsuccess⟩ := (Option.any_eq_true _ _).mp hsuccess
  have hseq := inSequence_of_exchanges hes
  match es, hreg with
  | e₀ :: _ :: es, rfl =>
    change InSequence _ _ _ ([e₀] ++ reg :: es) c at hseq
    refine ⟨c, e₀, reg, es, hseq, hserved, haccepted, ?_⟩
    refine (prekeys_fifo hseq (of_decide_eq_true hserial)
      ⟨_, reply, hcall, rfl, hreply, hsuccess⟩ fun e he ⟨n, hn⟩ ↦ ?_).1
    rw [List.any_eq_false] at hkept
    refine hkept e (List.mem_cons_of_mem _ (List.mem_cons_of_mem _ he)) ?_
    exact List.any_eq_true.mpr ⟨_, hn, decide_eq_true rfl⟩

end ZenthDht
