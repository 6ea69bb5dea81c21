import ZenthDht.Data.Trim
import ZenthDht.Spec.RateLimit
import ZenthDht.Spec.Run

/-!
# What a cleanup takes away

The cleanup removes windows of the limiters that are over, transfers that have expired, and rows of
`messages`, `relay_messages` and `sync_blobs` that have expired.  Here the server after some rounds
of the cleanup is compared with the server without them: `Cleaned` says of each of the stores that
the first one lacks only such entries.  An operation keeps that and gives the same result, if it does
not ask for what is gone (`World.Cleaned.perform`), and an operation of the cleanup keeps it while the
other server does nothing (`World.Cleaned.purge`).
-/

namespace ZenthDht

open Conc

/-! ## Limiters -/

namespace KeyRateLimiter

variable {l l' : KeyRateLimiter} {now : Nat}

/-- The first limiter lacks only windows of the second one that are over by `now`. -/
structure Cleaned (now : Nat) (l l' : KeyRateLimiter) : Prop where
  rest : l' = { l with map := l'.map }
  max : 0 < l.maxRequests
  window : 0 < l.windowSecs.toNat
  fit : l.windowSecs.toNat < 2 ^ 63
  map : ∀ k, Fades (fun e ↦ e.1 + l.length ≤ now) (l.map k) (l'.map k)

theorem cleaned_initLimiters (l : LimiterId) (now : Nat) :
    Cleaned now (initLimiters l) (initLimiters l) := by
  cases l with
  | _ => exact ⟨rfl, by decide, by decide, by decide, fun k ↦ .refl _⟩

theorem Cleaned.later {now' : Nat} (h : Cleaned now l l') (hle : now ≤ now') :
    Cleaned now' l l' :=
  { h with map := fun k ↦ (h.map k).mono fun _ he ↦ le_trans he hle }

/-- Both limiters give the same answer. -/
theorem Cleaned.isAllowed (h : Cleaned now l l') (key : Bytes) :
    (l.isAllowed now key).1 = (l'.isAllowed now key).1 ∧
      Cleaned now (l.isAllowed now key).2 (l'.isAllowed now key).2 := by
  obtain ⟨m, rfl⟩ : ∃ m, l' = { l with map := m } := ⟨_, h.rest⟩
  have hupdate (v : Option (Nat × Nat)) : Cleaned now
      { l with map := Function.update l.map (slot key) v }
      { l with map := Function.update m (slot key) v } :=
    ⟨rfl, h.max, h.window, h.fit, Fades.update h.map (slot key) v⟩
  by_cases hkey : key = []
  · simp only [KeyRateLimiter.isAllowed, if_pos hkey]
    exact ⟨trivial, h⟩
  rcases h.map (slot key) with heq | ⟨hnone, e, hsome, hover⟩
  · have heq : m (slot key) = l.map (slot key) := heq.symm
    simp only [KeyRateLimiter.isAllowed, if_neg hkey, heq]
    repeat' split
    · exact ⟨rfl, hupdate _⟩
    · exact ⟨rfl, hupdate _⟩
    · exact ⟨rfl, hupdate _⟩
  · -- the window is missing on the left and over on the right, so both open one
    have hleft : l.isAllowed now key =
        (true, { l with map := Function.update l.map (slot key) (some (now, 1)) }) := by
      apply isAllowed_of_over hkey h.max h.window
      intro s n hl
      exact absurd (hnone.symm.trans hl) (by simp)
    have hright : ({ l with map := m } : KeyRateLimiter).isAllowed now key =
        (true, { l with map := Function.update m (slot key) (some (now, 1)) }) := by
      apply isAllowed_of_over (l := { l with map := m }) hkey h.max h.window
      intro s n hl
      obtain rfl := Option.some.inj (hsome.symm.trans hl)
      exact hover
    rw [hleft, hright]
    exact ⟨rfl, hupdate _⟩

/-- A cleanup removes windows that are over for good. -/
theorem Cleaned.cleanup (h : Cleaned now l l') : Cleaned now (l.cleanup now) l' := by
  refine ⟨h.rest, h.max, h.window, h.fit, fun k ↦ (h.map k).trim fun e he ↦ ?_⟩
  rw [decide_eq_false_iff_not, toNat_mul_two h.fit] at he
  exact (le_elapsedSecs h.window).mp (by omega)

end KeyRateLimiter

/-! ## Transfers -/

namespace FileRelay

variable {r r' : FileRelay} {now : Nat}

/-- The first registry lacks only transfers of the second one that have expired by `now`. -/
def Cleaned (now : Nat) (r r' : FileRelay) : Prop :=
  ∀ tid, Fades (fun e ↦ transferTtl ≤ now - e.insertedAt) (r tid) (r' tid)

theorem Cleaned.later {now' : Nat} (h : Cleaned now r r') (hle : now ≤ now') :
    Cleaned now' r r' :=
  fun tid ↦ (h tid).mono fun _ he ↦ le_trans he (Nat.sub_le_sub_right hle _)

theorem Cleaned.register (h : Cleaned now r r') (tid sender : Bytes) :
    Cleaned now (r.register now tid sender) (r'.register now tid sender) :=
  Fades.update h tid _

theorem Cleaned.unregisterBySender (h : Cleaned now r r') (sender : Bytes) :
    Cleaned now (r.unregisterBySender sender) (r'.unregisterBySender sender) :=
  fun tid ↦ (h tid).filter _

theorem Cleaned.getSender (h : Cleaned now r r') (tid : Bytes) :
    r.getSender now tid = r'.getSender now tid := by
  unfold FileRelay.getSender
  rw [(h tid).filter_eq fun e he ↦ ?_]
  exact decide_eq_false (Nat.not_lt.mpr he)

theorem Cleaned.cleanupExpired (h : Cleaned now r r') : Cleaned now (r.cleanupExpired now) r' :=
  fun tid ↦ (h tid).trim fun _ he ↦ Nat.not_lt.mp (decide_eq_false_iff_not.mp he)

end FileRelay

/-! ## Results -/

/-- The statements that delete rows on request; nobody looks at how many. -/
def Stmt.Discards : Stmt → Prop
  | .deleteMessage _ _ | .deleteMessagesOf _ | .deleteRelayUpTo _ _ | .deleteBlob _ => True
  | _ => False

/-- The statements that load unexpired rows or count them. -/
def Stmt.Loads : Stmt → Prop
  | .countMessages _ _ _ | .loadMessages _ _ _ _ | .loadRelay _ _ _ _ => True
  | _ => False

/-- The same result, but for how many rows a delete has removed. -/
inductive SameResult : (o : Op) → Res o → Res o → Prop
  | same (o : Op) (r : Res o) : SameResult o r r
  | deletes {s : Stmt} (hs : s.Discards) (n n' : s.Out) : SameResult (.sql s) (.ok n) (.ok n')

/-- The same result, but for how many rows a delete has removed and what unexpired rows there are. -/
inductive SimilarResult : (o : Op) → Res o → Res o → Prop
  | same {o : Op} {r r' : Res o} (h : SameResult o r r') : SimilarResult o r r'
  | loads {s : Stmt} (hs : s.Loads) (a a' : s.Out) : SimilarResult (.sql s) (.ok a) (.ok a')
  | blob (d : Bytes) (now : NaiveDateTime) (r r' : Except DieselError (Bytes × Bytes)) :
      SimilarResult (.sql (.selectBlob d now)) r r'

/-! ## Tables -/

/-- Rows that purges have removed. -/
structure Gone where
  messages : MessageModel → Prop
  relayMessages : RelayMessage → Prop
  syncBlobs : SyncBlob → Prop

/-- The statement is not about a row that is gone: its rows are those that expire after the time it
names, and an INSERT may not repeat the id of a message. -/
def Stmt.Current (g : Gone) : Stmt → Prop
  | .countMessages _ _ n | .loadMessages _ _ n _ => ∀ x, g.messages x → x.expiresAt ≤ n
  | .loadRelay _ _ n _ => ∀ x, g.relayMessages x → x.expiresAt ≤ n
  | .selectBlob _ n => ∀ x, g.syncBlobs x → x.expiresAt ≤ n
  | _ => True

/-- The statement does not insert a message under an id that is gone. -/
def Stmt.Unused (g : Gone) : Stmt → Prop
  | .insertMessage m => ∀ x, g.messages x → x.messageId ≠ m.messageId
  | _ => True

/-- The first database lacks only rows of the second one that are gone. -/
structure Db.Cleaned (g : Gone) (db db' : Db) : Prop where
  rest : db' = { db with
    messages := db'.messages, relayMessages := db'.relayMessages, syncBlobs := db'.syncBlobs }
  messages : Trims g.messages db.messages db'.messages
  relayMessages : Trims g.relayMessages db.relayMessages db'.relayMessages
  syncBlobs : Thins SyncBlob.forDeviceDilithiumPubkey g.syncBlobs db.syncBlobs db'.syncBlobs

section

variable {g g' : Gone} {db db' : Db} {now : NaiveDateTime}

theorem Db.cleaned_migrated (g : Gone) : Db.migrated.Cleaned g Db.migrated :=
  ⟨rfl, .refl _, .refl _, .refl List.nodup_nil⟩

theorem Db.Cleaned.mono (h : db.Cleaned g db') (hm : ∀ x, g.messages x → g'.messages x)
    (hr : ∀ x, g.relayMessages x → g'.relayMessages x)
    (hb : ∀ x, g.syncBlobs x → g'.syncBlobs x) : db.Cleaned g' db' :=
  ⟨h.rest, h.messages.mono fun x _ ↦ hm x, h.relayMessages.mono fun x _ ↦ hr x,
    h.syncBlobs.mono fun x _ ↦ hb x⟩

/-- A push changes the row of its device, or adds one. -/
theorem mem_upsertBlob {b x : SyncBlob} :
    x ∈ ((Stmt.upsertBlob b).exec now db).2.syncBlobs ↔ x = b ∨
      x ∈ db.syncBlobs ∧ b.forDeviceDilithiumPubkey ≠ x.forDeviceDilithiumPubkey := by
  constructor
  · intro hx
    rcases mem_syncBlobs_exec hx with ⟨hx, hne⟩ | heq
    · exact .inr ⟨hx, hne b rfl⟩
    · exact .inl (Stmt.upsertBlob.inj heq).symm
  · rintro (rfl | ⟨hx, hne⟩)
    · exact upsertBlob_mem now db x
    · have hstays : x ∈ ((Stmt.upsertBlob b).exec now db).2.syncBlobs ∨ _ := syncBlobs_exec hx
      rcases hstays with hx | hb | hd | hp
      · exact hx
      · obtain ⟨_, ⟨⟩, heq⟩ := hb
        exact absurd heq hne
      · exact nomatch hd
      · obtain ⟨_, hp, -⟩ := hp
        exact nomatch hp

/-- A device has one row. -/
theorem nodup_upsertBlob (b : SyncBlob)
    (h : (db.syncBlobs.map SyncBlob.forDeviceDilithiumPubkey).Nodup) :
    (((Stmt.upsertBlob b).exec now db).2.syncBlobs.map
      SyncBlob.forDeviceDilithiumPubkey).Nodup := by
  simp only [Stmt.exec]
  split
  · rw [List.map_map]
    convert h using 1
    refine List.map_congr_left fun x _ ↦ ?_
    show SyncBlob.forDeviceDilithiumPubkey (if _ then _ else _) = _
    split <;> rfl
  next hnone =>
    rw [List.map_append, List.map_singleton, List.nodup_append]
    refine ⟨h, List.nodup_singleton _, ?_⟩
    rintro d hd _ hb rfl
    obtain rfl := List.mem_singleton.mp hb
    obtain ⟨x, hx, heq⟩ := List.mem_map.mp hd
    simp only [List.any_eq_true, decide_eq_true_eq, not_exists, not_and] at hnone
    exact hnone x hx heq

/-- The statements of the cleanup. -/
def Stmt.Purges : Stmt → Prop
  | .purgeMessages _ | .purgeRelay _ | .purgeBlobs _ => True
  | _ => False

/-- What a statement gives in two databases of which the first one lacks only rows that are gone. -/
structure Agree (g : Gone) {s : Stmt} (x y : Except DieselError s.Out × Db) : Prop where
  similar : SimilarResult (.sql s) x.1 y.1
  same : s.Current g → SameResult (.sql s) x.1 y.1
  db : x.2.Cleaned g y.2

theorem agree_of_eq {s : Stmt} {x y : Except DieselError s.Out × Db} (h : x.1 = y.1)
    (hdb : x.2.Cleaned g y.2) : Agree g x y := by
  obtain ⟨r, d⟩ := x
  obtain ⟨r', d'⟩ := y
  obtain rfl : r = r' := h
  exact ⟨.same (.same (.sql s) r), fun _ ↦ .same (.sql s) r, hdb⟩

theorem agree_ite {s : Stmt} {p : Prop} [Decidable p] {x x' y y' : Except DieselError s.Out × Db}
    (h : Agree g x y) (h' : Agree g x' y') :
    Agree g (if p then x else x') (if p then y else y') := by
  split
  · exact h
  · exact h'

theorem agree_of_discards (s : Stmt) (hs : s.Discards) {n n' : s.Out} {d d' : Db}
    (hdb : d.Cleaned g d') : Agree (s := s) g (.ok n, d) (.ok n', d') :=
  ⟨.same (.deletes hs n n'), fun _ ↦ .deletes hs n n', hdb⟩

theorem agree_of_loads (s : Stmt) (hs : s.Loads) {a a' : s.Out} {d d' : Db}
    (h : s.Current g → a = a') (hdb : d.Cleaned g d') : Agree (s := s) g (.ok a, d) (.ok a', d') := by
  refine ⟨.loads hs a a', fun hcur ↦ ?_, hdb⟩
  rw [h hcur]
  exact .same (.sql s) (.ok a')

/-- A statement that is not one of the cleanup does the same in both databases. -/
theorem Db.Cleaned.exec (h : db.Cleaned g db') (now : NaiveDateTime) {s : Stmt} (hs : ¬ s.Purges)
    (hun : s.Unused g) : Agree g (s.exec now db) (s.exec now db') := by
  obtain ⟨m, rel, b, rfl⟩ : ∃ m rel b, db' =
      { db with messages := m, relayMessages := rel, syncBlobs := b } := ⟨_, _, _, h.rest⟩
  have hsel {n : NaiveDateTime} {r : Bytes} {since : Option Int64}
      (hcur : ∀ x, g.messages x → x.expiresAt ≤ n) (x : MessageModel) (hx : g.messages x) :
      Stmt.selectsMessage r since n x = false := by
    rw [Stmt.selectsMessage, decide_eq_false (Int.not_lt.mpr (hcur x hx)), Bool.and_false,
      Bool.false_and]
  cases s with
  | purgeMessages n => exact absurd trivial hs
  | purgeRelay n => exact absurd trivial hs
  | purgeBlobs n => exact absurd trivial hs
  | countMessages r since n =>
      exact agree_of_loads (.countMessages r since n) trivial (fun hcur ↦ h.messages.countP_eq (hsel hcur)) h
  | loadMessages r since n limit =>
      refine agree_of_loads (.loadMessages r since n limit) trivial (fun hcur ↦ ?_) h
      rw [h.messages.filter_eq (hsel hcur)]
  | insertMessage n =>
      have hany : db.messages.any (fun x ↦ x.messageId = n.messageId) =
          m.any fun x ↦ x.messageId = n.messageId :=
        h.messages.any_eq fun x hx ↦ decide_eq_false (hun x hx)
      simp only [Stmt.exec, hany]
      repeat' split
      · exact agree_of_eq rfl h
      · exact agree_of_eq rfl { h with rest := rfl }
      · exact agree_of_eq rfl { h with rest := rfl, messages := h.messages.append (.refl _) }
  | deleteMessage i r =>
      exact agree_of_discards (.deleteMessage i r) trivial { h with rest := rfl, messages := h.messages.filter _ }
  | deleteMessagesOf u =>
      exact agree_of_discards (.deleteMessagesOf u) trivial { h with rest := rfl, messages := h.messages.filter _ }
  | loadRelay d since n limit =>
      refine agree_of_loads (.loadRelay d since n limit) trivial (fun hcur ↦ ?_) h
      rw [h.relayMessages.filter_eq fun x hx ↦ ?_]
      rw [decide_eq_false (Int.not_lt.mpr (hcur x hx)), Bool.and_false]
  | insertRelay n =>
      exact agree_of_eq rfl
        { h with rest := rfl, relayMessages := h.relayMessages.append (.refl _) }
  | deleteRelayUpTo d i =>
      exact agree_of_discards (.deleteRelayUpTo d i) trivial
        { h with rest := rfl, relayMessages := h.relayMessages.filter _ }
  | selectBlob d n =>
      refine ⟨.blob d n _ _, fun hcur ↦ ?_, h⟩
      have hfound := h.syncBlobs.filter_eq (d := d) (p := fun x ↦
        decide (x.forDeviceDilithiumPubkey = d) && decide (n < x.expiresAt)) (fun x hx ↦ by
          rw [decide_eq_false (Int.not_lt.mpr (hcur x hx)), Bool.and_false]) fun x hx ↦ by
          exact of_decide_eq_true (Bool.and_eq_true_iff.mp hx).1
      simp only [Stmt.exec, hfound]
      exact .same _ _
  | upsertBlob p =>
      refine agree_of_eq rfl { h with rest := rfl, syncBlobs := ?_ }
      refine ⟨fun x hx ↦ ?_, fun x hx ↦ ?_, nodup_upsertBlob p h.syncBlobs.nodup,
        nodup_upsertBlob p h.syncBlobs.nodup'⟩
      · exact mem_upsertBlob.mpr ((mem_upsertBlob.mp hx).imp_right
          fun hkept ↦ ⟨h.syncBlobs.sub x hkept.1, hkept.2⟩)
      · rcases mem_upsertBlob.mp hx with rfl | ⟨hx, hne⟩
        · exact .inl (mem_upsertBlob.mpr (.inl rfl))
        · exact (h.syncBlobs.rest x hx).imp_left fun hx ↦ mem_upsertBlob.mpr (.inr ⟨hx, hne⟩)
  | deleteBlob d =>
      exact agree_of_discards (.deleteBlob d) trivial { h with rest := rfl, syncBlobs := h.syncBlobs.filter _ }
  | _ =>
      -- the other statements do not look at these tables
      simp only [Stmt.exec]
      repeat' refine agree_ite ?_ ?_
      all_goals exact agree_of_eq rfl { h with rest := rfl }

end

/-! ## Purges -/

/-- The tables that the cleanup purges. -/
inductive Store
  | messages | relayMessages | syncBlobs
deriving DecidableEq

/-- A purge that has removed rows, and the time it names: the rows had expired before it. -/
def purged : Event Res → Option (Store × NaiveDateTime)
  | ⟨.sql (.purgeMessages n), .ok (k : Nat)⟩ => if k = 0 then none else some (.messages, n)
  | ⟨.sql (.purgeRelay n), .ok (k : Nat)⟩ => if k = 0 then none else some (.relayMessages, n)
  | ⟨.sql (.purgeBlobs n), .ok (k : Nat)⟩ => if k = 0 then none else some (.syncBlobs, n)
  | _ => none

/-- The statement that purges a table. -/
def Store.purge (n : NaiveDateTime) : Store → Stmt
  | messages => .purgeMessages n
  | relayMessages => .purgeRelay n
  | syncBlobs => .purgeBlobs n

theorem eq_of_purged {e : Event Res} {table : Store} {n : NaiveDateTime}
    (h : purged e = some (table, n)) :
    ∃ a : (table.purge n).Out, e = ⟨.sql (table.purge n), .ok a⟩ := by
  unfold purged at h
  split at h
  · split at h
    · exact nomatch h
    · obtain ⟨rfl, rfl⟩ := Prod.mk.inj (Option.some.inj h)
      exact ⟨_, rfl⟩
  · split at h
    · exact nomatch h
    · obtain ⟨rfl, rfl⟩ := Prod.mk.inj (Option.some.inj h)
      exact ⟨_, rfl⟩
  · split at h
    · exact nomatch h
    · obtain ⟨rfl, rfl⟩ := Prod.mk.inj (Option.some.inj h)
      exact ⟨_, rfl⟩
  · exact nomatch h

/-- The operations of the cleanup. -/
def Op.Cleans : Op → Prop
  | .cleanupLimiters | .relayCleanup | .clock => True
  | .sql s => s.Purges
  | _ => False

/-- `g` has what the purge `e` has removed from the database. -/
structure Gone.Has (g : Gone) (db : Db) (e : Event Res) : Prop where
  messages : ∀ n, purged e = some (.messages, n) → ∀ x ∈ db.messages, x.expiresAt < n →
    g.messages x
  relayMessages : ∀ n, purged e = some (.relayMessages, n) → ∀ x ∈ db.relayMessages,
    x.expiresAt < n → g.relayMessages x
  syncBlobs : ∀ n, purged e = some (.syncBlobs, n) → ∀ x ∈ db.syncBlobs, x.expiresAt < n →
    g.syncBlobs x

/-- A purge that removes a row has removed some. -/
theorem countP_ne_zero {α : Type} {l : List α} {p : α → Bool} {x : α} (hx : x ∈ l)
    (hp : (!p x) = false) : l.countP p ≠ 0 :=
  Nat.pos_iff_ne_zero.mp (List.countP_pos_iff.mpr ⟨x, hx, (Bool.not_eq_false' _).mp hp⟩)

/-- A purge takes rows from one database while the other one stays as it is. -/
theorem Db.Cleaned.purge {g : Gone} {db db' : Db} {s : Stmt} {now : NaiveDateTime}
    (h : db.Cleaned g db') (hs : s.Purges) (hgone : g.Has db ⟨.sql s, (s.exec now db).1⟩) :
    (s.exec now db).2.Cleaned g db' := by
  cases s with
  | purgeMessages n =>
      refine { h with rest := h.rest, messages := h.messages.trim fun x hx hp ↦ ?_ }
      refine hgone.messages n ?_ x hx (of_decide_eq_true ((Bool.not_eq_false' _).mp hp))
      exact if_neg (countP_ne_zero hx hp)
  | purgeRelay n =>
      refine { h with rest := h.rest, relayMessages := h.relayMessages.trim fun x hx hp ↦ ?_ }
      refine hgone.relayMessages n ?_ x hx (of_decide_eq_true ((Bool.not_eq_false' _).mp hp))
      exact if_neg (countP_ne_zero hx hp)
  | purgeBlobs n =>
      refine { h with rest := h.rest, syncBlobs := h.syncBlobs.trim fun x hx hp ↦ ?_ }
      refine hgone.syncBlobs n ?_ x hx (of_decide_eq_true ((Bool.not_eq_false' _).mp hp))
      exact if_neg (countP_ne_zero hx hp)
  | _ => exact absurd hs id

/-! ## The world -/

/-- The first world lacks only what cleanups have taken away from the second one. -/
structure World.Cleaned (g : Gone) (w w' : World) : Prop where
  rest : w' = { w with db := w'.db, limiters := w'.limiters, transfers := w'.transfers }
  db : w.db.Cleaned g w'.db
  limiters : ∀ l, (w.limiters l).Cleaned w.instant (w'.limiters l)
  transfers : FileRelay.Cleaned w.instant w.transfers w'.transfers

/-- The same act, but that PostgreSQL may reorder rows otherwise. -/
def SameAct (a a' : Act) : Prop := a' = a ∨ ∃ db db', a = .reorder db ∧ a' = .reorder db'

namespace World

variable {verifyDetached : Bytes → Bytes → Bytes → Bool} {g g' : Gone} {w w' w₁ : World} {o : Op}
variable {ω : Oracle} {r : Res o}

theorem cleaned_initial (g : Gone) (clock instant : Nat) :
    (initial clock instant).Cleaned g (initial clock instant) :=
  ⟨rfl, Db.cleaned_migrated g, fun l ↦ KeyRateLimiter.cleaned_initLimiters l instant,
    fun _ ↦ .refl _⟩

/-- The operation gives both worlds the same result, or a similar one if it is about rows that are
gone. -/
structure Follow (verifyDetached : Bytes → Bytes → Bytes → Bool) (g : Gone) (o : Op) (ω : Oracle)
    (w' : World) (r r' : Res o) (w₁ w₁' : World) : Prop where
  perform : perform verifyDetached o ω w' = some (r', w₁')
  similar : SimilarResult o r r'
  same : (∀ s, o = .sql s → s.Current g) → SameResult o r r'
  world : w₁.Cleaned g w₁'

theorem follow_of_eq {w₁' : World}
    (hp : ZenthDht.perform verifyDetached o ω w' = some (r, w₁')) (h : w₁.Cleaned g w₁') :
    Follow verifyDetached g o ω w' r r w₁ w₁' :=
  ⟨hp, .same (.same o r), fun _ ↦ .same o r, h⟩

/-- An operation that is not one of the cleanup does the same in both worlds. -/
theorem Cleaned.perform (h : w.Cleaned g w') (hl : o ≠ .cleanupLimiters) (hr : o ≠ .relayCleanup)
    (hs : ∀ s, o = .sql s → ¬ s.Purges ∧ s.Unused g)
    (hp : perform verifyDetached o ω w = some (r, w₁)) :
    ∃ r' w₁', Follow verifyDetached g o ω w' r r' w₁ w₁' := by
  obtain ⟨d, L, T, rfl⟩ : ∃ d L T, w' = { w with db := d, limiters := L, transfers := T } :=
    ⟨_, _, _, h.rest⟩
  cases o with
  | cleanupLimiters => exact absurd rfl hl
  | relayCleanup => exact absurd rfl hr
  | sql s =>
      obtain ⟨hno, hun⟩ := hs s rfl
      have hagree := h.db.exec w.clock hno hun
      have hexec (hω : ω.fails = false) : ∃ r' w₁', Follow verifyDetached g (.sql s) ω
          { w with db := d, limiters := L, transfers := T } r r' w₁ w₁' := by
        obtain ⟨rfl, rfl⟩ : r = (s.exec w.clock w.db).1 ∧
            w₁ = { w with db := (s.exec w.clock w.db).2 } := by
          cases ω with
          | fail e => cases hω
          | _ => exact (Prod.mk.inj (Option.some.inj hp)).imp Eq.symm Eq.symm
        refine ⟨(s.exec w.clock d).1,
          { w with db := (s.exec w.clock d).2, limiters := L, transfers := T }, ?_,
          hagree.similar, fun hcur ↦ hagree.same (hcur s rfl), ?_⟩
        · cases ω with
          | fail e => cases hω
          | _ => rfl
        · exact ⟨rfl, hagree.db, h.limiters, h.transfers⟩
      cases ω with
      | fail e =>
          obtain ⟨rfl, rfl⟩ := Prod.mk.inj (Option.some.inj hp)
          exact ⟨_, _, follow_of_eq rfl h⟩
      | _ => exact hexec rfl
  | limiter l key =>
      obtain ⟨rfl, rfl⟩ := Prod.mk.inj (Option.some.inj hp)
      obtain ⟨hans, hmap⟩ := (h.limiters l).isAllowed key
      refine ⟨_, _, rfl, ?_, ?_, rfl, h.db, fun l' ↦ ?_, h.transfers⟩
      · exact hans ▸ .same (.same _ _)
      · exact fun _ ↦ hans ▸ .same _ _
      · by_cases hl : l' = l
        · subst hl
          simp only [Function.update_self]
          exact hmap
        · simp only [Function.update_of_ne hl]
          exact h.limiters l'
  | relayRegister tid u =>
      obtain ⟨rfl, rfl⟩ := Prod.mk.inj (Option.some.inj hp)
      exact ⟨_, _, follow_of_eq rfl ⟨rfl, h.db, h.limiters, h.transfers.register tid u⟩⟩
  | relayGetSender tid =>
      obtain ⟨rfl, rfl⟩ := Prod.mk.inj (Option.some.inj hp)
      refine ⟨_, _, follow_of_eq ?_ h⟩
      rw [h.transfers.getSender tid]
      rfl
  | relayUnregisterBySender u =>
      obtain ⟨rfl, rfl⟩ := Prod.mk.inj (Option.some.inj hp)
      exact ⟨_, _, follow_of_eq rfl ⟨rfl, h.db, h.limiters, h.transfers.unregisterBySender u⟩⟩
  | select rx =>
      obtain ⟨rfl, ⟨f, rfl, rfl⟩ | ⟨res, next, hrecv, rfl⟩⟩ := perform_select hp
      · exact ⟨_, _, follow_of_eq rfl h⟩
      · refine ⟨_, { w₁ with db := d, limiters := L, transfers := T }, follow_of_eq ?_ h⟩
        cases ω with
        | frame f =>
            cases f with
            | none => simp only [ZenthDht.perform, hrecv, Option.map_some]
            | some f => cases hp
        | _ => simp only [ZenthDht.perform, hrecv, Option.map_some]
  | _ =>
      cases ω <;> first
        | obtain ⟨rfl, rfl⟩ := Prod.mk.inj (Option.some.inj hp)
          exact ⟨_, _, follow_of_eq rfl ⟨rfl, h.db, h.limiters, h.transfers⟩⟩
        | cases hp

/-- An operation of the cleanup takes something from one world while the other one stays as it
is. -/
theorem Cleaned.purge (h : w.Cleaned g w') (ho : o.Cleans) (hgone : g.Has w.db ⟨o, r⟩)
    (hp : ZenthDht.perform verifyDetached o ω w = some (r, w₁)) : w₁.Cleaned g w' := by
  cases o with
  | sql s =>
      rcases perform_sql hp with ⟨rfl, -⟩ | ⟨rfl, rfl⟩
      · exact h
      · exact ⟨h.rest, h.db.purge ho hgone, h.limiters, h.transfers⟩
  | clock =>
      obtain ⟨rfl, rfl⟩ := Prod.mk.inj (Option.some.inj hp)
      exact h
  | cleanupLimiters =>
      obtain ⟨rfl, rfl⟩ := Prod.mk.inj (Option.some.inj hp)
      exact ⟨h.rest, h.db, fun l ↦ (h.limiters l).cleanup, h.transfers⟩
  | relayCleanup =>
      obtain ⟨rfl, rfl⟩ := Prod.mk.inj (Option.some.inj hp)
      exact ⟨h.rest, h.db, h.limiters, h.transfers.cleanupExpired⟩
  | _ => exact absurd ho id

theorem Cleaned.act {a : Act} (h : w.Cleaned g w') (ha : act a w = some w₁) :
    ∃ a' w₁', SameAct a a' ∧ ZenthDht.act a' w' = some w₁' ∧ w₁.Cleaned g w₁' := by
  obtain ⟨d, L, T, rfl⟩ : ∃ d L T, w' = { w with db := d, limiters := L, transfers := T } :=
    ⟨_, _, _, h.rest⟩
  cases a with
  | tick clock instant =>
      simp only [ZenthDht.act] at ha
      split at ha
      next hle =>
        obtain rfl := Option.some.inj ha
        refine ⟨_, _, .inl rfl, if_pos hle, rfl, h.db, fun l ↦ (h.limiters l).later hle.2,
          h.transfers.later hle.2⟩
      · cases ha
  | setConfig config =>
      obtain rfl := Option.some.inj ha
      refine ⟨_, _, .inl rfl, rfl, rfl, ?_, h.limiters, h.transfers⟩
      exact { h.db with rest := by rw [h.db.rest] }
  | reorder db =>
      simp only [ZenthDht.act] at ha
      split at ha
      next hperm =>
        obtain rfl := Option.some.inj ha
        have hsame := Db.Same.of_isPerm hperm
        obtain ⟨m, hm, hmessages⟩ := h.db.messages.perm hsame.messages
        obtain ⟨rel, hrel, hrelay⟩ := h.db.relayMessages.perm hsame.relayMessages
        refine ⟨.reorder { db with messages := m, relayMessages := rel, syncBlobs := d.syncBlobs },
          _, .inr ⟨_, _, rfl, rfl⟩, if_pos ?_, rfl,
          ⟨rfl, hmessages, hrelay, h.db.syncBlobs.perm hsame.syncBlobs⟩, h.limiters, h.transfers⟩
        have hrest : d = { w.db with
          messages := d.messages, relayMessages := d.relayMessages, syncBlobs := d.syncBlobs } :=
            h.db.rest
        rw [hrest]
        simp only [Db.isPerm, Bool.and_eq_true, List.isPerm_iff, decide_eq_true_eq] at hperm ⊢
        obtain ⟨⟨⟨⟨⟨h₁, -⟩, -⟩, -⟩, hconfig⟩, hseq⟩ := hperm
        exact ⟨⟨⟨⟨⟨h₁, hm⟩, hrel⟩, .refl _⟩, hconfig⟩, hseq⟩
      · cases ha
  | runSpawned i =>
      obtain ⟨x, hx, rfl⟩ := Option.map_eq_some_iff.mp ha
      refine ⟨_, _, .inl rfl, Option.map_eq_some_iff.mpr ⟨x, hx, rfl⟩, rfl, h.db, h.limiters,
        h.transfers⟩

end World

end ZenthDht
